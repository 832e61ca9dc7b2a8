import Mathlib
import Raceway.Proofs.Results
import Raceway.Proofs.Text.Lines
import Raceway.Session.Finding
/-!
# Strict and lenient reading

Both modes of reading go through the same lines. Strict reading ends at the first line that lenient
reading skips, with what lenient reading notes down there, and otherwise they give the same plan.
What lenient reading makes of a text is what strict reading makes of the text without its bad lines,
since a line that is empty holds no operation and still counts.

## Main definitions

* `Raceway.Plan.isBadLine`: a line that has to be an operation and is none.
* `Raceway.Plan.badLines`: the bad lines of a text with their numbers.

## Main results

* `Raceway.Plan.read_strict`: strict reading in terms of what lenient reading skips.
* `Raceway.Plan.read_strict_blankOut`: strict reading of a text without its bad lines.
* `Raceway.Plan.modes_agree`: how the two modes agree.
-/

namespace Raceway

open Text

namespace Plan

/-! ### The two traversals -/

theorem okEntry?_of_ok {entry : ℕ × List Char} {op : Op Float} (h : readEntry entry = .ok op) :
    okEntry? entry = some op ∧ badEntry? entry = none := by
  simp [h, okEntry?, badEntry?, Except.toOption]

theorem badEntry?_of_error {entry : ℕ × List Char} {e : PlanError}
    (h : readEntry entry = .error e) : okEntry? entry = none ∧ badEntry? entry = some e := by
  simp [h, okEntry?, badEntry?, Except.toOption]

/-- The traversal that ends at the first bad line, in terms of the one that skips bad lines. -/
theorem mapM_readEntry (entries : List (ℕ × List Char)) :
    entries.mapM readEntry =
      match entries.filterMap badEntry? with
      | [] => .ok (entries.filterMap okEntry?)
      | e :: _ => .error e := by
  induction entries with
  | nil => rfl
  | cons entry entries ih =>
    rw [List.mapM_cons]
    cases h : readEntry entry with
    | error e =>
      rw [List.filterMap_cons_some (badEntry?_of_error h).2]
      rfl
    | ok op =>
      obtain ⟨hok, hbad⟩ := okEntry?_of_ok h
      rw [ok_bind, ih, List.filterMap_cons_none hbad, List.filterMap_cons_some hok]
      cases entries.filterMap badEntry? <;> rfl

/-- Strict reading gives what lenient reading gives where nothing is skipped, and otherwise the
error of the first line that is skipped. -/
theorem read_strict (text : List Char) :
    read .strict text =
      match (entries text).filterMap badEntry? with
      | [] => .ok ((entries text).filterMap okEntry?, [])
      | e :: _ => .error e := by
  rw [read, mapM_readEntry]
  cases (entries text).filterMap badEntry? <;> rfl

/-! ### Bad lines -/

/-- The line has to be an operation, and is none. -/
def isBadLine (line : List Char) : Bool :=
  !isSkipped (trim line) && !(Op.ofLine (trim line)).isOk

/-- The bad lines of a text without the blanks around them, with their numbers. -/
def badLines (text : List Char) : List (ℕ × String) :=
  ((lines text).zipIdx 1).filterMap fun (line, number) =>
    if isBadLine line then some (number, String.ofList (trim line)) else none

/-- The entry on a numbered line, if one has to be there. -/
def entryAt (x : List Char × ℕ) : Option (ℕ × List Char) :=
  if isSkipped (trim x.1) then none else some (x.2, trim x.1)

theorem entries_eq (text : List Char) : entries text = ((lines text).zipIdx 1).filterMap entryAt :=
  rfl

/-- What can be on a numbered line. -/
inductive OnLine (x : List Char × ℕ) : Prop
  /-- Nothing that has to be an operation. -/
  | skipped (hbad : isBadLine x.1 = false) (hentry : entryAt x = none)
  /-- An operation. -/
  | good (op : Op Float) (hbad : isBadLine x.1 = false) (hentry : entryAt x = some (x.2, trim x.1))
      (hread : readEntry (x.2, trim x.1) = .ok op)
  /-- Something that has to be an operation, and is none. -/
  | bad (reason : LineError) (hbad : isBadLine x.1 = true)
      (hentry : entryAt x = some (x.2, trim x.1))
      (hread : readEntry (x.2, trim x.1) = .error ⟨x.2, String.ofList (trim x.1), reason⟩)

theorem onLine (x : List Char × ℕ) : OnLine x := by
  cases hskip : isSkipped (trim x.1) with
  | true => exact .skipped (by simp [isBadLine, hskip]) (by simp [entryAt, hskip])
  | false =>
    have hentry : entryAt x = some (x.2, trim x.1) := by simp [entryAt, hskip]
    cases hread : Op.ofLine (trim x.1) with
    | ok op =>
      exact .good op (by simp [isBadLine, hread, Except.isOk, Except.toBool]) hentry
        (by simp [readEntry, hread])
    | error reason =>
      exact .bad reason (by simp [isBadLine, hskip, hread, Except.isOk, Except.toBool]) hentry
        (by simp [readEntry, hread])

/-- An empty line holds no entry. -/
theorem entryAt_nil (number : ℕ) : entryAt ([], number) = none :=
  rfl

/-- What is noted down of a line is its number and its text, and only of a bad one. -/
theorem map_badEntry? (x : List Char × ℕ) :
    ((entryAt x).bind badEntry?).map (fun e => (e.line, e.text)) =
      if isBadLine x.1 then some (x.2, String.ofList (trim x.1)) else none := by
  cases onLine x with
  | skipped hbad hentry => simp [hbad, hentry]
  | good op hbad hentry hread => simp [hbad, hentry, (okEntry?_of_ok hread).2]
  | bad reason hbad hentry hread => simp [hbad, hentry, (badEntry?_of_error hread).2]

/-- A line that is no bad one, or that nothing stands on any more, is not skipped. -/
theorem badEntry?_blank (x : List Char × ℕ) :
    (entryAt (blank isBadLine x.1, x.2)).bind badEntry? = none := by
  cases onLine x with
  | skipped hbad hentry => simp [blank, hbad, hentry]
  | good op hbad hentry hread => simp [blank, hbad, hentry, (okEntry?_of_ok hread).2]
  | bad reason hbad hentry hread => simp [blank, hbad, entryAt_nil]

/-- Taking away what stands on bad lines takes away no operation. -/
theorem okEntry?_blank (x : List Char × ℕ) :
    (entryAt (blank isBadLine x.1, x.2)).bind okEntry? = (entryAt x).bind okEntry? := by
  cases onLine x with
  | skipped hbad hentry => simp [blank, hbad]
  | good op hbad hentry hread => simp [blank, hbad]
  | bad reason hbad hentry hread =>
    simp [blank, hbad, entryAt_nil, hentry, (badEntry?_of_error hread).1]

/-! ### Reading without the bad lines -/

/-- The entries of a text without its bad lines, by the lines of the text itself. -/
theorem entries_blankOut (text : List Char) :
    entries (blankOut isBadLine text) =
      ((lines text).zipIdx 1).filterMap fun x => entryAt (blank isBadLine x.1, x.2) := by
  obtain ⟨rest, hrest, hempty⟩ := exists_lines_blankOut isBadLine text
  have hnone : (rest.zipIdx (1 + (lines (blankOut isBadLine text)).length)).filterMap entryAt =
      [] := by
    rw [List.filterMap_eq_nil_iff]
    rintro ⟨l, number⟩ hl
    rw [hempty l (List.fst_mem_of_mem_zipIdx hl), entryAt_nil]
  have hmap : ((lines text).map (blank isBadLine)).zipIdx 1 =
      ((lines text).zipIdx 1).map fun x => (blank isBadLine x.1, x.2) :=
    List.zipIdx_map
  rw [← Function.comp_def entryAt, ← List.filterMap_map, ← hmap, hrest, List.zipIdx_append,
    List.filterMap_append, hnone, List.append_nil, entries_eq]

/-- Strict reading of a text without its bad lines gives what lenient reading gives of the text
itself. -/
theorem read_strict_blankOut (text : List Char) :
    read .strict (blankOut isBadLine text) = .ok ((entries text).filterMap okEntry?, []) := by
  have hbad : (entries (blankOut isBadLine text)).filterMap badEntry? = [] := by
    rw [entries_blankOut, List.filterMap_filterMap, List.filterMap_eq_nil_iff]
    exact fun x _ => badEntry?_blank x
  have hok : (entries (blankOut isBadLine text)).filterMap okEntry? =
      (entries text).filterMap okEntry? := by
    rw [entries_blankOut, entries_eq, List.filterMap_filterMap, List.filterMap_filterMap]
    exact List.filterMap_congr fun x _ => okEntry?_blank x
  rw [read_strict, hbad, hok]

/-- What lenient reading notes down are the bad lines, in their order. -/
theorem map_skipped (text : List Char) :
    ((entries text).filterMap badEntry?).map (fun e => (e.line, e.text)) = badLines text := by
  rw [entries_eq, List.filterMap_filterMap, List.map_filterMap, badLines]
  exact List.filterMap_congr fun x _ => map_badEntry? x

/-- Strict and lenient reading agree. Lenient reading always gives a plan, and skips the bad lines
of the text, one after another. Strict reading gives a plan if and only if no line is skipped, and
then the same one; otherwise it fails with the message of the first finding of lenient reading. The
plan of lenient reading is the one that strict reading gives of the text without its bad lines. -/
theorem modes_agree (text : List Char) :
    ∃ (plan : Plan Float) (skipped : List PlanError),
      read .lenient text = .ok (plan, skipped) ∧
      ((∃ result, read .strict text = .ok result) ↔ skipped = []) ∧
      (∀ result, read .strict text = .ok result → result = (plan, [])) ∧
      (∀ e, read .strict text = .error e →
        (skipped.map Finding.skippedLine).head?.map Finding.message = some e.message) ∧
      read .strict (blankOut isBadLine text) = .ok (plan, []) ∧
      skipped.map (fun e => (e.line, e.text)) = badLines text := by
  refine ⟨_, _, rfl, ?_, ?_, ?_, read_strict_blankOut text, map_skipped text⟩
  all_goals rw [read_strict]; generalize (entries text).filterMap badEntry? = skipped
  · cases skipped with
    | nil => exact ⟨fun _ => rfl, fun _ => ⟨_, rfl⟩⟩
    | cons e rest => exact ⟨by rintro ⟨_, ⟨⟩⟩, by rintro ⟨⟩⟩
  · cases skipped with
    | nil => exact fun result h => (Except.ok.inj h).symm
    | cons e rest => rintro _ ⟨⟩
  · cases skipped with
    | nil => rintro _ ⟨⟩
    | cons e rest =>
      rintro _ ⟨⟩
      rfl

end Plan

end Raceway
