import Mathlib
import Raceway.Disk.Tree
import Raceway.Proofs.Results
/-!
# Files in the working folder

A path that is a single name leads to the place of that name in the working folder. Where there is
no folder at that place, a file there can be read, replaced and added to. A replacement passes
through the partner of the path, and leaves all other places as they are.

## Main definitions

* `Raceway.Path.IsName`: a path that is a single name.
* `Raceway.FileTree.HoldsFile` and `Raceway.FileTree.content?`: the content of the file at a path,
  if there is one.

## Main results

* `Raceway.FileTree.run_readText`: what is read from a file.
* `Raceway.FileTree.run_replace` and `Raceway.FileTree.run_addTo`: what becomes of the files.
-/

namespace Raceway

/-- The path is a single name, and not too long for one. -/
structure Path.IsName (p : Path) : Prop where
  names : Path.names p = [p]
  ne_parent : p ≠ ".."
  size_le : p.utf8ByteSize ≤ FileTree.nameLimit
  folder : Path.folder p = ""
  endsInName : Path.endsInName p = true
  leadsToFolder : Path.leadsToFolder p = false

instance (p : Path) : Decidable (Path.IsName p) :=
  decidable_of_iff (Path.names p = [p] ∧ p ≠ ".." ∧ p.utf8ByteSize ≤ FileTree.nameLimit ∧
      Path.folder p = "" ∧ Path.endsInName p = true ∧ Path.leadsToFolder p = false)
    ⟨fun ⟨h₁, h₂, h₃, h₄, h₅, h₆⟩ => ⟨h₁, h₂, h₃, h₄, h₅, h₆⟩,
      fun ⟨h₁, h₂, h₃, h₄, h₅, h₆⟩ => ⟨h₁, h₂, h₃, h₄, h₅, h₆⟩⟩

namespace FileTree

variable {t t' : FileTree} {place other : Location} {e : Entry} {p : Path}

/-! ### Places -/

theorem lookup_filter (f : Location → Bool) (place : Location) (l : List (Location × Entry)) :
    (l.filter fun x => f x.1).lookup place = if f place then l.lookup place else none := by
  induction l with
  | nil => simp
  | cons x l ih =>
    obtain ⟨k, e⟩ := x
    rw [List.filter_cons]
    by_cases hk : place = k
    · subst hk
      cases hf : f place <;> simp [hf, ih]
    · have hkey : (place == k) = false := beq_eq_false_iff_ne.mpr hk
      cases hf : f k <;> simp [List.lookup_cons, hkey, ih]

theorem entry_eq (t : FileTree) (place : Location) :
    t.entry? place = if place.isEmpty then some .folder else t.entries.lookup place :=
  rfl

theorem entry_erase_self (h : place ≠ []) : entry? (t.erase place) place = none := by
  simp [entry_eq, erase, lookup_filter (· != place), h]

theorem entry_erase_of_ne (h : other ≠ place) :
    entry? (t.erase place) other = t.entry? other := by
  simp [entry_eq, erase, lookup_filter (· != place), h]

theorem entry_put_self (h : place ≠ []) : entry? (t.put place e) place = some e := by
  simp [entry_eq, put, h]

theorem entry_put_of_ne (h : other ≠ place) : entry? (t.put place e) other = t.entry? other := by
  have hkey : (other == place) = false := by simpa using h
  have herase : entry? (t.erase place) other = t.entry? other := entry_erase_of_ne h
  rw [← herase, entry_eq, entry_eq, put, List.lookup_cons, hkey]

/-! ### Files -/

/-- The content of the file at a path, if there is one. There is no folder. -/
def HoldsFile (t : FileTree) (p : Path) (content : Option ByteArray) : Prop :=
  t.entry? [p] = content.map .file

variable {content : Option ByteArray}

theorem HoldsFile.of_entry_eq (h : t.HoldsFile p content) (heq : t'.entry? [p] = t.entry? [p]) :
    t'.HoldsFile p content :=
  heq.trans h

/-- The content of the file at a path. -/
def content? (t : FileTree) (p : Path) : Option ByteArray :=
  match t.entry? [p] with
  | some (.file bytes) => some bytes
  | _ => none

theorem HoldsFile.content_eq (h : t.HoldsFile p content) : t.content? p = content := by
  rw [content?, h]
  cases content <;> rfl

theorem content_congr (h : t'.entry? [p] = t.entry? [p]) : t'.content? p = t.content? p := by
  rw [content?, h, content?]

theorem holdsFile_put (t : FileTree) (p : Path) (bytes : ByteArray) :
    (t.put [p] (.file bytes)).HoldsFile p (some bytes) :=
  entry_put_self (List.cons_ne_nil p [])

theorem locate_of_isName (hp : p.IsName) (h : t.HoldsFile p content) : t.locate p = .ok [p] := by
  have hsize : ¬ p.utf8ByteSize > nameLimit := Nat.not_lt.mpr hp.size_le
  rw [HoldsFile] at h
  rw [locate, hp.names, follow, if_neg hp.ne_parent, if_neg hsize, List.nil_append, h]
  cases content <;> rfl

theorem read_of_isName (hp : p.IsName) (h : t.HoldsFile p content) :
    t.read p = content.elim (.error .notFound) .ok := by
  rw [read, locate_of_isName hp h, ok_bind, h]
  cases content with
  | none => rfl
  | some bytes => simp [hp.leadsToFolder]

theorem writeFile_of_isName (hp : p.IsName) (h : t.HoldsFile p content)
    (f : ByteArray → ByteArray) :
    t.writeFile p f = .ok (t.put [p] (.file (f (content.getD ByteArray.empty)))) := by
  rw [writeFile, locate_of_isName hp h, ok_bind, h]
  cases content <;> simp [hp.leadsToFolder]

theorem rename_of_isName {source : Path} {bytes : ByteArray} (hsource : source.IsName)
    (hp : p.IsName) (h : t.HoldsFile source (some bytes)) (h' : t.HoldsFile p content) :
    t.rename source p = .ok ((t.erase [source]).put [p] (.file bytes)) := by
  rw [rename, locate_of_isName hsource h, ok_bind, read_of_isName hsource h]
  change (t.locate p >>= fun _ => _) = _
  rw [locate_of_isName hp h', ok_bind, h']
  cases content <;> simp [hp.endsInName, hp.leadsToFolder] <;> rfl

theorem step_sync_of_isName {bytes : ByteArray} (hp : p.IsName)
    (h : t.HoldsFile p (some bytes)) : t.step (.sync p) = .ok t := by
  rw [step, read_of_isName hp h]
  rfl

/-! ### Steps in order -/

/-- Steps that succeed one after the other. -/
theorem run_changes {cs : List Change} (h : cs.foldlM step t = .ok t') :
    (disk.changes cs).run t = (.ok (), t') := by
  induction cs generalizing t with
  | nil =>
    obtain rfl := Except.ok.inj h
    rfl
  | cons c cs ih =>
    rw [List.foldlM_cons] at h
    obtain ⟨t₁, hstep, hrest⟩ := bind_eq_ok h
    have hrun : (disk.change c).run t = (.ok (), t₁) := by
      simp only [disk, StateT.run_bind, StateT.run_get, pure_bind, hstep]
      rfl
    rw [Disk.changes, StateT.run_bind, hrun]
    exact ih hrest

/-- What is read from a text file. -/
theorem run_readText (hp : p.IsName) (h : t.HoldsFile p content) :
    (disk.readText p).run t = (content.elim (.error .notFound) Disk.text, t) := by
  have hread : (disk.read p).run t = (t.read p, t) := rfl
  rw [Disk.readText, StateT.run_bind, hread, read_of_isName hp h]
  cases content <;> rfl

/-- A file is replaced. Nothing else changes, and there is no file at the partner of its path. -/
theorem run_replace {before : Option ByteArray} (hp : p.IsName) (hpartner : (Path.partner p).IsName)
    (h : t.HoldsFile p content) (h' : t.HoldsFile (Path.partner p) before) (bytes : ByteArray) :
    ∃ t', (disk.replace p bytes).run t = (.ok (), t') ∧ t'.HoldsFile p (some bytes) ∧
      t'.HoldsFile (Path.partner p) none ∧
      ∀ q, q ≠ p → q ≠ Path.partner p → t'.entry? [q] = t.entry? [q] := by
  have hne : p ≠ Path.partner p := fun heq => by
    have hsize := congrArg String.length heq
    rw [Path.partner, String.length_append] at hsize
    exact absurd hsize (Nat.ne_of_lt (Nat.lt_add_of_pos_right (by decide)))
  have hplace {q r : Path} (hqr : q ≠ r) : [q] ≠ [r] := fun heq => hqr (List.cons.inj heq).1
  -- The new content is prepared at the partner first.
  let cleared := t.put [Path.partner p] (.file ByteArray.empty)
  let written := cleared.put [Path.partner p] (.file (ByteArray.empty ++ bytes))
  let last := (written.erase [Path.partner p]).put [p] (.file (ByteArray.empty ++ bytes))
  have hcleared := holdsFile_put t (Path.partner p) ByteArray.empty
  have hwritten := holdsFile_put cleared (Path.partner p) (ByteArray.empty ++ bytes)
  have hold : written.HoldsFile p content := h.of_entry_eq <|
    (entry_put_of_ne (hplace hne)).trans (entry_put_of_ne (hplace hne))
  have hclear : t.step (.clear (Path.partner p)) = .ok cleared :=
    writeFile_of_isName hpartner h' _
  have hwrite : cleared.step (.append (Path.partner p) bytes) = .ok written :=
    writeFile_of_isName hpartner hcleared _
  have hrename : written.step (.rename (Path.partner p) p) = .ok last :=
    rename_of_isName hpartner hp hwritten hold
  have hsteps : (Change.replacement p bytes).foldlM step t = .ok last := by
    rw [Change.replacement, Change.foldersOf, if_pos hp.folder, List.nil_append,
      foldlM_cons_of_ok hclear, foldlM_cons_of_ok hwrite,
      foldlM_cons_of_ok (step_sync_of_isName hpartner hwritten), foldlM_cons_of_ok hrename]
    rfl
  refine ⟨last, run_changes hsteps, ?_, ?_, fun q hq hq' => ?_⟩
  · rw [← ByteArray.empty_append (b := bytes)]
    exact holdsFile_put _ p _
  · rw [HoldsFile, entry_put_of_ne (hplace hne.symm)]
    exact entry_erase_self (List.cons_ne_nil _ _)
  · rw [entry_put_of_ne (hplace hq), entry_erase_of_ne (hplace hq'),
      entry_put_of_ne (hplace hq'), entry_put_of_ne (hplace hq')]

/-- Bytes are added to a file. Nothing else changes. -/
theorem run_addTo (hp : p.IsName) (h : t.HoldsFile p content) (bytes : ByteArray) :
    ∃ t', (disk.addTo p bytes).run t = (.ok (), t') ∧
      t'.HoldsFile p (some (content.getD ByteArray.empty ++ bytes)) ∧
      ∀ q, q ≠ p → t'.entry? [q] = t.entry? [q] := by
  have hplace {q : Path} (hq : q ≠ p) : [q] ≠ [p] := fun heq => hq (List.cons.inj heq).1
  let touched := t.put [p] (.file (content.getD ByteArray.empty))
  let last := touched.put [p] (.file (content.getD ByteArray.empty ++ bytes))
  have htouched := holdsFile_put t p (content.getD ByteArray.empty)
  have hlast := holdsFile_put touched p (content.getD ByteArray.empty ++ bytes)
  have htouch : t.step (.touch p) = .ok touched := writeFile_of_isName hp h _
  have hwrite : touched.step (.append p bytes) = .ok last := writeFile_of_isName hp htouched _
  have hsteps : (Change.addition p bytes).foldlM step t = .ok last := by
    rw [Change.addition, Change.foldersOf, if_pos hp.folder, List.nil_append,
      foldlM_cons_of_ok htouch, foldlM_cons_of_ok hwrite,
      foldlM_cons_of_ok (step_sync_of_isName hp hlast)]
    rfl
  refine ⟨last, run_changes hsteps, hlast, fun q hq => ?_⟩
  rw [entry_put_of_ne (hplace hq), entry_put_of_ne (hplace hq)]

end FileTree

end Raceway
