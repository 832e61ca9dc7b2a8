import Mathlib
import Raceway.Proofs.Request.Passes
import Raceway.Proofs.Request.Rewording
import Raceway.Proofs.Text.Blank
/-!
# One wording

To bring a request into one wording twice is to do it once. Each replacement comes to rest: to drop
units shortens a text, and the other ones leave what they have put in. The later ones bring nothing
into being that an earlier one would replace. What is replaced stands within a line, and blanks and
line ends look alike from there, so that the lines can be trimmed and put together again.

## Main definitions

* `Raceway.Wording.InOneGo`: a replacement leaves what it has done.
* `Raceway.Wording.Settled`: no replacement has anything to do in the text.
* `Raceway.Wording.tidyLines`: the lines of a text that are left in its wording.
* `Raceway.Wording.Cut`: a part of a text that no word crosses the ends of.

## Main results

* `Raceway.Wording.replaceFully_rests`: a replacement is repeated until there is nothing left to
  replace, which takes no more passes than there are characters.
* `Raceway.Wording.settled_respell` and `Raceway.Wording.respell_of_settled`: a text is settled
  after all replacements, and a settled text is left as it is.
* `Raceway.Wording.Settled.joinLines`: the lines that are left make a settled text.
* `Raceway.Wording.normalize_normalize`: the wording of a request is its own wording.
-/

namespace Raceway.Wording

open Pattern Text

variable {x w z text line : List Char} {p : Pattern} {f : Match → List Char}

/-! ### Repetition -/

/-- The replacement leaves what it has done. -/
def InOneGo (p : Pattern) (f : Match → List Char) : Prop :=
  ∀ text, p.replaceAll f (p.replaceAll f text) = p.replaceAll f text

/-- A replacement that leaves what it has done is done once. -/
theorem InOneGo.replaceFully_eq (h : InOneGo p f) (text : List Char) :
    replaceFully p f text = p.replaceAll f text :=
  settle_succ (h text) (text.length + 1)

/-- A text that a replacement leaves as it is. -/
theorem replaceFully_of_replaceAll (h : p.replaceAll f text = text) :
    replaceFully p f text = text :=
  (settle_succ (congrArg (p.replaceAll f) h) (text.length + 1)).trans h

theorem replaceAll_of_avoids (hp : p.nullable = false) (h : Avoids p.Finds text) :
    p.replaceAll f text = text :=
  replaceAll_eq_self hp fun x w z htext halters => h x w z htext halters.finds

/-- A pattern that reads no empty part finds nothing in the empty text. -/
theorem replaceAll_nil (hp : p.nullable = false) (f : Match → List Char) :
    p.replaceAll f [] = [] := by
  refine replaceAll_of_avoids hp ?_
  rintro x w z hnil ⟨gs, hread⟩
  obtain ⟨-, hwz⟩ := List.append_eq_nil_iff.mp hnil.symm
  exact hread.ne_nil hp (List.append_eq_nil_iff.mp hwz).1

/-- A replacement that leaves what it has done has one pass that changes something. -/
theorem InOneGo.progresses (h : InOneGo p f) (hp : p.nullable = false) :
    Progresses (p.replaceAll f) where
  nil := replaceAll_nil hp f
  of_ne t _ := .inr (h t)

/-! ### Numbers with units -/

/-- The digit in front of units is shorter than the number with its units. -/
theorem keepDigit_of_reads {m : Match} (h : digitWithUnits.Reads x m.text z m.texts) :
    ∃ d t, m.text = d :: t ∧ t ≠ [] ∧ isDecimalDigit d = true ∧ keepDigit m = [d] ∧
      unitTail.Finds (x ++ [d]) t z := by
  obtain ⟨d, t, htext, hd, hgs, gs, htail⟩ := exists_of_reads_digitWithUnits h
  refine ⟨d, t, htext, htail.ne_nil rfl, hd, ?_, gs, htail⟩
  rw [keepDigit, m.groupText_eq one_ne_zero, hgs]
  rfl

/-- Where units are dropped and the text is not shorter, there were none. -/
theorem avoids_digitWithUnits_of_length_le
    (h : text.length ≤ (digitWithUnits.replaceAll keepDigit text).length) :
    Avoids digitWithUnits.Finds text := by
  have hwalk := rewrites_replaceAll (p := digitWithUnits) rfl keepDigit text
  have hshort (x z : List Char) (m : Match) (h : digitWithUnits.Reads x m.text z m.texts) :
      (keepDigit m).length < m.text.length := by
    obtain ⟨d, t, htext, ht, -, hkeep, -⟩ := keepDigit_of_reads h
    rw [htext, hkeep]
    exact Nat.succ_lt_succ (List.length_pos_iff.mpr ht)
  exact hwalk.avoids_of_length_eq rfl hshort (le_antisymm (hwalk.length_le hshort) h)

/-- Where units are dropped the text becomes shorter. -/
theorem progresses_digitWithUnits : Progresses (digitWithUnits.replaceAll keepDigit) where
  nil := replaceAll_nil rfl keepDigit
  of_ne t hne := by
    refine .inl (Nat.lt_of_not_le fun hle => hne ?_)
    exact replaceAll_of_avoids rfl (avoids_digitWithUnits_of_length_le hle)

/-! ### The replacements -/

/-- What holds of a text once units are dropped, and what no later replacement changes. -/
structure Plain (text : List Char) : Prop where
  /-- There are no dashes and no carriage returns. -/
  unified : text.all isUnified = true
  /-- Spaces stand alone. -/
  spaced : SingleSpaced text
  /-- There are no numbers with units. -/
  units : Avoids digitWithUnits.Finds text

/-- No replacement has anything to do in the text. -/
structure Settled (text : List Char) : Prop extends Plain text where
  /-- No margin at the start is set by a phrase. -/
  starts : Avoids (oneMargin "start").Finds text
  /-- No margin at the end is set by a phrase. -/
  ends : Avoids (oneMargin "end").Finds text
  /-- All ranges of rows are spelled in full. -/
  rows : Avoids (rangeOfRows.Alters rangeWords) text

/-- A text in which spaces stand alone is plain once units are dropped. -/
theorem plain_replaceFully_digitWithUnits (hunified : text.all isUnified = true)
    (hspaced : SingleSpaced text) : Plain (replaceFully digitWithUnits keepDigit text) := by
  have hstep (t : List Char) (ht : t.all isUnified = true ∧ SingleSpaced t) :
      (digitWithUnits.replaceAll keepDigit t).all isUnified = true ∧
        SingleSpaced (digitWithUnits.replaceAll keepDigit t) := by
    have hwalk := rewrites_replaceAll (p := digitWithUnits) rfl keepDigit t
    refine ⟨hwalk.all (fun _ _ _ hread hall => ?_) ht.1,
      (SingleSpaced.rewrites (fun _ _ _ hread => ?_) hwalk ht.2).1⟩
    · obtain ⟨d, t, htext, -, -, hkeep, -⟩ := keepDigit_of_reads hread
      rw [htext, List.all_cons, Bool.and_eq_true] at hall
      rw [hkeep, List.all_cons, hall.1]
      rfl
    · obtain ⟨d, t, -, -, hd, hkeep, -⟩ := keepDigit_of_reads hread
      have hn : IsNumber [d] := ⟨List.cons_ne_nil d [], by simpa using hd⟩
      have hspace := hn.ne_space_tab d (List.mem_singleton_self d)
      rw [hkeep]
      refine ⟨.of_forall hn.ne_space_tab, hn.ne_nil, ?_, ?_⟩
      · exact fun h => hspace.1 (Option.some.inj h)
      · exact fun h => hspace.1 (Option.some.inj h)
  obtain ⟨hunified, hspaced⟩ := settle_induction hstep (text.length + 2) ⟨hunified, hspaced⟩
  have hdone := progresses_digitWithUnits.step_settle (Nat.le_add_right text.length 2)
  exact ⟨hunified, hspaced, avoids_digitWithUnits_of_length_le (congrArg List.length hdone).ge⟩

theorem Rewording.plain (hf : Rewording p f) (h : Plain text) : Plain (p.replaceAll f text) where
  unified := hf.all_isUnified h.unified
  spaced := hf.singleSpaced h.spaced
  units := hf.avoids_digitWithUnits h.units

/-- Phrases that set a margin are replaced in one go. -/
theorem Rewording.inOneGo (hf : Rewording p f) (hp : Guarded p.Finds) : InOneGo p f :=
  fun text => replaceAll_of_avoids hf.not_nullable (hf.avoids_finds hp text)

/-- So are spaces and tabs. -/
theorem inOneGo_spacing : InOneGo spacing oneSpace :=
  fun text => replaceAll_spacing (singleSpaced_replaceAll_spacing text)

/-- So are ranges of rows. -/
theorem inOneGo_rangeOfRows : InOneGo rangeOfRows rangeWords :=
  fun text => replaceAll_eq_self rfl (avoids_alters_rangeOfRows text)

/-- The replacements that bring a request into its wording. -/
inductive Stage : Pattern → (Match → List Char) → Prop
  | spacing : Stage spacing oneSpace
  | units : Stage digitWithUnits keepDigit
  | both : Stage twoMargins bothWords
  | one {side : String} (hside : side = "start" ∨ side = "end") :
    Stage (oneMargin side) (oneWords side)
  | rows : Stage rangeOfRows rangeWords

/-- Each of them comes to rest. -/
theorem Stage.progresses (h : Stage p f) : Progresses (p.replaceAll f) := by
  cases h with
  | spacing => exact inOneGo_spacing.progresses rfl
  | units => exact progresses_digitWithUnits
  | both => exact (rewording_twoMargins.inOneGo guarded_twoMargins).progresses rfl
  | one hside =>
    have hone := rewording_oneMargin hside
    exact (hone.inOneGo (guarded_oneMargin hside)).progresses hone.not_nullable
  | rows => exact inOneGo_rangeOfRows.progresses rfl

/-- A replacement is repeated until there is nothing left to replace, and not only as often as is
tried at most. -/
theorem replaceAll_replaceFully (h : Stage p f) (text : List Char) :
    p.replaceAll f (replaceFully p f text) = replaceFully p f text :=
  h.progresses.step_settle (Nat.le_add_right text.length 2)

/-- Each replacement comes to rest on every text: no more passes change the text than it has
characters, the next one changes nothing, and what they leave is what the replacement gives. -/
theorem replaceFully_rests (h : Stage p f) (text : List Char) :
    ∃ n ≤ text.length, RestsAfter (p.replaceAll f) text n ∧
      replaceFully p f text = (p.replaceAll f)^[n] text := by
  obtain ⟨n, hn, hrests⟩ := h.progresses.exists_restsAfter text
  refine ⟨n, hn, hrests, ?_⟩
  rw [replaceFully, settle_eq_iterate, hrests.iterate_eq (hn.trans (Nat.le_add_right _ 2))]

/-- A range of rows comes to rest with a hyphen, and is found again. -/
theorem replaceFully_rests_rows :
    let text := "row 5 to 8, row 1-2".toList
    replaceFully rangeOfRows rangeWords text = "rows 5-8, rows 1-2".toList ∧
      rangeOfRows.occursIn "rows 5-8, rows 1-2".toList = true ∧
      ∃ n ≤ text.length, RestsAfter (rangeOfRows.replaceAll rangeWords) text n ∧
        replaceFully rangeOfRows rangeWords text = (rangeOfRows.replaceAll rangeWords)^[n] text :=
  ⟨by decide +kernel, by decide +kernel, replaceFully_rests .rows _⟩

/-- A text is settled after all replacements. -/
theorem settled_respell (h : text.all isUnified = true) : Settled (respell text) := by
  have hstarts : Rewording (oneMargin "start") (oneWords "start") := rewording_oneMargin (.inl rfl)
  have hends : Rewording (oneMargin "end") (oneWords "end") := rewording_oneMargin (.inr rfl)
  have hstart : Guarded (oneMargin "start").Finds := guarded_oneMargin (.inl rfl)
  have hend : Guarded (oneMargin "end").Finds := guarded_oneMargin (.inr rfl)
  have hspaced : (replaceFully spacing oneSpace text).all isUnified = true := by
    rw [inOneGo_spacing.replaceFully_eq]
    exact (rewrites_replaceAll rfl oneSpace text).all (fun _ _ _ _ _ => rfl) h
  rw [respell]
  generalize hunits : replaceFully digitWithUnits keepDigit (replaceFully spacing oneSpace text) = t
  have hplain : Plain t := by
    rw [← hunits]
    refine plain_replaceFully_digitWithUnits hspaced ?_
    rw [inOneGo_spacing.replaceFully_eq]
    exact singleSpaced_replaceAll_spacing text
  rw [(rewording_twoMargins.inOneGo guarded_twoMargins).replaceFully_eq,
    (hstarts.inOneGo hstart).replaceFully_eq, (hends.inOneGo hend).replaceFully_eq,
    inOneGo_rangeOfRows.replaceFully_eq]
  have hplain := rewording_rangeOfRows.plain (hends.plain (hstarts.plain
    (rewording_twoMargins.plain hplain)))
  exact
    { toPlain := hplain
      starts := rewording_rangeOfRows.avoids_of_guarded hstart
        (hends.avoids_of_guarded hstart (hstarts.avoids_finds hstart _))
      ends := rewording_rangeOfRows.avoids_of_guarded hend (hends.avoids_finds hend _)
      rows := avoids_alters_rangeOfRows _ }

/-- A settled text is left as it is. -/
theorem respell_of_settled (h : Settled text) : respell text = text := by
  have htwo : Avoids twoMargins.Finds text := by
    rintro x w z rfl hfinds
    obtain ⟨u, v, rfl, hfirst⟩ := exists_finds_of_finds_twoMargins hfinds
    exact h.starts x u (v ++ z) (by rw [List.append_assoc]) hfirst
  rw [respell, replaceFully_of_replaceAll (replaceAll_spacing h.spaced),
    replaceFully_of_replaceAll (replaceAll_of_avoids rfl h.units),
    replaceFully_of_replaceAll (replaceAll_of_avoids rfl htwo),
    replaceFully_of_replaceAll (replaceAll_of_avoids rfl h.starts),
    replaceFully_of_replaceAll (replaceAll_of_avoids rfl h.ends),
    replaceFully_of_replaceAll (replaceAll_eq_self rfl h.rows)]

/-! ### Line ends and dashes -/

theorem not_mem_unifyLineEnds (text : List Char) : '\r' ∉ unifyLineEnds text := by
  fun_induction unifyLineEnds text with
  | case1 => exact List.not_mem_nil
  | case2 rest ih => exact List.not_mem_cons_of_ne_of_not_mem (by decide) ih
  | case3 c rest _ ih =>
    refine List.not_mem_cons_of_ne_of_not_mem ?_ ih
    split_ifs with hc
    · decide
    · exact Ne.symm hc

theorem unifyLineEnds_eq_self (h : '\r' ∉ text) : unifyLineEnds text = text := by
  fun_induction unifyLineEnds text with
  | case1 => rfl
  | case2 => exact absurd List.mem_cons_self h
  | case3 c rest _ ih =>
    obtain ⟨hc, hrest⟩ := not_or.mp (mt List.mem_cons.mpr h)
    rw [if_neg (Ne.symm hc), ih hrest]

/-- Line ends and dashes are unified. -/
theorem all_isUnified_unify (text : List Char) :
    ((unifyLineEnds text).map unifyDash).all isUnified = true := by
  rw [List.all_map, List.all_eq_true]
  intro c hc
  rw [Function.comp_apply, unifyDash]
  split_ifs with hdash
  · rfl
  · rw [isUnified, Bool.eq_false_iff.mpr hdash, bne_iff_ne.mpr]
    · rfl
    · exact fun hreturn => not_mem_unifyLineEnds text (hreturn ▸ hc)

/-- Where line ends and dashes are unified, they are left as they are. -/
theorem unify_eq_self (h : text.all isUnified = true) :
    (unifyLineEnds text).map unifyDash = text := by
  have hchars (c : Char) (hc : c ∈ text) : c ≠ '\r' ∧ dashes.contains c = false := by
    have hc := List.all_eq_true.mp h c hc
    rwa [isUnified, Bool.and_eq_true, bne_iff_ne, Bool.not_eq_true'] at hc
  rw [unifyLineEnds_eq_self fun hc => (hchars _ hc).1 rfl]
  refine (List.map_congr_left fun c hc => ?_).trans (List.map_id text)
  rw [unifyDash, (hchars c hc).2]
  rfl

/-! ### Lines -/

/-- The lines of a text that are left in its wording. -/
def tidyLines (text : List Char) : List (List Char) :=
  ((lines text).map tidyLine).filter fun line => !line.isEmpty

/-- The part stands in the text, and no word crosses its ends. -/
def Cut (part text : List Char) : Prop :=
  ∃ u v, text = u ++ (part ++ v) ∧ inWord u.getLast? = false ∧ inWord v.head? = false

theorem inWord_eq_false {c : Option Char} (h : ∀ d, c = some d → isBlank d = true) :
    inWord c = false := by
  cases c with
  | none => rfl
  | some d => exact isWordChar_of_isBlank (h d rfl)

/-- A line of the text is such a part once it is trimmed. -/
theorem cut_trim (htext : '\r' ∉ text) (h : line ∈ lines text) : Cut (trim line) text := by
  obtain ⟨-, u, v, rfl, hu, hv⟩ := exists_append_of_mem_lines htext h
  obtain ⟨s, t, hline, hs, ht⟩ := exists_append_trim line
  have hsplit : u ++ (line ++ v) = u ++ s ++ (trim line ++ (t ++ v)) := by
    conv_lhs => rw [hline]
    simp
  -- In front and behind there are blanks, or the line feeds that end lines.
  refine ⟨u ++ s, t ++ v, hsplit, inWord_eq_false fun c hc => ?_, inWord_eq_false fun c hc => ?_⟩
  · rw [List.getLast?_append, Option.or_eq_some_iff] at hc
    rcases hc with hc | ⟨-, hc⟩
    · exact hs c (List.mem_of_getLast? hc)
    · rw [hu c hc]
      decide
  · rw [List.head?_append, Option.or_eq_some_iff] at hc
    rcases hc with hc | ⟨-, hc⟩
    · exact ht c (List.mem_of_head? hc)
    · rw [hv c hc]
      decide

/-- What holds of the lines of a text that are left in its wording. -/
structure TidyLine (text line : List Char) : Prop where
  /-- There are no empty lines. -/
  ne_nil : line ≠ []
  /-- Lines are trimmed. -/
  trimmed : trim line = line
  /-- Lines hold no line ends. -/
  inLine : ∀ c ∈ line, isInLine c = true
  /-- Lines are cut out of the text. -/
  cut : Cut line text

/-- A part of a text in which spaces stand alone is single spaced as well. -/
theorem Cut.singleSpaced (h : Cut line text) (htext : SingleSpaced text) : SingleSpaced line := by
  obtain ⟨u, v, rfl, -, -⟩ := h
  obtain ⟨-, hrest, -⟩ := htext.of_append
  exact hrest.of_append.1

theorem Plain.not_mem_return (h : Plain text) : '\r' ∉ text :=
  fun hc => Bool.noConfusion (List.all_eq_true.mp h.unified _ hc)

/-- The lines of a plain text that are left in its wording are trimmed. -/
theorem Plain.tidyLine_of_mem (h : Plain text) (hline : line ∈ tidyLines text) :
    TidyLine text line := by
  obtain ⟨hmem, hne⟩ := List.mem_filter.mp hline
  obtain ⟨long, hlong, rfl⟩ := List.mem_map.mp hmem
  have hcut := cut_trim h.not_mem_return hlong
  obtain ⟨hinLine, -⟩ := exists_append_of_mem_lines h.not_mem_return hlong
  rw [tidyLine_eq_trim (hcut.singleSpaced h.spaced)] at hne ⊢
  refine ⟨fun hnil => ?_, trim_trim long, fun c hc => hinLine c ?_, hcut⟩
  · rw [hnil] at hne
    exact Bool.noConfusion hne
  · obtain ⟨s, t, hsplit, -, -⟩ := exists_append_trim long
    rw [hsplit]
    exact List.mem_append_right s (List.mem_append_left t hc)

theorem lines_joinLines {ls : List (List Char)}
    (h : ∀ line ∈ ls, line ≠ [] ∧ ∀ c ∈ line, isInLine c = true) : lines (joinLines ls) = ls := by
  induction ls with
  | nil => rfl
  | cons line ls ih =>
    obtain ⟨⟨hne, hinLine⟩, hrest⟩ := List.forall_mem_cons.mp h
    cases ls with
    | nil =>
      rw [joinLines, List.intercalate_singleton]
      exact lines_of_isInLine hinLine hne
    | cons line' ls =>
      rw [joinLines, List.intercalate_cons_cons, List.append_assoc, List.singleton_append,
        ← joinLines, lines_cons hinLine, ih hrest]

/-! ### Lines that are put together again -/

/-- A kind of parts that stand within a line, and depend on what is around them through the words
there alone. -/
structure InLines (kind : PartKind) : Prop where
  /-- No part is empty. -/
  ne_nil : ∀ {x w z}, kind x w z → w ≠ []
  /-- No part goes on in the next line. -/
  lacks : ∀ {x w z}, kind x w z → '\n' ∉ w
  /-- It only matters whether words come before and behind. -/
  congr : ∀ {x x' w z z'}, inWord x.getLast? = inWord x'.getLast? →
    inWord z.head? = inWord z'.head? → kind x w z → kind x' w z'

theorem inLines_digitWithUnits : InLines digitWithUnits.Finds where
  ne_nil := fun ⟨_, h⟩ => h.ne_nil rfl
  lacks := fun ⟨_, h⟩ => h.not_mem rfl
  congr := fun _ hz h => finds_digitWithUnits_congr h _ hz

theorem Guarded.inLines {kind : PartKind} (h : Guarded kind) : InLines kind where
  ne_nil := fun hpart hw => by
    obtain ⟨c, -, v, hcons, -⟩ := h.starts hpart
    exact List.cons_ne_nil c v (hcons.symm.trans hw)
  lacks := fun hpart => (h.lacks hpart).2.2
  congr := fun hx _ hpart => h.congr hx hpart

theorem inLines_rangeOfRows : InLines (rangeOfRows.Alters rangeWords) where
  ne_nil := fun ⟨_, _, h, _⟩ => h.ne_nil rfl
  lacks := fun ⟨_, _, h, _⟩ => h.not_mem rfl
  congr := fun hx _ h => alters_rangeOfRows_congr h hx _

/-- A part without line feeds stands on one side of each line feed. -/
theorem append_newline_eq {s t : List Char} (hw : w ≠ []) (hfeed : '\n' ∉ w)
    (h : s ++ '\n' :: t = x ++ (w ++ z)) :
    (∃ b, s = x ++ (w ++ b) ∧ z = b ++ '\n' :: t) ∨
      ∃ u, x = s ++ '\n' :: u ∧ t = u ++ (w ++ z) := by
  obtain ⟨c, v, rfl⟩ := List.exists_cons_of_ne_nil hw
  rcases List.append_eq_append_iff.mp h with ⟨u, rfl, hu⟩ | ⟨u, rfl, hu⟩
  · cases u with
    | nil =>
      obtain ⟨rfl, -⟩ := List.cons.inj hu
      exact absurd List.mem_cons_self hfeed
    | cons d u =>
      obtain ⟨rfl, hrest⟩ := List.cons.inj hu
      exact .inr ⟨u, rfl, hrest⟩
  · rcases List.append_eq_append_iff.mp hu with ⟨b, rfl, rfl⟩ | ⟨b, hwb, hb⟩
    · exact .inl ⟨b, rfl, rfl⟩
    · cases b with
      | nil =>
        rw [List.append_nil] at hwb
        exact .inl ⟨[], by rw [hwb, List.append_nil], hb.symm⟩
      | cons d b =>
        obtain ⟨rfl, -⟩ := List.cons.inj hb
        exact absurd (hwb ▸ List.mem_append_right u List.mem_cons_self) hfeed

/-- A part of a text made of lines stands in one of them, if it holds no line feed. -/
theorem exists_line_of_joinLines {ls : List (List Char)} (hw : w ≠ []) (hfeed : '\n' ∉ w)
    (h : joinLines ls = x ++ (w ++ z)) :
    ∃ line ∈ ls, ∃ u a b v, line = a ++ (w ++ b) ∧ x = u ++ a ∧ z = b ++ v ∧
      inWord u.getLast? = false ∧ inWord v.head? = false := by
  have hnewline : inWord (some '\n') = false := by decide
  induction ls generalizing x with
  | nil =>
    have hnil := List.append_eq_nil_iff.mp h.symm
    exact absurd (List.append_eq_nil_iff.mp hnil.2).1 hw
  | cons line ls ih =>
    cases ls with
    | nil =>
      rw [joinLines, List.intercalate_singleton] at h
      exact ⟨line, List.mem_singleton_self line, [], x, z, [], h, rfl, by simp, rfl, rfl⟩
    | cons line' ls =>
      rw [joinLines, List.intercalate_cons_cons, List.append_assoc, List.singleton_append,
        ← joinLines] at h
      rcases append_newline_eq hw hfeed h with ⟨b, hline, hz⟩ | ⟨u, rfl, hrest⟩
      · exact ⟨line, List.mem_cons_self, [], x, b, _, hline, rfl, hz, rfl, hnewline⟩
      · obtain ⟨long, hlong, u, a, b, v, hsplit, rfl, hz, hu, hv⟩ := ih hrest
        refine ⟨long, List.mem_cons_of_mem _ hlong, line ++ '\n' :: u, a, b, v, hsplit,
          by simp, hz, ?_, hv⟩
        rw [List.getLast?_append, List.getLast?_cons]
        cases hlast : u.getLast? with
        | none => exact hnewline
        | some d =>
          rw [hlast] at hu
          exact hu

/-- A text made of lines that are cut out of a text avoids what that text avoids. -/
theorem avoids_joinLines {kind : PartKind} (hkind : InLines kind) (h : Avoids kind text)
    {ls : List (List Char)} (hls : ∀ line ∈ ls, Cut line text) : Avoids kind (joinLines ls) := by
  intro x w z hjoin hpart
  obtain ⟨line, hline, u, a, b, v, rfl, rfl, rfl, hu, hv⟩ :=
    exists_line_of_joinLines (hkind.ne_nil hpart) (hkind.lacks hpart) hjoin
  obtain ⟨u', v', htext, hu', hv'⟩ := hls _ hline
  refine h (u' ++ a) w (b ++ v') (by rw [htext]; simp) (hkind.congr ?_ ?_ hpart)
  · exact getLast?_append_congr (r := fun c d => inWord c = inWord d) (fun _ => rfl)
      (hu.trans hu'.symm) a
  · exact head?_append_congr (r := fun c d => inWord c = inWord d) (fun _ => rfl)
      (hv.trans hv'.symm) b

theorem singleSpaced_joinLines {ls : List (List Char)} (h : ∀ line ∈ ls, SingleSpaced line) :
    SingleSpaced (joinLines ls) := by
  induction ls with
  | nil => exact .of_forall fun c hc => absurd hc List.not_mem_nil
  | cons line ls ih =>
    obtain ⟨hline, hrest⟩ := List.forall_mem_cons.mp h
    cases ls with
    | nil => rwa [joinLines, List.intercalate_singleton]
    | cons line' ls =>
      have hfeed : SingleSpaced ['\n'] := ⟨by decide, .singleton _⟩
      rw [joinLines, List.intercalate_cons_cons, ← joinLines]
      refine (hline.append hfeed fun _ => by decide).append (ih hrest) fun hlast => ?_
      rw [List.getLast?_concat] at hlast
      exact absurd hlast (by decide)

theorem all_isUnified_joinLines {ls : List (List Char)}
    (h : ∀ line ∈ ls, line.all isUnified = true) : (joinLines ls).all isUnified = true := by
  induction ls with
  | nil => rfl
  | cons line ls ih =>
    obtain ⟨hline, hrest⟩ := List.forall_mem_cons.mp h
    cases ls with
    | nil => rwa [joinLines, List.intercalate_singleton]
    | cons line' ls =>
      rw [joinLines, List.intercalate_cons_cons, ← joinLines, List.all_append, List.all_append,
        hline, ih hrest]
      rfl

/-- The lines that are left of a settled text make a settled text. -/
theorem Settled.joinLines (h : Settled text) : Settled (joinLines (tidyLines text)) := by
  have hline {line : List Char} (hmem : line ∈ tidyLines text) : TidyLine text line :=
    h.tidyLine_of_mem hmem
  have hcut : ∀ line ∈ tidyLines text, Cut line text := fun _ hmem => (hline hmem).cut
  exact
    { unified := all_isUnified_joinLines fun line hmem => by
        obtain ⟨u, v, htext, -, -⟩ := hcut line hmem
        have hunified := h.unified
        rw [htext, List.all_append, List.all_append, Bool.and_eq_true, Bool.and_eq_true] at hunified
        exact hunified.2.1
      spaced := singleSpaced_joinLines fun line hmem => (hcut line hmem).singleSpaced h.spaced
      units := avoids_joinLines inLines_digitWithUnits h.units hcut
      starts := avoids_joinLines (guarded_oneMargin (.inl rfl)).inLines h.starts hcut
      ends := avoids_joinLines (guarded_oneMargin (.inr rfl)).inLines h.ends hcut
      rows := avoids_joinLines inLines_rangeOfRows h.rows hcut }

/-- The lines that are left of a settled text are left once more. -/
theorem Settled.tidyLines_joinLines (h : Settled text) :
    tidyLines (Wording.joinLines (tidyLines text)) = tidyLines text := by
  have hline {line : List Char} (hmem : line ∈ tidyLines text) : TidyLine text line :=
    h.tidyLine_of_mem hmem
  rw [tidyLines, lines_joinLines fun line hmem => ⟨(hline hmem).ne_nil, (hline hmem).inLine⟩]
  have htidy : (tidyLines text).map tidyLine = tidyLines text := by
    refine (List.map_congr_left fun line hmem => ?_).trans (List.map_id _)
    have htrim := (hline hmem).trimmed
    rw [tidyLine_eq_trim, htrim]
    · rfl
    · rw [htrim]
      exact (hline hmem).cut.singleSpaced h.spaced
  rw [htidy, List.filter_eq_self]
  intro line hmem
  rw [List.isEmpty_eq_false_iff.mpr (hline hmem).ne_nil]
  rfl

/-! ### The wording of a request -/

theorem normalize_eq (text : List Char) : normalize text =
    joinLines (tidyLines (respell ((unifyLineEnds text).map unifyDash))) :=
  rfl

/-- The wording of a request is its own wording: to normalize it again changes nothing. -/
theorem normalize_normalize (text : List Char) : normalize (normalize text) = normalize text := by
  have hsettled := settled_respell (all_isUnified_unify text)
  rw [normalize_eq text]
  generalize respell ((unifyLineEnds text).map unifyDash) = t at hsettled ⊢
  have hjoined := hsettled.joinLines
  rw [normalize_eq, unify_eq_self hjoined.unified, respell_of_settled hjoined,
    hsettled.tidyLines_joinLines]

end Raceway.Wording
