import Mathlib
import Raceway.Proofs.Request.Wording
/-!
# The numbers of a request

The numbers of a text are its maximal runs of decimal digits. To bring a request into its wording
deletes and puts in other characters only, and something that is no digit always remains between
two numbers. What is deleted behind a number, and nothing is put in its place, are units, and no
digit follows these. So the numbers of a request are the same ones before and after, in the same
order.

## Main definitions

* `Raceway.Wording.numbers`: the maximal runs of digits.
* `Raceway.Wording.SameNumbers`: texts that have the same numbers, whatever is put in front of them.

## Main results

* `Raceway.Wording.Stage.sameNumbers`: each replacement keeps the numbers.
* `Raceway.Wording.numbers_normalize`: bringing a request into its wording keeps them.
-/

namespace Raceway.Wording

open Pattern Text

variable {s t u v x z text line : List Char} {c : Char} {p : Pattern} {f : Match → List Char}
  {m : Match}

/-! ### Runs of digits -/

/-- The maximal runs of decimal digits in a text, from left to right. -/
def numbers (text : List Char) : List (List Char) :=
  (text.splitOnP fun c => !isDecimalDigit c).filter fun run => !run.isEmpty

/-- There are no digits in the text. -/
def DigitFree (text : List Char) : Prop :=
  ∀ c ∈ text, isDecimalDigit c = false

theorem digitFree_of_all (h : s.all (fun c => !isDecimalDigit c) = true) : DigitFree s :=
  fun c hc => (Bool.not_eq_true' _).mp (List.all_eq_true.mp h c hc)

@[simp] theorem numbers_nil : numbers [] = [] :=
  rfl

/-- A character that is no digit separates numbers. -/
theorem numbers_append_cons (hc : isDecimalDigit c = false) (s t : List Char) :
    numbers (s ++ c :: t) = numbers s ++ numbers t := by
  rw [numbers, List.splitOnP_append_cons s t (by rw [hc]; rfl), List.filter_append]
  rfl

/-- So do several ones, which hold no numbers. -/
theorem numbers_skip (hu : DigitFree u) (t : List Char) : numbers (u ++ t) = numbers t := by
  induction u with
  | nil => rfl
  | cons c u ih =>
    obtain ⟨hc, hu⟩ := List.forall_mem_cons.mp hu
    exact (numbers_append_cons hc [] (u ++ t)).trans (ih hu)

theorem numbers_append (hu : DigitFree u) (hne : u ≠ []) (s t : List Char) :
    numbers (s ++ (u ++ t)) = numbers s ++ numbers t := by
  obtain ⟨c, u, rfl⟩ := List.exists_cons_of_ne_nil hne
  obtain ⟨hc, hu⟩ := List.forall_mem_cons.mp hu
  rw [List.cons_append, numbers_append_cons hc, numbers_skip hu]

theorem numbers_append_digitFree (hv : DigitFree v) (s : List Char) :
    numbers (s ++ v) = numbers s := by
  rcases eq_or_ne v [] with rfl | hne
  · rw [List.append_nil]
  · have h := numbers_append hv hne s []
    rwa [List.append_nil, numbers_nil, List.append_nil] at h

/-! ### Texts with the same numbers -/

/-- The texts have the same numbers, whatever is put in front of them. -/
def SameNumbers (s t : List Char) : Prop :=
  ∀ d, numbers (d ++ s) = numbers (d ++ t)

namespace SameNumbers

theorem numbers_eq (h : SameNumbers s t) : numbers s = numbers t :=
  h []

theorem refl (s : List Char) : SameNumbers s s :=
  fun _ => rfl

theorem trans {r : List Char} (h : SameNumbers r s) (h' : SameNumbers s t) : SameNumbers r t :=
  fun d => (h d).trans (h' d)

theorem append_left (u : List Char) (h : SameNumbers s t) : SameNumbers (u ++ s) (u ++ t) := by
  intro d
  rw [← List.append_assoc, ← List.append_assoc]
  exact h (d ++ u)

/-- Something that is no digit in the place of something else that is none. -/
theorem swap (hu : DigitFree u) (hune : u ≠ []) (hv : DigitFree v) (hvne : v ≠ [])
    (h : SameNumbers s t) : SameNumbers (u ++ s) (v ++ t) := by
  intro d
  rw [numbers_append hu hune, numbers_append hv hvne, h.numbers_eq]

/-- Nothing in the place of something that no digit follows. -/
theorem skip (hu : DigitFree u) (hs : ∀ c, s.head? = some c → isDecimalDigit c = false) :
    SameNumbers (u ++ s) s := by
  intro d
  rcases eq_or_ne u [] with rfl | hne
  · rfl
  · rw [numbers_append hu hne]
    cases s with
    | nil => rw [List.append_nil, numbers_nil, List.append_nil]
    | cons c s =>
      have hc := hs c rfl
      rw [numbers_append_cons hc, ← List.nil_append (c :: s), numbers_append_cons hc]
      rfl

end SameNumbers

/-- A walk keeps the numbers, if they are kept in each part that is replaced. -/
theorem sameNumbers_of_rewrites {y out : List Char}
    (hf : ∀ x z m, p.Reads x m.text z m.texts → SameNumbers (m.text ++ z) (f m ++ z))
    (h : p.Rewrites f x y out) : SameNumbers y out := by
  induction h with
  | nil => exact .refl _
  | @plain x y out c _ _ ih => exact ih.append_left [c]
  | @found x y out m _ hread _ ih => exact (hf _ _ _ hread).trans (ih.append_left (f m))

/-! ### Digits in patterns -/

/-- The letters of the words that are replaced. -/
def phraseLetters : List Char :=
  ['a', 'c', 'd', 'e', 'f', 'g', 'h', 'm', 'n', 'o', 'p', 'r', 's', 't', 'u', 'w']

theorem digitFree_phraseLetters : DigitFree (phraseLetters.flatMap orbit) := by
  have hletters : ∀ c ∈ phraseLetters.flatMap orbit, (!isDecimalDigit c) = true :=
    forall_mem_of_longS (by rw [isDecimalDigit_longS]; rfl) (by decide +kernel)
  exact fun c hc => (Bool.not_eq_true' _).mp (hletters c hc)

/-- A word in any letter case has no digits. -/
theorem gathers_anyCase {cs : List Char} (h : cs ⊆ phraseLetters) :
    (anyCase cs).Gathers isDecimalDigit := by
  have hone {c : Char} (hc : c ∈ phraseLetters) :
      (one (.anyCase c)).Gathers isDecimalDigit := fun d hd =>
    digitFree_phraseLetters d (List.mem_flatMap.mpr
      ⟨c, hc, List.contains_iff_mem.mp ((has_anyCase c d).symm.trans hd)⟩)
  induction cs with
  | nil => exact trivial
  | cons c cs ih =>
    obtain ⟨hc, hcs⟩ := List.cons_subset.mp h
    cases cs with
    | nil => exact hone hc
    | cons c' cs => exact And.intro (hone hc) (ih hcs)

theorem gathers_word {s : String} (h : s.toList ⊆ phraseLetters) :
    (word s).Gathers isDecimalDigit :=
  gathers_anyCase h

theorem gathers_ofList {cs : List Char} (h : DigitFree cs) :
    (one (.ofList cs)).Gathers isDecimalDigit := fun c hc =>
  h c (List.contains_iff_mem.mp ((CharClass.has_ofList _ _).symm.trans hc))

theorem gathers_spaceOrTab : spaceOrTab.Gathers isDecimalDigit :=
  gathers_ofList (digitFree_of_all (by decide))

theorem gathers_spacing : spacing.Gathers isDecimalDigit :=
  And.intro gathers_spaceOrTab gathers_spaceOrTab

/-- A number is a group of digits. -/
theorem gathers_keptNumber (index : ℕ) : (keptNumber index).Gathers isDecimalDigit :=
  And.intro rfl fun _ hc => (Bool.or_self _).symm.trans hc

theorem gathers_guardWord : guardWord.Gathers isDecimalDigit :=
  And.intro (gathers_word (by decide)) (gathers_word (by decide))

theorem gathers_margin {side : String} (hside : side = "start" ∨ side = "end") (index : ℕ) :
    (margin side index).Gathers isDecimalDigit := by
  have hword : (word side).Gathers isDecimalDigit := by
    rcases hside with rfl | rfl <;> exact gathers_word (by decide)
  exact And.intro hword (And.intro gathers_spacing (gathers_keptNumber index))

theorem gathers_oneMargin {side : String} (hside : side = "start" ∨ side = "end") :
    (oneMargin side).Gathers isDecimalDigit :=
  And.intro trivial <| And.intro gathers_guardWord <| And.intro gathers_spacing <|
    gathers_margin hside 1

theorem gathers_twoMargins : twoMargins.Gathers isDecimalDigit := by
  have hcomma : (one (.ofList [' ', '\t', ','])).Gathers isDecimalDigit :=
    gathers_ofList (digitFree_of_all (by decide))
  have hand : (word "and").Gathers isDecimalDigit := gathers_word (by decide)
  exact And.intro trivial <| And.intro gathers_guardWord <| And.intro gathers_spacing <|
    And.intro (gathers_margin (.inl rfl) 1) <| And.intro (And.intro hcomma hcomma) <|
    And.intro (And.intro (And.intro hand gathers_spacing) trivial) <|
    And.intro (And.intro (And.intro gathers_guardWord gathers_spacing) trivial) <|
    gathers_margin (.inr rfl) 2

theorem gathers_rangeOfRows : rangeOfRows.Gathers isDecimalDigit := by
  have hchar {c : Char} (hc : isDecimalDigit c = false) : (char c).Gathers isDecimalDigit :=
    fun d hd => by rwa [beq_iff_eq.mp hd]
  have hdot : (char '.').Gathers isDecimalDigit := hchar (by decide)
  have hrows : (seq (word "row") (opt true (word "s"))).Gathers isDecimalDigit :=
    And.intro (gathers_word (by decide)) (And.intro (gathers_word (by decide)) trivial)
  have hrange : rangeWord.Gathers isDecimalDigit :=
    And.intro (gathers_word (by decide)) <| And.intro (gathers_word (by decide)) <|
      And.intro (gathers_word (by decide)) <| And.intro (hchar (by decide)) (And.intro hdot hdot)
  exact And.intro trivial <| And.intro hrows <| And.intro gathers_spacing <|
    And.intro (gathers_keptNumber 1) <| And.intro gathers_spaceOrTab <| And.intro hrange <|
    And.intro gathers_spaceOrTab (gathers_keptNumber 2)

/-! ### What stands between the numbers -/

/-- If two numbers are all digits of a text, there are none in front of them and between them. -/
theorem digitFree_of_filter {n k : List Char} (hn : ∀ c ∈ n, isDecimalDigit c = true)
    (hk : ∀ c ∈ k, isDecimalDigit c = true)
    (h : (u ++ (n ++ (v ++ k))).filter isDecimalDigit = n ++ k) : DigitFree u ∧ DigitFree v := by
  rw [List.filter_append, List.filter_append, List.filter_append, List.filter_eq_self.mpr hn,
    List.filter_eq_self.mpr hk] at h
  have hlength := congrArg List.length h
  simp only [List.length_append] at hlength
  have hnone {w : List Char} (hw : (w.filter isDecimalDigit).length = 0) : DigitFree w := by
    intro c hc
    exact Bool.eq_false_iff.mpr (List.filter_eq_nil_iff.mp (List.eq_nil_of_length_eq_zero hw) c hc)
  exact ⟨hnone (by omega), hnone (by omega)⟩

/-- Something stands in front of the number in a phrase that starts with a guard word. -/
theorem ne_nil_of_guarded {kind : PartKind} (hkind : Guarded kind) {n w : List Char}
    (hn : IsNumber n) (h : kind x (u ++ (n ++ w)) z) : u ≠ [] := by
  rintro rfl
  obtain ⟨c, hc, v, hcons, -⟩ := hkind.starts h
  obtain ⟨d, n, rfl⟩ := List.exists_cons_of_ne_nil hn.ne_nil
  obtain ⟨rfl, -⟩ := List.cons.inj hcons
  have hnot := not_digit_of_mem_guardStarts d hc
  rw [hn.digits d List.mem_cons_self] at hnot
  exact Bool.noConfusion hnot

theorem digitFree_words : DigitFree startWord ∧ DigitFree endWord ∧ DigitFree rowsWord :=
  ⟨digitFree_of_all (by decide), digitFree_of_all (by decide), digitFree_of_all (by decide)⟩

/-! ### The replacements -/

theorem sameNumbers_spacing (h : spacing.Reads x m.text z m.texts) :
    SameNumbers (m.text ++ z) (oneSpace m ++ z) := by
  have hspace : DigitFree [' '] := digitFree_of_all (by decide)
  refine .swap (fun c hc => ?_) (h.ne_nil rfl) hspace (List.cons_ne_nil _ _) (.refl z)
  rcases eq_space_or_tab_of_reads h c hc with rfl | rfl <;> rfl

/-- No digit follows units, so nothing has to remain of them. -/
theorem sameNumbers_digitWithUnits (h : digitWithUnits.Reads x m.text z m.texts) :
    SameNumbers (m.text ++ z) (keepDigit m ++ z) := by
  obtain ⟨d, t, htext, -, -, hkeep, htail⟩ := keepDigit_of_reads h
  obtain ⟨-, -, -, -, hnext⟩ := exists_last_of_finds_unitTail htail
  have hz (c : Char) (hc : z.head? = some c) : isDecimalDigit c = false := by
    refine Bool.eq_false_iff.mpr fun hdigit => ?_
    rw [hc, inWord, Option.any_some, isWordChar_of_isDecimalDigit hdigit] at hnext
    exact Bool.noConfusion hnext
  have ht : DigitFree t := fun c hc =>
    (Bool.not_eq_true' _).mp (not_digit_of_mem_tailChars c (mem_tailChars htail c hc))
  rw [htext, hkeep]
  exact (SameNumbers.skip ht hz).append_left [d]

theorem sameNumbers_oneMargin {side : String} (hside : side = "start" ∨ side = "end")
    (h : (oneMargin side).Reads x m.text z m.texts) :
    SameNumbers (m.text ++ z) (oneWords side m ++ z) := by
  obtain ⟨u, n, htext, hn, hgs, hwords⟩ := oneWords_of_reads h
  have hfilter := h.filter_eq (gathers_oneMargin hside)
  have hfinds : (oneMargin side).Finds x (u ++ (n ++ [])) z :=
    ⟨_, by rwa [List.append_nil, ← htext]⟩
  have hu := ne_nil_of_guarded (guarded_oneMargin hside) hn hfinds
  obtain ⟨hfree, -⟩ := digitFree_of_filter (u := u) (v := []) (k := []) hn.digits
    (List.forall_mem_nil _) (by simpa [htext, hgs] using hfilter)
  obtain ⟨m, hm, hwordsFree, hne⟩ : ∃ m, marginWords side n = m ++ n ∧ DigitFree m ∧ m ≠ [] := by
    obtain ⟨hstart, hend, -⟩ := digitFree_words
    rcases hside with rfl | rfl
    · exact ⟨startWord, rfl, hstart, List.cons_ne_nil _ _⟩
    · exact ⟨endWord, rfl, hend, List.cons_ne_nil _ _⟩
  rw [htext, hwords, hm, List.append_assoc, List.append_assoc]
  exact .swap hfree hu hwordsFree hne (.refl (n ++ z))

theorem sameNumbers_twoMargins (h : twoMargins.Reads x m.text z m.texts) :
    SameNumbers (m.text ++ z) (bothWords m ++ z) := by
  obtain ⟨u, n, c, v, k, htext, -, hn, hk, hgs, hwords⟩ := bothWords_of_reads h
  have hfilter := h.filter_eq gathers_twoMargins
  rw [htext] at h
  have hu := ne_nil_of_guarded guarded_twoMargins hn ⟨_, h⟩
  obtain ⟨hfree, hfree'⟩ := digitFree_of_filter (u := u) (v := c :: v) hn.digits hk.digits
    (by simpa [htext, hgs] using hfilter)
  obtain ⟨hstart, hend, -⟩ := digitFree_words
  have hend : DigitFree (' ' :: endWord) := List.forall_mem_cons.mpr ⟨by decide, hend⟩
  have hrest : SameNumbers (c :: v ++ (k ++ z)) (' ' :: endWord ++ (k ++ z)) :=
    .swap hfree' (List.cons_ne_nil _ _) hend (List.cons_ne_nil _ _) (.refl (k ++ z))
  rw [htext, hwords]
  simpa using SameNumbers.swap hfree hu hstart (List.cons_ne_nil _ _) (hrest.append_left n)

theorem sameNumbers_rangeOfRows (h : rangeOfRows.Reads x m.text z m.texts) :
    SameNumbers (m.text ++ z) (rangeWords m ++ z) := by
  obtain ⟨n, k, hrange, hgs, hwords⟩ := rangeWords_of_reads h
  have hfilter := h.filter_eq gathers_rangeOfRows
  obtain ⟨hn, hk⟩ := hrange.numbers
  obtain ⟨u, v, htext, hu, hv⟩ : ∃ u v, m.text = u ++ (n ++ (v ++ k)) ∧ u ≠ [] ∧ v ≠ [] := by
    generalize m.text = w at hrange
    cases hrange with
    | @mk r s t n t₁ m t₂ k hr hs ht _ _ hm _ =>
      have hne : m ≠ [] := by
        rcases hm with rfl | ⟨c, -, v, rfl⟩ <;> exact List.cons_ne_nil _ _
      exact ⟨r ++ (s ++ t), t₁ ++ (m ++ t₂), by simp, by simp [ht], by simp [hne]⟩
  obtain ⟨hfree, hfree'⟩ := digitFree_of_filter (u := u) (v := v) hn.digits hk.digits
    (by simpa [htext, hgs] using hfilter)
  obtain ⟨-, -, hrows⟩ := digitFree_words
  have hrest : SameNumbers (v ++ (k ++ z)) (['-'] ++ (k ++ z)) :=
    .swap hfree' hv (digitFree_of_all (by decide)) (List.cons_ne_nil _ _) (.refl (k ++ z))
  rw [htext, hwords]
  simpa using SameNumbers.swap hfree hu hrows (List.cons_ne_nil _ _) (hrest.append_left n)

/-- Each replacement keeps the numbers. -/
theorem Stage.sameNumbers (h : Stage p f) (text : List Char) :
    SameNumbers text (replaceFully p f text) := by
  have hp : p.nullable = false ∧
      ∀ x z m, p.Reads x m.text z m.texts → SameNumbers (m.text ++ z) (f m ++ z) := by
    cases h with
    | spacing => exact ⟨rfl, fun _ _ _ => sameNumbers_spacing⟩
    | units => exact ⟨rfl, fun _ _ _ => sameNumbers_digitWithUnits⟩
    | both => exact ⟨rfl, fun _ _ _ => sameNumbers_twoMargins⟩
    | one hside =>
      exact ⟨(rewording_oneMargin hside).not_nullable, fun _ _ _ => sameNumbers_oneMargin hside⟩
    | rows => exact ⟨rfl, fun _ _ _ => sameNumbers_rangeOfRows⟩
  exact settle_induction (motive := SameNumbers text) (fun t ht =>
    ht.trans (sameNumbers_of_rewrites hp.2 (rewrites_replaceAll hp.1 f t))) _ (.refl text)

theorem sameNumbers_respell (text : List Char) : SameNumbers text (respell text) :=
  (Stage.spacing.sameNumbers _).trans <| (Stage.units.sameNumbers _).trans <|
    (Stage.both.sameNumbers _).trans <| ((Stage.one (.inl rfl)).sameNumbers _).trans <|
    ((Stage.one (.inr rfl)).sameNumbers _).trans (Stage.rows.sameNumbers _)

/-! ### Line ends and dashes -/

theorem sameNumbers_unifyLineEnds (text : List Char) : SameNumbers text (unifyLineEnds text) := by
  have hfeed : DigitFree ['\n'] := digitFree_of_all (by decide)
  fun_induction unifyLineEnds text with
  | case1 => exact .refl []
  | case2 rest ih =>
    exact .swap (u := ['\r', '\n']) (digitFree_of_all (by decide)) (List.cons_ne_nil _ _) hfeed
      (List.cons_ne_nil _ _) ih
  | case3 c rest _ ih =>
    split_ifs with hc
    · subst hc
      exact .swap (u := ['\r']) (digitFree_of_all (by decide)) (List.cons_ne_nil _ _) hfeed
        (List.cons_ne_nil _ _) ih
    · exact ih.append_left [c]

/-- No dash is a digit. -/
theorem digitFree_dashes : DigitFree dashes := by
  have hcodes : ∀ c ∈ dashes, c.toNat ∈ foreignDashes := by simp [dashes, foreignDashes]
  exact fun c hc => isDecimalDigit_of_mem_foreignDashes (hcodes c hc)

theorem sameNumbers_map_unifyDash (text : List Char) : SameNumbers text (text.map unifyDash) := by
  induction text with
  | nil => exact .refl []
  | cons c text ih =>
    rw [List.map_cons, unifyDash]
    split_ifs with hc
    · have hdash := digitFree_dashes c (List.contains_iff_mem.mp hc)
      exact .swap (u := [c]) (List.forall_mem_singleton.mpr hdash) (List.cons_ne_nil _ _)
        (v := ['-']) (digitFree_of_all (by decide)) (List.cons_ne_nil _ _) ih
    · exact ih.append_left [c]

/-! ### Lines -/

theorem digitFree_of_isBlank (h : ∀ c ∈ s, isBlank c = true) : DigitFree s := by
  refine fun c hc => Bool.eq_false_iff.mpr fun hdigit => ?_
  have hword := isWordChar_of_isBlank (h c hc)
  rw [isWordChar_of_isDecimalDigit hdigit] at hword
  exact Bool.noConfusion hword

/-- A line keeps its numbers when the blanks around it are dropped and one space is put for spaces
and tabs. -/
theorem numbers_tidyLine (line : List Char) : numbers (tidyLine line) = numbers line := by
  obtain ⟨u, v, hline, hu, hv⟩ := exists_append_trim line
  have hwalk := sameNumbers_of_rewrites (fun _ _ _ => sameNumbers_spacing)
    (rewrites_replaceAll (p := spacing) rfl oneSpace (trim line))
  calc numbers (tidyLine line) = numbers (trim line) := hwalk.numbers_eq.symm
    _ = numbers (trim line ++ v) := (numbers_append_digitFree (digitFree_of_isBlank hv) _).symm
    _ = numbers (u ++ (trim line ++ v)) := (numbers_skip (digitFree_of_isBlank hu) _).symm
    _ = numbers line := by rw [← hline]

/-- The numbers of a text are those of its lines. -/
theorem numbers_eq_flatMap_lines (h : '\r' ∉ text) :
    numbers text = (lines text).flatMap numbers := by
  have hfeeds := inFeeds_of_not_mem h
  clear h
  induction hfeeds with
  | nil => rfl
  | last hline hne => rw [lines_of_isInLine hline hne, List.flatMap_singleton]
  | cons hline _ ih =>
    rw [lines_cons hline, List.flatMap_cons, ← ih, numbers_append_cons (by decide)]

theorem numbers_joinLines (ls : List (List Char)) :
    numbers (joinLines ls) = ls.flatMap numbers := by
  induction ls with
  | nil => rfl
  | cons line ls ih =>
    cases ls with
    | nil => rw [joinLines, List.intercalate_singleton, List.flatMap_singleton]
    | cons line' ls =>
      rw [joinLines, List.intercalate_cons_cons, List.append_assoc, List.singleton_append,
        ← joinLines, numbers_append_cons (by decide), ih]
      rfl

theorem flatMap_numbers_tidyLines (text : List Char) :
    (tidyLines text).flatMap numbers = (lines text).flatMap numbers := by
  rw [tidyLines]
  induction lines text with
  | nil => rfl
  | cons line ls ih =>
    rw [List.map_cons, List.filter_cons, List.flatMap_cons, ← numbers_tidyLine line, ← ih]
    split_ifs with hline
    · rw [List.flatMap_cons]
    · -- A line that is dropped has no numbers.
      have hnil : tidyLine line = [] := by simpa using hline
      rw [hnil]
      rfl

/-! ### The wording of a request -/

/-- The wording of a request has the same numbers as the request, in the same order. -/
theorem numbers_normalize (text : List Char) : numbers (normalize text) = numbers text := by
  have hreturn := (settled_respell (all_isUnified_unify text)).not_mem_return
  have hunified : SameNumbers text ((unifyLineEnds text).map unifyDash) :=
    (sameNumbers_unifyLineEnds text).trans (sameNumbers_map_unifyDash _)
  rw [normalize_eq, numbers_joinLines, flatMap_numbers_tidyLines,
    ← numbers_eq_flatMap_lines hreturn]
  exact (hunified.trans (sameNumbers_respell _)).numbers_eq.symm

end Raceway.Wording
