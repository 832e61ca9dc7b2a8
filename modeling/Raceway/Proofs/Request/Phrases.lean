import Mathlib
import Raceway.Proofs.Pattern.Alignment
import Raceway.Proofs.Text.Category
import Raceway.Request.Wording
/-!
# The phrases of a request

What the patterns for the wording of a request read, taken apart. A phrase that sets a margin starts
with a guard word and ends with the number of rows. A range of rows is the word for rows and two
numbers with something between them. A number with units is a digit with units behind it, and no
word goes on directly behind these.

## Main definitions

* `Raceway.Wording.IsNumber`: a sequence of digits.
* `Raceway.Wording.IsRange`: a range of rows, and its two numbers.

## Main results

* `Raceway.Wording.exists_of_reads_oneMargin`, `Raceway.Wording.exists_of_reads_twoMargins`: the
  numbers of a phrase that sets margins.
* `Raceway.Wording.isRange_of_reads`: the numbers of a range of rows.
* `Raceway.Wording.exists_of_reads_digitWithUnits`: the digit in front of units.
-/

namespace Raceway.Wording

open Pattern Text

variable {x w z : List Char} {gs : List (ℕ × List Char)}

/-! ### Characters -/

/-- The character belongs to a word, where there is one. -/
def inWord (c : Option Char) : Bool :=
  c.any isWordChar

/-- A sequence of digits. -/
structure IsNumber (n : List Char) : Prop where
  /-- There is one. -/
  ne_nil : n ≠ []
  /-- All of them are digits. -/
  digits : ∀ c ∈ n, isDecimalDigit c = true

/-- A property of characters that the long s has can be decided on the other ones alone, without a
look into the tables. -/
theorem forall_mem_of_longS {p : Char → Bool} (hp : p 'ſ' = true) {cs : List Char}
    (hcs : (cs.filter (· != 'ſ')).all p = true) : ∀ c ∈ cs, p c = true := by
  intro c hc
  rcases eq_or_ne c 'ſ' with rfl | hne
  · exact hp
  · exact List.all_eq_true.mp hcs c (List.mem_filter.mpr ⟨hc, bne_iff_ne.mpr hne⟩)

theorem has_anyCase (c d : Char) : (CharClass.anyCase c).has d = (orbit c).contains d :=
  CharClass.has_ofList _ _

/-! ### Words, spaces and numbers -/

theorem isNumber_of_reads {x : List Char} (h : (plus true digit).Reads x w z gs) : IsNumber w :=
  ⟨h.ne_nil rfl, fun c hc => (Bool.or_self _).symm.trans (h.mentions c hc)⟩

theorem isNumber_of_reads_keptNumber {index : ℕ} (h : (keptNumber index).Reads x w z gs) :
    IsNumber w ∧ gs = [(index, w)] := by
  cases h with
  | group h => exact ⟨isNumber_of_reads h, by rw [h.groups_eq_nil rfl]⟩

theorem has_spaceOrTab (c : Char) :
    (CharClass.ofList [' ', '\t']).has c = true ↔ c = ' ' ∨ c = '\t' := by
  rw [CharClass.has_ofList]
  simp

/-- What is read as spaces and tabs consists of them. -/
theorem eq_space_or_tab_of_reads (h : spacing.Reads x w z gs) : ∀ c ∈ w, c = ' ' ∨ c = '\t' :=
  fun c hc => (has_spaceOrTab c).mp ((Bool.or_self _).symm.trans (h.mentions c hc))

/-- What is read as a word spells it, up to letter case. -/
theorem forall₂_of_reads_anyCase {cs : List Char} (h : (anyCase cs).Reads x w z gs) :
    List.Forall₂ (fun c d => d ∈ orbit c) cs w := by
  have hone {x w z : List Char} {gs : List (ℕ × List Char)} {c : Char}
      (h : (one (.anyCase c)).Reads x w z gs) : ∃ d ∈ orbit c, w = [d] := by
    cases h with
    | one hc => exact ⟨_, List.contains_iff_mem.mp ((has_anyCase _ _).symm.trans hc), rfl⟩
  rw [anyCase] at h
  induction cs generalizing x w gs with
  | nil =>
    cases h
    exact .nil
  | cons c cs ih =>
    cases cs with
    | nil =>
      obtain ⟨d, hd, rfl⟩ := hone h
      exact .cons hd .nil
    | cons c' cs =>
      obtain ⟨u, v, hs, hs', rfl, -, hfirst, hrest⟩ := Reads.exists_of_seq h
      obtain ⟨d, hd, rfl⟩ := hone hfirst
      exact .cons hd (ih hrest)

/-- A word starts with its first letter. -/
theorem exists_head_of_reads_word {s : String} {c : Char} {cs : List Char}
    (h : (word s).Reads x w z gs) (hs : s.toList = c :: cs) : ∃ d ∈ orbit c, ∃ v, w = d :: v := by
  have hletters := forall₂_of_reads_anyCase h
  rw [hs] at hletters
  cases hletters with
  | cons hd _ => exact ⟨_, hd, _, rfl⟩

/-! ### Edges -/

/-- What an edge needs of the characters around it. -/
theorem edge_iff : edge.Reads x w z gs ↔
    w = [] ∧ gs = [] ∧ inWord x.getLast? ≠ inWord z.head? := by
  constructor
  · intro h
    cases h with
    | assert h => exact ⟨rfl, rfl, bne_iff_ne.mp h⟩
  · rintro ⟨rfl, rfl, h⟩
    exact .assert (bne_iff_ne.mpr h)

/-- A pattern whose only condition is an edge in front depends on what comes before through that
edge, and not on what comes behind. -/
theorem reads_edge_congr {p : Pattern} (hassertions : p.assertions = [])
    (hnullable : p.nullable = false) (h : (seq edge p).Reads x w z gs) {x' : List Char}
    (hx : inWord x.getLast? = inWord x'.getLast?) (z' : List Char) :
    (seq edge p).Reads x' w z' gs := by
  obtain ⟨u, v, hs, hs', rfl, rfl, hedge, hrest⟩ := h.exists_of_seq
  obtain ⟨rfl, rfl, hne⟩ := edge_iff.mp hedge
  obtain ⟨c, v, rfl⟩ := List.exists_cons_of_ne_nil (hrest.ne_nil hnullable)
  refine .seq (edge_iff.mpr ⟨rfl, rfl, ?_⟩) (hrest.of_assertions_eq_nil hassertions _ _)
  rwa [← hx]

/-! ### Margins -/

theorem ungrouped_anyCase (cs : List Char) : (anyCase cs).ungrouped = true := by
  induction cs with
  | nil => rfl
  | cons c cs ih =>
    cases cs with
    | nil => rfl
    | cons c' cs => exact ih

/-- A margin ends with its number. -/
theorem exists_of_reads_margin {side : String} {index : ℕ}
    (h : (margin side index).Reads x w z gs) :
    ∃ u n, w = u ++ n ∧ IsNumber n ∧ gs = [(index, n)] := by
  obtain ⟨u, v, hs, hs', rfl, rfl, hword, hrest⟩ := Reads.exists_of_seq h
  obtain ⟨u', n, hs₁, hs₂, rfl, rfl, hspacing, hnumber⟩ := Reads.exists_of_seq hrest
  obtain ⟨hn, rfl⟩ := isNumber_of_reads_keptNumber hnumber
  refine ⟨u ++ u', n, (List.append_assoc u u' n).symm, hn, ?_⟩
  rw [hword.groups_eq_nil (ungrouped_anyCase _), hspacing.groups_eq_nil rfl]
  rfl

/-- The characters that a guard word starts with. -/
def guardStarts : List Char :=
  ['p', 'P', 'S', 's', 'ſ']

/-- A guard word starts with one of its letters. -/
theorem exists_head_of_reads_guardWord (h : guardWord.Reads x w z gs) :
    ∃ c ∈ guardStarts, ∃ v, w = c :: v := by
  cases h with
  | altLeft h =>
    obtain ⟨c, hc, v, rfl⟩ := exists_head_of_reads_word h (s := "protect") rfl
    exact ⟨c, List.mem_append_left ['S', 's', 'ſ'] hc, v, rfl⟩
  | altRight h =>
    obtain ⟨c, hc, v, rfl⟩ := exists_head_of_reads_word h (s := "safe") rfl
    exact ⟨c, List.mem_append_right ['p', 'P'] hc, v, rfl⟩

theorem isWordChar_of_mem_guardStarts : ∀ c ∈ guardStarts, isWordChar c = true :=
  forall_mem_of_longS isWordChar_longS (by decide +kernel)

theorem not_digit_of_mem_guardStarts : ∀ c ∈ guardStarts, (!isDecimalDigit c) = true :=
  forall_mem_of_longS (by rw [isDecimalDigit_longS]; rfl) (by decide +kernel)

/-- A phrase that sets a margin ends with its number. -/
theorem exists_of_reads_oneMargin {side : String} (h : (oneMargin side).Reads x w z gs) :
    ∃ u n, w = u ++ n ∧ IsNumber n ∧ gs = [(1, n)] := by
  obtain ⟨u₁, v₁, hs₁, hs₁', rfl, rfl, hedge, h₁⟩ := Reads.exists_of_seq h
  obtain ⟨u₂, v₂, hs₂, hs₂', rfl, rfl, hguard, h₂⟩ := Reads.exists_of_seq h₁
  obtain ⟨u₃, v₃, hs₃, hs₃', rfl, rfl, hspacing, h₃⟩ := Reads.exists_of_seq h₂
  obtain ⟨u, n, rfl, hn, rfl⟩ := exists_of_reads_margin h₃
  refine ⟨u₁ ++ (u₂ ++ (u₃ ++ u)), n, by simp, hn, ?_⟩
  rw [hedge.groups_eq_nil rfl, hguard.groups_eq_nil rfl, hspacing.groups_eq_nil rfl]
  rfl

/-- Phrases like those that set a margin. They start at an edge with a letter of a guard word, end
with a digit, and depend on what is around them through the edge alone. -/
structure Guarded (kind : PartKind) : Prop where
  /-- They start with a letter of a guard word, and no word goes on into them. -/
  starts : ∀ {x w z}, kind x w z → ∃ c ∈ guardStarts, ∃ v, w = c :: v ∧ inWord x.getLast? = false
  /-- They end with a digit. -/
  ends : ∀ {x w z}, kind x w z → ∃ u d, w = u ++ [d] ∧ isDecimalDigit d = true
  /-- They lack some characters. -/
  lacks : ∀ {x w z}, kind x w z → 'm' ∉ w ∧ 'w' ∉ w ∧ '\n' ∉ w
  /-- They depend on what comes before through the edge, and not on what comes behind. -/
  congr : ∀ {x x' w z z'}, inWord x.getLast? = inWord x'.getLast? → kind x w z → kind x' w z'

/-- A phrase that starts with a guard word and ends with a number is such a phrase, if it lacks the
characters and needs no more edges. -/
theorem guarded_finds {p : Pattern} (hends : ∀ {x w z gs},
      (seq edge (seq guardWord p)).Reads x w z gs → ∃ u n, w = u ++ n ∧ IsNumber n)
    (hlacks : ['m', 'w', '\n'].all (fun c => !(seq guardWord p).mentions c) = true)
    (hassertions : p.assertions = []) : Guarded (seq edge (seq guardWord p)).Finds where
  starts := by
    rintro x w z ⟨gs, h⟩
    obtain ⟨u₁, v₁, hs₁, hs₁', rfl, rfl, hedge, h⟩ := Reads.exists_of_seq h
    obtain ⟨u₂, v₂, hs₂, hs₂', rfl, rfl, hguard, h⟩ := Reads.exists_of_seq h
    obtain ⟨c, hc, v, rfl⟩ := exists_head_of_reads_guardWord hguard
    obtain ⟨rfl, -, hne⟩ := edge_iff.mp hedge
    have hnext : inWord ((c :: v ++ v₂) ++ z).head? = true :=
      isWordChar_of_mem_guardStarts c hc
    rw [hnext] at hne
    exact ⟨c, hc, v ++ v₂, rfl, Bool.eq_false_iff.mpr hne⟩
  ends := by
    rintro x w z ⟨gs, h⟩
    obtain ⟨u, n, rfl, hn⟩ := hends h
    obtain ⟨n, d, rfl⟩ := (List.eq_nil_or_concat n).resolve_left hn.ne_nil
    exact ⟨u ++ n, d, by simp, hn.digits d (by simp)⟩
  lacks := by
    rintro x w z ⟨gs, h⟩
    simp only [List.all_cons, List.all_nil, Bool.and_true, Bool.and_eq_true,
      Bool.not_eq_true'] at hlacks
    exact ⟨h.not_mem hlacks.1, h.not_mem hlacks.2.1, h.not_mem hlacks.2.2⟩
  congr := by
    rintro x x' w z z' hx ⟨gs, h⟩
    exact ⟨gs, reads_edge_congr (p := seq guardWord p) hassertions rfl h hx z'⟩

/-- The phrases that set one margin are such phrases. -/
theorem guarded_oneMargin {side : String} (hside : side = "start" ∨ side = "end") :
    Guarded (oneMargin side).Finds := by
  have hends {x w z gs} (h : (oneMargin side).Reads x w z gs) : ∃ u n, w = u ++ n ∧ IsNumber n := by
    obtain ⟨u, n, hw, hn, -⟩ := exists_of_reads_oneMargin h
    exact ⟨u, n, hw, hn⟩
  rcases hside with rfl | rfl
  · exact guarded_finds hends rfl rfl
  · exact guarded_finds hends rfl rfl

/-- A phrase that sets both margins ends with the number for the end, and the other number stands
in front of a space, a tab or a comma. -/
theorem exists_of_reads_twoMargins (h : twoMargins.Reads x w z gs) :
    ∃ u n c v k, w = u ++ (n ++ (c :: v ++ k)) ∧ c ∈ [' ', '\t', ','] ∧ IsNumber n ∧ IsNumber k ∧
      gs = [(2, k), (1, n)] := by
  obtain ⟨u₁, v₁, hs₁, hs₁', rfl, rfl, hedge, h₁⟩ := Reads.exists_of_seq h
  obtain ⟨u₂, v₂, hs₂, hs₂', rfl, rfl, hguard, h₂⟩ := Reads.exists_of_seq h₁
  obtain ⟨u₃, v₃, hs₃, hs₃', rfl, rfl, hspacing, h₃⟩ := Reads.exists_of_seq h₂
  obtain ⟨u₄, v₄, hs₄, hs₄', rfl, rfl, hmargin, h₄⟩ := Reads.exists_of_seq h₃
  obtain ⟨u₅, v₅, hs₅, hs₅', rfl, rfl, hcomma, h₅⟩ := Reads.exists_of_seq h₄
  obtain ⟨u₆, v₆, hs₆, hs₆', rfl, rfl, hand, h₆⟩ := Reads.exists_of_seq h₅
  obtain ⟨u₇, v₇, hs₇, hs₇', rfl, rfl, hagain, h₇⟩ := Reads.exists_of_seq h₆
  obtain ⟨u, n, rfl, hn, rfl⟩ := exists_of_reads_margin hmargin
  obtain ⟨v, k, rfl, hk, rfl⟩ := exists_of_reads_margin h₇
  obtain ⟨c, v', rfl⟩ := List.exists_cons_of_ne_nil (hcomma.ne_nil rfl)
  have hc : c ∈ [' ', '\t', ','] := by
    have hc := hcomma.mentions c List.mem_cons_self
    exact List.contains_iff_mem.mp
      ((CharClass.has_ofList _ _).symm.trans ((Bool.or_self _).symm.trans hc))
  refine ⟨u₁ ++ (u₂ ++ (u₃ ++ u)), n, c, v' ++ (u₆ ++ (u₇ ++ v)), k, by simp, hc, hn, hk, ?_⟩
  rw [hedge.groups_eq_nil rfl, hguard.groups_eq_nil rfl, hspacing.groups_eq_nil rfl,
    hcomma.groups_eq_nil rfl, hand.groups_eq_nil rfl, hagain.groups_eq_nil rfl]
  rfl

/-- The phrases that set both margins are such phrases, too. -/
theorem guarded_twoMargins : Guarded twoMargins.Finds := by
  refine guarded_finds (fun h => ?_) rfl rfl
  obtain ⟨u, n, c, v, k, hw, -, -, hk, -⟩ := exists_of_reads_twoMargins h
  exact ⟨u ++ (n ++ (c :: v)), k, by simp [hw], hk⟩

/-- A phrase that sets both margins starts with one that sets the margin at the start. -/
theorem exists_finds_of_finds_twoMargins (h : twoMargins.Finds x w z) :
    ∃ u v, w = u ++ v ∧ (oneMargin "start").Finds x u (v ++ z) := by
  obtain ⟨gs, h⟩ := h
  obtain ⟨u₁, v₁, hs₁, hs₁', rfl, rfl, hedge, h₁⟩ := Reads.exists_of_seq h
  obtain ⟨u₂, v₂, hs₂, hs₂', rfl, rfl, hguard, h₂⟩ := Reads.exists_of_seq h₁
  obtain ⟨u₃, v₃, hs₃, hs₃', rfl, rfl, hspacing, h₃⟩ := Reads.exists_of_seq h₂
  obtain ⟨u₄, v₄, hs₄, hs₄', rfl, rfl, hmargin, h₄⟩ := Reads.exists_of_seq h₃
  have hspacing' : spacing.Reads (x ++ u₁ ++ u₂) u₃ (u₄ ++ (v₄ ++ z)) hs₃ := by
    simpa using hspacing
  have hguard' : guardWord.Reads (x ++ u₁) u₂ (u₃ ++ u₄ ++ (v₄ ++ z)) hs₂ := by
    simpa using hguard
  have hedge' : edge.Reads x u₁ (u₂ ++ (u₃ ++ u₄) ++ (v₄ ++ z)) hs₁ := by
    simpa using hedge
  exact ⟨_, v₄, by simp, _, .seq hedge' (.seq hguard' (.seq hspacing' hmargin))⟩

/-! ### Ranges -/

/-- What stands between the numbers of a range. -/
def IsRangeWord (w : List Char) : Prop :=
  w = ['-'] ∨ ∃ c ∈ ['t', 'T', '.'], ∃ v, w = c :: v

/-- A range of rows, and its two numbers. -/
inductive IsRange : List Char → List Char → List Char → Prop
  | mk {r s t n t₁ m t₂ k : List Char}
    (hr : List.Forall₂ (fun c d => d ∈ orbit c) ['r', 'o', 'w'] r)
    (hs : s = [] ∨ ∃ c ∈ orbit 's', s = [c]) (ht : t ≠ [])
    (hspaces : ∀ c ∈ t ++ (t₁ ++ t₂), c = ' ' ∨ c = '\t') (hn : IsNumber n)
    (hm : IsRangeWord m) (hk : IsNumber k) :
    IsRange (r ++ (s ++ (t ++ (n ++ (t₁ ++ (m ++ (t₂ ++ k))))))) n k

theorem isRangeWord_of_reads (h : rangeWord.Reads x w z gs) : IsRangeWord w := by
  have hword {s : String} {cs : List Char} {x w z : List Char} {gs : List (ℕ × List Char)}
      (h : (word s).Reads x w z gs) (hs : s.toList = 't' :: cs) : IsRangeWord w := by
    obtain ⟨c, hc, v, rfl⟩ := exists_head_of_reads_word h hs
    exact .inr ⟨c, List.mem_append_left ['.'] hc, v, rfl⟩
  cases h with
  | altLeft h => exact hword h rfl
  | altRight h =>
    cases h with
    | altLeft h => exact hword h rfl
    | altRight h =>
      cases h with
      | altLeft h => exact hword h rfl
      | altRight h =>
        cases h with
        | altLeft h =>
          cases h with
          | one hc => exact .inl (congrArg ([·]) (beq_iff_eq.mp hc))
        | altRight h =>
          obtain ⟨u, v, hs, hs', rfl, -, hdot, -⟩ := Reads.exists_of_seq h
          cases hdot with
          | one hc => exact .inr ⟨_, by rw [beq_iff_eq.mp hc]; decide, v, rfl⟩

/-- What the pattern for ranges of rows reads is a range, and its groups are the numbers. -/
theorem isRange_of_reads (h : rangeOfRows.Reads x w z gs) :
    ∃ n k, IsRange w n k ∧ gs = [(2, k), (1, n)] := by
  obtain ⟨u₁, v₁, hs₁, hs₁', rfl, rfl, hedge, h₁⟩ := Reads.exists_of_seq h
  obtain ⟨u₂, v₂, hs₂, hs₂', rfl, rfl, hrows, h₂⟩ := Reads.exists_of_seq h₁
  obtain ⟨t, v₃, hs₃, hs₃', rfl, rfl, hspacing, h₃⟩ := Reads.exists_of_seq h₂
  obtain ⟨n, v₄, hs₄, hs₄', rfl, rfl, hkept₁, h₄⟩ := Reads.exists_of_seq h₃
  obtain ⟨t₁, v₅, hs₅, hs₅', rfl, rfl, hspace₁, h₅⟩ := Reads.exists_of_seq h₄
  obtain ⟨m, v₆, hs₆, hs₆', rfl, rfl, hm, h₆⟩ := Reads.exists_of_seq h₅
  obtain ⟨t₂, k, hs₇, hs₇', rfl, rfl, hspace₂, hkept₂⟩ := Reads.exists_of_seq h₆
  obtain ⟨r, s, hs₈, hs₈', rfl, rfl, hrow, hs⟩ := Reads.exists_of_seq hrows
  obtain ⟨rfl, -, -⟩ := edge_iff.mp hedge
  obtain ⟨hn, rfl⟩ := isNumber_of_reads_keptNumber hkept₁
  obtain ⟨hk, rfl⟩ := isNumber_of_reads_keptNumber hkept₂
  refine ⟨n, k, ?_, ?_⟩
  · rw [List.nil_append, List.append_assoc]
    refine .mk (forall₂_of_reads_anyCase hrow) ?_ (hspacing.ne_nil rfl) ?_ hn
      (isRangeWord_of_reads hm) hk
    · cases hs with
      | altLeft h =>
        cases h with
        | one hc =>
          exact .inr ⟨_, List.contains_iff_mem.mp ((has_anyCase _ _).symm.trans hc), rfl⟩
      | altRight h =>
        cases h
        exact .inl rfl
    · intro c hc
      rcases List.mem_append.mp hc with hc | hc
      · exact eq_space_or_tab_of_reads hspacing c hc
      · rcases List.mem_append.mp hc with hc | hc
        · exact (has_spaceOrTab c).mp (hspace₁.mentions c hc)
        · exact (has_spaceOrTab c).mp (hspace₂.mentions c hc)
  · rw [hedge.groups_eq_nil rfl, hrow.groups_eq_nil rfl, hs.groups_eq_nil rfl,
      hspacing.groups_eq_nil rfl, hspace₁.groups_eq_nil rfl, hm.groups_eq_nil rfl,
      hspace₂.groups_eq_nil rfl]
    rfl

/-! ### Units -/

/-- Units behind a number. -/
def unitTail : Pattern :=
  plus true (sequence [anySpace, unit, edge])

/-- A number with units is a digit, and units behind it. -/
theorem exists_of_reads_digitWithUnits (h : digitWithUnits.Reads x w z gs) :
    ∃ d t, w = d :: t ∧ isDecimalDigit d = true ∧ gs = [(1, [d])] ∧
      unitTail.Finds (x ++ [d]) t z := by
  obtain ⟨u, t, hs, hs', rfl, rfl, hgroup, htail⟩ := Reads.exists_of_seq h
  cases hgroup with
  | group hdigit =>
    cases hdigit with
    | one hd => exact ⟨_, t, rfl, hd, by rw [htail.groups_eq_nil rfl]; rfl, _, htail⟩

theorem exists_of_mentions_anyCase {cs : List Char} {c : Char}
    (h : (anyCase cs).mentions c = true) : ∃ d ∈ cs, c ∈ orbit d := by
  have hone {d : Char} (h : (one (.anyCase d)).mentions c = true) : c ∈ orbit d :=
    List.contains_iff_mem.mp ((has_anyCase _ _).symm.trans h)
  induction cs with
  | nil => exact Bool.noConfusion h
  | cons d cs ih =>
    cases cs with
    | nil => exact ⟨d, List.mem_singleton_self d, hone h⟩
    | cons d' cs =>
      rcases Bool.or_eq_true_iff.mp h with h | h
      · exact ⟨d, List.mem_cons_self, hone h⟩
      · obtain ⟨e, he, hc⟩ := ih h
        exact ⟨e, List.mem_cons_of_mem d he, hc⟩

/-- The letters of units. -/
def unitLetters : List Char :=
  ['m', 'e', 't', 'r', 's'].flatMap orbit

theorem mem_unitLetters {c : Char} (h : unit.mentions c = true) : c ∈ unitLetters := by
  have hword {s : String} (hs : s.toList ⊆ ['m', 'e', 't', 'r', 's'])
      (h : (word s).mentions c = true) : c ∈ unitLetters := by
    obtain ⟨d, hd, hc⟩ := exists_of_mentions_anyCase h
    exact List.mem_flatMap.mpr ⟨d, hs hd, hc⟩
  have hplural (h : (opt true (word "s")).mentions c = true) : c ∈ unitLetters :=
    hword (by decide) ((Bool.or_false _).symm.trans h)
  rcases Bool.or_eq_true_iff.mp h with h | h
  · exact (Bool.or_eq_true_iff.mp h).elim (hword (by decide)) hplural
  · rcases Bool.or_eq_true_iff.mp h with h | h
    · exact (Bool.or_eq_true_iff.mp h).elim (hword (by decide)) hplural
    · exact hword (by decide) h

theorem isWordChar_of_mem_unitLetters : ∀ c ∈ unitLetters, isWordChar c = true :=
  forall_mem_of_longS isWordChar_longS (by decide +kernel)

/-- The characters of units, with the spaces and tabs in front of them. -/
def tailChars : List Char :=
  ' ' :: '\t' :: unitLetters

theorem not_digit_of_mem_tailChars : ∀ c ∈ tailChars, (!isDecimalDigit c) = true :=
  forall_mem_of_longS (by rw [isDecimalDigit_longS]; rfl) (by decide +kernel)

theorem mem_tailChars (h : unitTail.Finds x w z) : ∀ c ∈ w, c ∈ tailChars := by
  obtain ⟨gs, h⟩ := h
  intro c hc
  have hmentions := (Bool.or_self _).symm.trans (h.mentions c hc)
  rcases Bool.or_eq_true_iff.mp hmentions with hspace | hmentions
  · rcases (has_spaceOrTab c).mp hspace with rfl | rfl
    · exact List.mem_cons_self
    · exact List.mem_cons_of_mem _ List.mem_cons_self
  · have hunit := (Bool.or_false _).symm.trans hmentions
    exact List.mem_cons_of_mem _ (List.mem_cons_of_mem _ (mem_unitLetters hunit))

/-- The last character of units belongs to a word, and no word goes on behind them. -/
theorem exists_last_of_finds_unitTail (h : unitTail.Finds x w z) :
    ∃ u c, w = u ++ [c] ∧ isWordChar c = true ∧ inWord z.head? = false := by
  obtain ⟨gs, h⟩ := h
  obtain ⟨u, v, hs, rfl, h₁⟩ := Reads.exists_last_of_plus rfl h
  obtain ⟨u₁, v₁, hs₁, hs₁', rfl, rfl, hspace, h₂⟩ := Reads.exists_of_seq h₁
  obtain ⟨u₂, v₂, hs₂, hs₂', rfl, rfl, hunit, hedge⟩ := Reads.exists_of_seq h₂
  obtain ⟨rfl, -, hne⟩ := edge_iff.mp hedge
  have hlast := List.dropLast_append_getLast (hunit.ne_nil rfl)
  have hword := isWordChar_of_mem_unitLetters _
    (mem_unitLetters (hunit.mentions _ (List.getLast_mem (hunit.ne_nil rfl))))
  refine ⟨u ++ (u₁ ++ u₂.dropLast), u₂.getLast (hunit.ne_nil rfl), ?_, hword, ?_⟩
  · simp [hlast]
  · rw [← hlast, ← List.append_assoc, List.getLast?_concat, inWord, Option.any_some, hword] at hne
    exact Bool.eq_false_iff.mpr hne.symm

/-- A number with units does not depend on what comes before, and on what comes behind through the
edge alone. -/
theorem finds_digitWithUnits_congr (h : digitWithUnits.Finds x w z) (x' : List Char)
    {z' : List Char} (hz : inWord z.head? = inWord z'.head?) : digitWithUnits.Finds x' w z' := by
  obtain ⟨gs, h⟩ := h
  obtain ⟨u, t, hs, hs', rfl, rfl, hgroup, htail⟩ := Reads.exists_of_seq h
  refine ⟨hs' ++ hs, .seq (hgroup.of_assertions_eq_nil rfl x' (t ++ z')) ?_⟩
  obtain ⟨d, v, rfl⟩ := List.exists_cons_of_ne_nil (hgroup.ne_nil rfl)
  have hedges : ∀ a ∈ unitTail.assertions, a = .wordEdge .word := by
    have hlist : unitTail.assertions = [.wordEdge .word, .wordEdge .word] := rfl
    simp [hlist]
  refine Reads.congr_context (r := fun b b' => inWord b = inWord b')
    (s := fun b b' => inWord b = inWord b') (fun _ => rfl) (fun _ => rfl) ?_ htail ?_ hz
  · intro a ha b b' c c' hb hc hholds
    rw [hedges a ha] at hholds ⊢
    have hne : inWord b ≠ inWord c := bne_iff_ne.mp hholds
    rw [hb, hc] at hne
    exact bne_iff_ne.mpr hne
  · simp [List.getLast?_append, List.getLast?_cons]

end Raceway.Wording
