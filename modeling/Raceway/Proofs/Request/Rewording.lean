import Mathlib
import Raceway.Proofs.Request.Spacing
/-!
# Putting fixed words for phrases

The replacements of the phrases for margins and ranges put fixed words in their place and keep their
numbers. No number with units and no such phrase comes into being by that: the fixed words start and
go on in a way in which no phrase and no unit does.

## Main definitions

* `Raceway.Wording.Rewords`: a phrase, and the words that are put in its place.
* `Raceway.Wording.Rewording`: a replacement that puts such words in the place of what it reads.

## Main results

* `Raceway.Wording.Rewording.avoids_digitWithUnits`: numbers with units do not come into being.
* `Raceway.Wording.Rewording.avoids_of_guarded`: phrases like those that set a margin do not either.
* `Raceway.Wording.Rewording.avoids_finds`: such phrases are gone once they are replaced.
* `Raceway.Wording.avoids_alters_rangeOfRows`: so are ranges of rows that are not spelled in full.
-/

namespace Raceway.Wording

open Pattern Text

variable {x y y' w z old new text : List Char} {p : Pattern} {f : Match → List Char}

/-! ### What is put in place of phrases -/

/-- The word in front of a margin at the start. -/
def startWord : List Char :=
  ['m', 'a', 'r', 'g', 'i', 'n', '_', 's', 't', 'a', 'r', 't', ' ']

/-- The word in front of a margin at the end. -/
def endWord : List Char :=
  ['m', 'a', 'r', 'g', 'i', 'n', '_', 'e', 'n', 'd', ' ']

/-- The word in front of a range of rows. -/
def rowsWord : List Char :=
  ['r', 'o', 'w', 's', ' ']

/-- A phrase, and the words that are put in its place. -/
inductive Rewords : List Char → List Char → Prop
  /-- The margin at one end. -/
  | margin {u n m : List Char} (hm : m = startWord ∨ m = endWord) (hn : IsNumber n) :
    Rewords (u ++ n) (m ++ n)
  /-- The margins at both ends. -/
  | both {u n v k : List Char} {c : Char} (hc : c ∈ [' ', '\t', ',']) (hn : IsNumber n)
    (hk : IsNumber k) :
    Rewords (u ++ (n ++ (c :: v ++ k))) (startWord ++ (n ++ (' ' :: endWord ++ k)))
  /-- A range of rows. -/
  | rows {u n v k : List Char} (hn : IsNumber n) (hk : IsNumber k) :
    Rewords (u ++ (n ++ (v ++ k))) (rowsWord ++ (n ++ ('-' :: k)))

/-- A replacement that puts fixed words and numbers in the place of phrases. -/
structure Rewording (p : Pattern) (f : Match → List Char) : Prop where
  /-- The pattern reads no empty part. -/
  not_nullable : p.nullable = false
  /-- What it reads is a phrase. -/
  rewords : ∀ {x z m}, p.Reads x m.text z m.texts → Rewords m.text (f m)

/-- What is put for a phrase that sets one margin holds its number. -/
theorem oneWords_of_reads {side : String} {m : Match}
    (h : (oneMargin side).Reads x m.text z m.texts) :
    ∃ u n, m.text = u ++ n ∧ IsNumber n ∧ m.texts = [(1, n)] ∧
      oneWords side m = marginWords side n := by
  obtain ⟨u, n, htext, hn, hgs⟩ := exists_of_reads_oneMargin h
  refine ⟨u, n, htext, hn, hgs, ?_⟩
  rw [oneWords, m.groupText_eq one_ne_zero, hgs]
  rfl

theorem rewording_oneMargin {side : String} (hside : side = "start" ∨ side = "end") :
    Rewording (oneMargin side) (oneWords side) where
  not_nullable := by rcases hside with rfl | rfl <;> rfl
  rewords := by
    intro x z m h
    obtain ⟨u, n, htext, hn, -, hwords⟩ := oneWords_of_reads h
    rw [hwords, htext]
    rcases hside with rfl | rfl
    · exact .margin (.inl rfl) hn
    · exact .margin (.inr rfl) hn

/-- What is put for a phrase that sets both margins holds their numbers. -/
theorem bothWords_of_reads {m : Match} (h : twoMargins.Reads x m.text z m.texts) :
    ∃ u n c v k, m.text = u ++ (n ++ (c :: v ++ k)) ∧ c ∈ [' ', '\t', ','] ∧ IsNumber n ∧
      IsNumber k ∧ m.texts = [(2, k), (1, n)] ∧
      bothWords m = startWord ++ (n ++ (' ' :: endWord ++ k)) := by
  obtain ⟨u, n, c, v, k, htext, hc, hn, hk, hgs⟩ := exists_of_reads_twoMargins h
  refine ⟨u, n, c, v, k, htext, hc, hn, hk, hgs, ?_⟩
  rw [bothWords, m.groupText_eq one_ne_zero, m.groupText_eq two_ne_zero, hgs, List.append_assoc]
  exact List.append_assoc ..

theorem rewording_twoMargins : Rewording twoMargins bothWords where
  not_nullable := rfl
  rewords := by
    intro x z m h
    obtain ⟨u, n, c, v, k, htext, hc, hn, hk, -, hwords⟩ := bothWords_of_reads h
    rw [hwords, htext]
    exact .both hc hn hk

/-- What is put for a range of rows are its numbers with a hyphen. -/
theorem rangeWords_of_reads {m : Match} (h : rangeOfRows.Reads x m.text z m.texts) :
    ∃ n k, IsRange m.text n k ∧ m.texts = [(2, k), (1, n)] ∧
      rangeWords m = rowsWord ++ (n ++ ('-' :: k)) := by
  obtain ⟨n, k, hrange, hgs⟩ := isRange_of_reads h
  refine ⟨n, k, hrange, hgs, ?_⟩
  change rowsWord ++ m.groupText 1 ++ ['-'] ++ m.groupText 2 = _
  rw [m.groupText_eq one_ne_zero, m.groupText_eq two_ne_zero, hgs, List.append_assoc]
  rfl

/-- A range of rows is such a phrase. -/
theorem IsRange.rewords {n k : List Char} (h : IsRange w n k) :
    Rewords w (rowsWord ++ (n ++ ('-' :: k))) := by
  cases h with
  | @mk r s t n t₁ m t₂ k _ _ _ _ hn _ hk =>
    have hsplit : r ++ (s ++ (t ++ (n ++ (t₁ ++ (m ++ (t₂ ++ k)))))) =
        r ++ (s ++ t) ++ (n ++ (t₁ ++ (m ++ t₂) ++ k)) := by simp
    rw [hsplit]
    exact .rows hn hk

theorem rewording_rangeOfRows : Rewording rangeOfRows rangeWords where
  not_nullable := rfl
  rewords := by
    intro x z m h
    obtain ⟨n, k, hrange, -, hwords⟩ := rangeWords_of_reads h
    rw [hwords]
    exact hrange.rewords

/-! ### Characters -/

/-- The character is no dash and no carriage return. -/
def isUnified (c : Char) : Bool :=
  c != '\r' && !dashes.contains c

/-- The words bring in no dashes and no carriage returns. -/
theorem Rewords.all_isUnified (h : Rewords old new) (hold : old.all isUnified = true) :
    new.all isUnified = true := by
  cases h with
  | margin hm hn =>
    rw [List.all_append, Bool.and_eq_true] at hold ⊢
    exact ⟨by rcases hm with rfl | rfl <;> rfl, hold.2⟩
  | both hc hn hk =>
    simp only [List.all_append, Bool.and_eq_true] at hold ⊢
    exact ⟨rfl, hold.2.1, rfl, hold.2.2.2⟩
  | rows hn hk =>
    simp only [List.all_append, List.all_cons, Bool.and_eq_true] at hold ⊢
    exact ⟨rfl, hold.2.1, rfl, hold.2.2.2⟩

/-! ### Spaces -/

theorem IsNumber.ne_space_tab {n : List Char} (hn : IsNumber n) : ∀ c ∈ n, c ≠ ' ' ∧ c ≠ '\t' := by
  intro c hc
  have hdigit := hn.digits c hc
  constructor
  · rintro rfl
    exact Bool.noConfusion hdigit
  · rintro rfl
    exact Bool.noConfusion hdigit

/-- A text that ends with a number. -/
theorem IsNumber.getLast?_append {n : List Char} (hn : IsNumber n) (u : List Char) :
    ∃ c, (u ++ n).getLast? = some c ∧ isDecimalDigit c = true := by
  refine ⟨n.getLast hn.ne_nil, ?_, hn.digits _ (List.getLast_mem _)⟩
  rw [List.getLast?_append, List.getLast?_eq_some_getLast hn.ne_nil]
  rfl

/-- The words are single spaced, and start and end with something else than a space. -/
theorem Rewords.singleSpaced (h : Rewords old new) : SingleSpaced new ∧ new ≠ [] ∧
    new.head? ≠ some ' ' ∧ new.getLast? ≠ some ' ' := by
  have hlast {u n : List Char} (hn : IsNumber n) : (u ++ n).getLast? ≠ some ' ' := by
    obtain ⟨c, hc, hdigit⟩ := hn.getLast?_append u
    rw [hc]
    rintro hspace
    obtain rfl := Option.some.inj hspace
    exact Bool.noConfusion hdigit
  have hnumber {u n : List Char} (hu : SingleSpaced u) (hn : IsNumber n) :
      SingleSpaced (u ++ n) := by
    refine hu.append (.of_forall hn.ne_space_tab) fun _ hhead => ?_
    exact (hn.ne_space_tab ' ' (List.mem_of_head? hhead)).1 rfl
  have hword : SingleSpaced startWord ∧ SingleSpaced (' ' :: endWord) ∧ SingleSpaced endWord ∧
      SingleSpaced rowsWord := by
    refine ⟨⟨?_, ?_⟩, ⟨?_, ?_⟩, ⟨?_, ?_⟩, ⟨?_, ?_⟩⟩ <;> decide
  obtain ⟨hstart, hspace, hend, hrows⟩ := hword
  cases h with
  | margin hm hn =>
    rcases hm with rfl | rfl
    · exact ⟨hnumber hstart hn, List.cons_ne_nil _ _, by simp [startWord], hlast hn⟩
    · exact ⟨hnumber hend hn, List.cons_ne_nil _ _, by simp [endWord], hlast hn⟩
  | @both u n v k c hc hn hk =>
    have hsplit : startWord ++ (n ++ (' ' :: endWord ++ k)) =
        startWord ++ n ++ ' ' :: endWord ++ k := by simp
    rw [hsplit]
    refine ⟨hnumber ((hnumber hstart hn).append hspace fun h => absurd h (hlast hn)) hk,
      List.cons_ne_nil _ _, by simp [startWord], hlast hk⟩
  | @rows u n v k hn hk =>
    have hsplit : rowsWord ++ (n ++ '-' :: k) = rowsWord ++ n ++ ['-'] ++ k := by simp
    rw [hsplit]
    refine ⟨hnumber ((hnumber hrows hn).append (.of_forall ?_) fun h => absurd h (hlast hn)) hk,
      List.cons_ne_nil _ _, by simp [rowsWord], hlast hk⟩
    intro c hc
    rw [List.mem_singleton.mp hc]
    decide

/-! ### Numbers with units -/

/-- What changes between the numbers of a phrase when words are put in its place. -/
inductive PhraseSwap : List Char → List Char → Prop
  /-- What is in front of a margin. -/
  | margin {old m : List Char} (hm : m = startWord ∨ m = endWord) : PhraseSwap old m
  /-- What is between two margins. -/
  | between {old : List Char} {c : Char} (hc : c ∈ [' ', '\t', ',']) :
    PhraseSwap (c :: old) (' ' :: endWord)
  /-- What is in front of a range. -/
  | rows {old : List Char} : PhraseSwap old rowsWord
  /-- What is between the numbers of a range, with the last digit in front of it. -/
  | hyphen {old : List Char} {d : Char} (hd : isDecimalDigit d = true) :
    PhraseSwap (d :: old) [d, '-']

/-- Numbers are kept where words are put in the place of a phrase. -/
theorem Rewords.aligned {free : List Char → List Char → Prop} (h : Rewords old new)
    (hfree : ∀ u v, old ++ y = u ++ v → free (x ++ u) v)
    (rest : Aligned free PhraseSwap (x ++ old) y y') :
    Aligned free PhraseSwap x (old ++ y) (new ++ y') := by
  cases h with
  | @margin u n m hm hn =>
    rw [← List.append_assoc] at rest
    rw [List.append_assoc, List.append_assoc]
    refine .swap (.margin hm) (.keeps (fun u' v hs _ => ?_) rest)
    rw [List.append_assoc]
    exact hfree (u ++ u') (v ++ y) (by simp [hs])
  | @both u n v k c hc hn hk =>
    have hrest : Aligned free PhraseSwap (x ++ u ++ n ++ (c :: v)) (k ++ y) (k ++ y') := by
      refine .keeps (fun u' v' hs _ => ?_) (by simpa using rest)
      simpa using hfree (u ++ (n ++ (c :: v ++ u'))) (v' ++ y) (by simp [hs])
    have hnumber : Aligned free PhraseSwap (x ++ u) (n ++ (c :: v ++ (k ++ y)))
        (n ++ (' ' :: endWord ++ (k ++ y'))) := by
      refine .keeps (fun u' v' hs _ => ?_) (.swap (.between hc) hrest)
      simpa using hfree (u ++ u') (v' ++ (c :: v ++ (k ++ y))) (by simp [hs])
    simpa using Aligned.swap (.margin (.inl rfl)) hnumber
  | @rows u n v k hn hk =>
    obtain ⟨n, d, rfl⟩ := (List.eq_nil_or_concat n).resolve_left hn.ne_nil
    have hrest : Aligned free PhraseSwap (x ++ u ++ n ++ (d :: v)) (k ++ y) (k ++ y') := by
      refine .keeps (fun u' v' hs _ => ?_) (by simpa using rest)
      simpa using hfree (u ++ (n ++ (d :: v ++ u'))) (v' ++ y) (by simp [hs])
    have hnumber : Aligned free PhraseSwap (x ++ u) (n ++ (d :: v ++ (k ++ y)))
        (n ++ ([d, '-'] ++ (k ++ y'))) := by
      refine .keeps (fun u' v' hs _ => ?_) (.swap (.hyphen (hn.digits d (by simp))) hrest)
      simpa using hfree (u ++ u') (v' ++ (d :: v ++ (k ++ y))) (by simp [hs])
    simpa using Aligned.swap .rows hnumber

/-- How units end, of which there is a last part. -/
theorem exists_of_finds_unitTail_append {u v : List Char} (h : unitTail.Finds x (u ++ v) z)
    (hv : v ≠ []) : (∀ c ∈ v, c ∈ tailChars) ∧ inWord v.getLast? = true ∧
      inWord z.head? = false := by
  obtain ⟨t, c, ht, hword, hnext⟩ := exists_last_of_finds_unitTail h
  refine ⟨fun c hc => mem_tailChars h c (List.mem_append_right u hc), ?_, hnext⟩
  have hlast : (u ++ v).getLast? = some c := by rw [ht, List.getLast?_concat]
  rw [List.getLast?_append_of_ne_nil _ hv] at hlast
  rw [hlast]
  exact hword

/-- No unit reaches into a word that is put in. -/
theorem not_finds_unitTail_of_reaches {u v : List Char} (hswap : PhraseSwap old new) (hv : v ≠ [])
    (hreach : v ++ z = new ++ y) : ¬ unitTail.Finds x (u ++ v) z := by
  intro h
  obtain ⟨hchars, hlast, hnext⟩ := exists_of_finds_unitTail_append h hv
  obtain ⟨c, v, rfl⟩ := List.exists_cons_of_ne_nil hv
  obtain ⟨hfirst, hothers⟩ := List.forall_mem_cons.mp hchars
  -- Where a word goes on with a letter that units do not have, units neither end nor go on.
  have hstop {b : Char} {v rest : List Char} (hb : isWordChar b = true) (hb' : b ∉ tailChars)
      (hchars : ∀ e ∈ v, e ∈ tailChars) (heq : v ++ z = b :: rest) : False := by
    cases v with
    | nil =>
      obtain rfl : z = b :: rest := heq
      rw [List.head?_cons, inWord, Option.any_some, hb] at hnext
      exact Bool.noConfusion hnext
    | cons d v =>
      obtain ⟨rfl, -⟩ := List.cons.inj heq
      exact hb' (hchars _ List.mem_cons_self)
  cases hswap with
  | margin hm =>
    rcases hm with rfl | rfl
    · exact hstop (by decide) (by decide +kernel) hothers (List.cons.inj hreach).2
    · exact hstop (by decide) (by decide +kernel) hothers (List.cons.inj hreach).2
  | between hc =>
    obtain ⟨rfl, hrest⟩ := List.cons.inj hreach
    cases v with
    | nil => exact Bool.noConfusion hlast
    | cons d v =>
      exact hstop (by decide) (by decide +kernel) (List.forall_mem_cons.mp hothers).2
        (List.cons.inj hrest).2
  | rows => exact hstop (by decide) (by decide +kernel) hothers (List.cons.inj hreach).2
  | @hyphen old d hd =>
    obtain ⟨rfl, -⟩ := List.cons.inj hreach
    have hnot := not_digit_of_mem_tailChars c hfirst
    rw [hd] at hnot
    exact Bool.noConfusion hnot

/-- The words hold no digits, apart from one that is kept in front of a hyphen. -/
theorem PhraseSwap.not_digit {u v : List Char} {c : Char} (h : PhraseSwap old new)
    (hnew : new = u ++ c :: v) (hc : isDecimalDigit c = true) : u = [] ∧ v = ['-'] := by
  have hmem : c ∈ new := hnew ▸ List.mem_append_right u List.mem_cons_self
  have hnone {cs : List Char} (hcs : cs.all (fun c => !isDecimalDigit c) = true) : c ∉ cs := by
    intro hmem
    have hnot := List.all_eq_true.mp hcs c hmem
    rw [hc] at hnot
    exact Bool.noConfusion hnot
  cases h with
  | margin hm => exact absurd hmem (hm.elim (· ▸ hnone (by decide)) (· ▸ hnone (by decide)))
  | between => exact absurd hmem (hnone (by decide))
  | rows => exact absurd hmem (hnone (by decide))
  | @hyphen old d hd =>
    cases u with
    | nil => exact ⟨rfl, (List.cons.inj hnew).2.symm⟩
    | cons e u =>
      obtain ⟨-, hrest⟩ := List.cons.inj hnew
      have hhyphen : c ∈ ['-'] := hrest ▸ List.mem_append_right u List.mem_cons_self
      exact absurd hhyphen (hnone (by decide))

/-- Numbers with units do not come into being where words are put in the place of phrases. -/
theorem withstands_digitWithUnits : PartKind.Withstands digitWithUnits.Finds PhraseSwap where
  ne_nil := fun ⟨_, h⟩ => h.ne_nil rfl
  before := fun h => finds_digitWithUnits_congr h _ rfl
  after := fun hz h => finds_digitWithUnits_congr h _ (congrArg inWord hz)
  reaches := by
    rintro old new x u v z y hswap hu hv hreach ⟨gs, h⟩
    obtain ⟨d, t, ht, -, -, htail⟩ := exists_of_reads_digitWithUnits h
    obtain ⟨c, u, rfl⟩ := List.exists_cons_of_ne_nil hu
    obtain ⟨rfl, rfl⟩ := List.cons.inj ht
    exact not_finds_unitTail_of_reaches hswap hv hreach htail
  starts := by
    rintro old new x u v w z y hswap hnew hv hstart ⟨gs, h⟩
    obtain ⟨d, t, rfl, hd, -, htail⟩ := exists_of_reads_digitWithUnits h
    obtain ⟨c, v, rfl⟩ := List.exists_cons_of_ne_nil hv
    obtain ⟨rfl, hrest⟩ := List.cons.inj hstart
    obtain ⟨rfl, rfl⟩ := hswap.not_digit hnew hd
    -- The units would start with the hyphen.
    obtain ⟨gs, htail'⟩ := htail
    obtain ⟨e, t, rfl⟩ := List.exists_cons_of_ne_nil (htail'.ne_nil rfl)
    obtain ⟨rfl, -⟩ := List.cons.inj hrest
    exact absurd (mem_tailChars ⟨gs, htail'⟩ '-' List.mem_cons_self) (by decide +kernel)
  behind := fun _ h => finds_digitWithUnits_congr h _ rfl
  front := by
    rintro old new x w y y' hswap h
    obtain ⟨gs, hread⟩ := h
    obtain ⟨d, t, rfl, -, -, htail⟩ := exists_of_reads_digitWithUnits hread
    have hnext : inWord (new ++ y').head? = false := by
      obtain ⟨-, -, -, -, hnext⟩ := exists_last_of_finds_unitTail htail
      exact hnext
    cases hswap with
    | margin hm => rcases hm with rfl | rfl <;> exact Bool.noConfusion hnext
    | @between old c hc =>
      refine finds_digitWithUnits_congr ⟨gs, hread⟩ _ (hnext.trans ?_)
      have hedges : [' ', '\t', ','].all (fun c => !isWordChar c) = true := by decide
      exact (Bool.not_eq_true' _).mp (List.all_eq_true.mp hedges c hc) |>.symm
    | rows => exact Bool.noConfusion hnext
    | hyphen hd => exact finds_digitWithUnits_congr ⟨gs, hread⟩ _ rfl

/-! ### Phrases that set margins -/

/-- No phrase that sets a margin starts in the text: wherever there is a letter that guard words
start with, there is a word in front of it. -/
def Shielded (s : List Char) : Prop :=
  ∀ u c v, s = u ++ c :: v → c ∈ guardStarts → inWord u.getLast? = true

theorem Shielded.append {s t : List Char} (hs : Shielded s) (ht : Shielded t) :
    Shielded (s ++ t) := by
  intro u c v h hc
  rcases List.append_eq_append_iff.mp h with ⟨a, rfl, ha⟩ | ⟨a, rfl, ha⟩
  · have hword := ht a c v ha hc
    rw [List.getLast?_append]
    cases hlast : a.getLast? with
    | none =>
      rw [hlast] at hword
      exact Bool.noConfusion hword
    | some d =>
      rw [hlast] at hword
      exact hword
  · cases a with
    | nil =>
      have hword := ht [] c v (by simpa using ha.symm) hc
      exact Bool.noConfusion hword
    | cons d a =>
      obtain ⟨rfl, -⟩ := List.cons.inj ha
      exact hs u _ a rfl hc

theorem shielded_of_forall {s : List Char} (h : ∀ c ∈ s, c ∉ guardStarts) : Shielded s :=
  fun _ c _ hs hc => absurd hc (h c (hs ▸ List.mem_append_right _ List.mem_cons_self))

theorem IsNumber.shielded {n : List Char} (hn : IsNumber n) : Shielded n := by
  refine shielded_of_forall fun c hc hstart => ?_
  have hnot := not_digit_of_mem_guardStarts c hstart
  rw [hn.digits c hc] at hnot
  exact Bool.noConfusion hnot

/-- A letter that guard words start with, behind the end of a word. -/
theorem shielded_pair {b c : Char} (hb : b ∉ guardStarts) (hword : isWordChar b = true) :
    Shielded [b, c] := by
  intro u d v h hd
  cases u with
  | nil =>
    obtain ⟨rfl, -⟩ := List.cons.inj h
    exact absurd hd hb
  | cons e u =>
    obtain ⟨rfl, hrest⟩ := List.cons.inj h
    cases u with
    | nil => exact hword
    | cons f u =>
      obtain ⟨-, hend⟩ := List.cons.inj hrest
      exact absurd hend.symm (List.append_ne_nil_of_right_ne_nil _ (List.cons_ne_nil _ _))

theorem Rewords.shielded (h : Rewords old new) : Shielded new := by
  have hnone {s : List Char} (hs : s.all (fun c => !guardStarts.contains c) = true) :
      Shielded s := by
    refine shielded_of_forall fun c hc hstart => ?_
    have hnot := List.all_eq_true.mp hs c hc
    rw [List.contains_iff_mem.mpr hstart] at hnot
    exact Bool.noConfusion hnot
  have hstart : Shielded startWord := by
    have hsplit : startWord =
        ['m', 'a', 'r', 'g', 'i', 'n'] ++ (['_', 's'] ++ ['t', 'a', 'r', 't', ' ']) := rfl
    rw [hsplit]
    exact (hnone (by decide)).append ((shielded_pair (by decide) (by decide)).append
      (hnone (by decide)))
  have hend : Shielded endWord := hnone (by decide)
  have hrows : Shielded rowsWord := by
    have hsplit : rowsWord = ['r', 'o'] ++ (['w', 's'] ++ [' ']) := rfl
    rw [hsplit]
    exact (hnone (by decide)).append ((shielded_pair (by decide) (by decide)).append
      (hnone (by decide)))
  cases h with
  | margin hm hn => exact (hm.elim (· ▸ hstart) (· ▸ hend)).append hn.shielded
  | both hc hn hk =>
    exact hstart.append (hn.shielded.append
      (((hnone (s := [' ']) (by decide)).append hend).append hk.shielded))
  | rows hn hk =>
    exact hrows.append (hn.shielded.append ((hnone (s := ['-']) (by decide)).append hk.shielded))

/-- A phrase and the words in its place end with the same character. -/
theorem Rewords.exists_last (h : Rewords old new) : ∃ u v c, old = u ++ [c] ∧ new = v ++ [c] := by
  have hlast {u v n : List Char} (hn : IsNumber n) :
      ∃ u' v' c, u ++ n = u' ++ [c] ∧ v ++ n = v' ++ [c] := by
    obtain ⟨n, d, rfl⟩ := (List.eq_nil_or_concat n).resolve_left hn.ne_nil
    exact ⟨u ++ n, v ++ n, d, by simp, by simp⟩
  cases h with
  | margin hm hn => exact hlast hn
  | @both u n v k c hc hn hk =>
    simpa using hlast (u := u ++ (n ++ (c :: v))) (v := startWord ++ (n ++ (' ' :: endWord))) hk
  | @rows u n v k hn hk =>
    simpa using hlast (u := u ++ (n ++ v)) (v := rowsWord ++ (n ++ ['-'])) hk

/-- What ends with a digit and reaches into a word for rows reaches behind the letter w. -/
theorem exists_of_reaches_rowsWord {a u v rest : List Char} {d : Char} (hv : v ≠ [])
    (hlast : u ++ v = a ++ [d]) (hd : isDecimalDigit d = true) (h : v ++ z = rowsWord ++ rest) :
    ∃ t, v = 'r' :: 'o' :: 'w' :: t := by
  have hlast' : v.getLast? = some d := by
    rw [← List.getLast?_append_of_ne_nil u hv, hlast, List.getLast?_concat]
  match v, hv, h with
  | [b], _, h =>
    obtain ⟨rfl, -⟩ := List.cons.inj h
    obtain rfl := Option.some.inj hlast'
    exact Bool.noConfusion hd
  | [b, c], _, h =>
    obtain ⟨-, h₁⟩ := List.cons.inj h
    obtain ⟨rfl, -⟩ := List.cons.inj h₁
    obtain rfl := Option.some.inj hlast'
    exact Bool.noConfusion hd
  | b :: c :: e :: t, _, h =>
    obtain ⟨rfl, h₁⟩ := List.cons.inj h
    obtain ⟨rfl, h₂⟩ := List.cons.inj h₁
    obtain ⟨rfl, -⟩ := List.cons.inj h₂
    exact ⟨t, rfl⟩

/-- Phrases like those that set a margin do not come into being where words are put in the place of
such phrases. -/
theorem Guarded.withstands {kind : PartKind} (hkind : Guarded kind) : kind.Withstands Rewords where
  ne_nil := by
    rintro x w z h rfl
    obtain ⟨c, -, v, hw, -⟩ := hkind.starts h
    cases hw
  before := by
    intro x x' w z c h
    refine hkind.congr ?_ h
    rw [List.getLast?_concat, List.getLast?_concat]
  after := fun _ h => hkind.congr rfl h
  reaches := by
    intro old new x u v z y hwords hu hv hreach h
    obtain ⟨hm, hw, -⟩ := hkind.lacks h
    obtain ⟨a, d, hlast, hd⟩ := hkind.ends h
    have hmargin {rest : List Char} (heq : v ++ z = 'm' :: rest) : False := by
      obtain ⟨c, v, rfl⟩ := List.exists_cons_of_ne_nil hv
      obtain ⟨rfl, -⟩ := List.cons.inj heq
      exact hm (List.mem_append_right u List.mem_cons_self)
    cases hwords with
    | margin hm => rcases hm with rfl | rfl <;> exact hmargin hreach
    | both => exact hmargin hreach
    | rows =>
      rw [List.append_assoc] at hreach
      obtain ⟨t, rfl⟩ := exists_of_reaches_rowsWord hv hlast hd hreach
      exact hw (by simp)
  starts := by
    intro old new x u v w z y hwords hnew hv hstart h
    obtain ⟨c, hc, w, rfl, hedge⟩ := hkind.starts h
    obtain ⟨d, v, rfl⟩ := List.exists_cons_of_ne_nil hv
    obtain ⟨rfl, -⟩ := List.cons.inj hstart
    have hshield := hwords.shielded u d v hnew hc
    rw [List.getLast?_append] at hedge
    cases hlast : u.getLast? with
    | none =>
      rw [hlast] at hshield
      exact Bool.noConfusion hshield
    | some e =>
      rw [hlast] at hshield hedge
      exact Bool.eq_false_iff.mp hedge hshield
  behind := by
    intro old new x x' w z hwords h
    obtain ⟨u, v, c, rfl, rfl⟩ := hwords.exists_last
    refine hkind.congr ?_ h
    rw [← List.append_assoc, ← List.append_assoc, List.getLast?_concat, List.getLast?_concat]
  front := fun _ h => hkind.congr rfl h

/-! ### Ranges of rows -/

theorem append_inj_of_span {p : Char → Bool} {a b u v : List Char} (ha : ∀ c ∈ a, p c = true)
    (hb : ∀ c ∈ b, p c = true) (hu : ∀ c, u.head? = some c → p c = false)
    (hv : ∀ c, v.head? = some c → p c = false) (h : a ++ u = b ++ v) : a = b ∧ u = v := by
  induction a generalizing b with
  | nil =>
    cases b with
    | nil => exact ⟨rfl, h⟩
    | cons c b =>
      have hc := hu c (by rw [show u = c :: b ++ v from h]; rfl)
      rw [hb c List.mem_cons_self] at hc
      exact Bool.noConfusion hc
  | cons c a ih =>
    obtain ⟨hc, ha⟩ := List.forall_mem_cons.mp ha
    cases b with
    | nil =>
      have hc' := hv c (by rw [← show c :: a ++ u = v from h]; rfl)
      rw [hc] at hc'
      exact Bool.noConfusion hc'
    | cons d b =>
      obtain ⟨rfl, hrest⟩ := List.cons.inj h
      obtain ⟨rfl, rfl⟩ := ih ha (List.forall_mem_cons.mp hb).2 hrest
      exact ⟨rfl, rfl⟩

/-- Nothing but the front part of spaces and tabs is dropped where no space or tab starts. -/
theorem eq_nil_of_spaces {t u v : List Char} (ht : ∀ c ∈ t, c = ' ' ∨ c = '\t') (h : t ++ u = v)
    (hv : ∀ c, v.head? = some c → c ≠ ' ' ∧ c ≠ '\t') : t = [] := by
  cases t with
  | nil => rfl
  | cons c t =>
    obtain ⟨hspace, htab⟩ := hv c (by rw [← h]; rfl)
    exact ((ht c List.mem_cons_self).elim hspace htab).elim

theorem IsNumber.head?_ne_space {n : List Char} (hn : IsNumber n) (u : List Char) :
    ∀ c, (n ++ u).head? = some c → c ≠ ' ' ∧ c ≠ '\t' := by
  intro c hc
  rw [List.head?_append_of_ne_nil _ hn.ne_nil] at hc
  exact hn.ne_space_tab c (List.mem_of_head? hc)

/-- What stands between the numbers of a range does not start with a digit. -/
theorem IsRangeWord.not_digit {m : List Char} (hm : IsRangeWord m) {t : List Char}
    (ht : ∀ c ∈ t, c = ' ' ∨ c = '\t') (u : List Char) :
    ∀ c, (t ++ (m ++ u)).head? = some c → isDecimalDigit c = false := by
  intro c hc
  cases t with
  | nil =>
    rcases hm with rfl | ⟨d, hd, v, rfl⟩
    · obtain rfl := Option.some.inj hc
      rfl
    · obtain rfl := Option.some.inj hc
      have hletters : ['t', 'T', '.'].all (fun c => !isDecimalDigit c) = true := by decide
      exact (Bool.not_eq_true' _).mp (List.all_eq_true.mp hletters d hd)
  | cons d t =>
    obtain rfl := Option.some.inj hc
    rcases ht d List.mem_cons_self with rfl | rfl <;> rfl

/-- A range at the start of words for a range is spelled as they are. -/
theorem IsRange.eq_rowsWord {n k n' k' : List Char} (h : IsRange w n' k') (hn : IsNumber n)
    (hk : IsNumber k) (heq : w ++ z = rowsWord ++ (n ++ ('-' :: k)) ++ y) :
    w = rowsWord ++ (n' ++ ('-' :: k')) := by
  cases h with
  | @mk r s t n' t₁ m t₂ k' hr hs ht hspaces hn' hm hk' =>
    obtain ⟨hspaces, hspaces₁, hspaces₂⟩ : (∀ c ∈ t, c = ' ' ∨ c = '\t') ∧
        (∀ c ∈ t₁, c = ' ' ∨ c = '\t') ∧ ∀ c ∈ t₂, c = ' ' ∨ c = '\t' :=
      ⟨fun c hc => hspaces c (by simp [hc]), fun c hc => hspaces c (by simp [hc]),
        fun c hc => hspaces c (by simp [hc])⟩
    obtain ⟨a, b, c, rfl⟩ := List.length_eq_three.mp hr.length_eq.symm
    obtain ⟨d, t, rfl⟩ := List.exists_cons_of_ne_nil ht
    obtain ⟨hd, hmore⟩ := List.forall_mem_cons.mp hspaces
    have hletters : a :: b :: c :: (s ++ (d :: t ++ (n' ++ (t₁ ++ (m ++ (t₂ ++ (k' ++ z))))))) =
        'r' :: 'o' :: 'w' :: 's' :: ' ' :: (n ++ ('-' :: (k ++ y))) := by
      simpa [rowsWord] using heq
    simp only [List.cons.injEq] at hletters
    obtain ⟨rfl, rfl, rfl, hrows⟩ := hletters
    -- The word has the letter for the plural, since a space or a tab has to follow it.
    rcases hs with rfl | ⟨e, -, rfl⟩
    · obtain ⟨rfl, -⟩ := List.cons.inj hrows
      rcases hd with hd | hd <;> exact absurd hd (by decide)
    obtain ⟨rfl, hspace⟩ := List.cons.inj hrows
    obtain ⟨rfl, hnumber⟩ := List.cons.inj hspace
    obtain rfl := eq_nil_of_spaces hmore hnumber (hn.head?_ne_space _)
    obtain ⟨rfl, hword⟩ := append_inj_of_span hn'.digits hn.digits (hm.not_digit hspaces₁ _)
      (by rintro _ ⟨⟩; rfl) hnumber
    obtain rfl := eq_nil_of_spaces hspaces₁ hword (by rintro _ ⟨⟩; decide)
    obtain rfl : m = ['-'] := by
      rcases hm with rfl | ⟨e, he, v, rfl⟩
      · rfl
      · obtain ⟨rfl, -⟩ := List.cons.inj hword
        exact absurd he (by decide)
    obtain rfl := eq_nil_of_spaces hspaces₂ (List.cons.inj hword).2 (hk.head?_ne_space _)
    rfl

/-- A range is the word for rows, in whatever case, and a rest. -/
theorem IsRange.exists_letters {n k : List Char} (h : IsRange w n k) :
    ∃ a b c v, w = a :: b :: c :: v ∧ a ∈ orbit 'r' := by
  cases h with
  | mk hr =>
    cases hr with
    | cons ha hr =>
      cases hr with
      | cons _ hr =>
        cases hr with
        | cons _ hr =>
          cases hr
          exact ⟨_, _, _, _, rfl, ha⟩

theorem IsRange.exists_last {n k : List Char} (h : IsRange w n k) :
    ∃ u d, w = u ++ [d] ∧ isDecimalDigit d = true := by
  cases h with
  | @mk r s t n t₁ m t₂ k _ _ _ _ _ _ hk =>
    obtain ⟨k, d, rfl⟩ := (List.eq_nil_or_concat k).resolve_left hk.ne_nil
    exact ⟨r ++ (s ++ (t ++ (n ++ (t₁ ++ (m ++ (t₂ ++ k)))))), d, by simp,
      hk.digits d (by simp)⟩

/-- Behind the word for rows a range has no letter w. -/
theorem not_mem_drop_of_reads {gs : List (ℕ × List Char)} (h : rangeOfRows.Reads x w z gs) :
    'w' ∉ w.drop 3 := by
  obtain ⟨u₁, v₁, hs₁, hs₁', rfl, rfl, hedge, h₁⟩ := Reads.exists_of_seq h
  obtain ⟨u₂, v₂, hs₂, hs₂', rfl, rfl, hrows, h₂⟩ := Reads.exists_of_seq h₁
  obtain ⟨r, s, hs₃, hs₃', rfl, rfl, hrow, hs⟩ := Reads.exists_of_seq hrows
  obtain ⟨rfl, -, -⟩ := edge_iff.mp hedge
  obtain ⟨a, b, c, rfl⟩ := List.length_eq_three.mp (forall₂_of_reads_anyCase hrow).length_eq.symm
  exact fun hw => (List.mem_append.mp hw).elim (hs.not_mem rfl) (h₂.not_mem rfl)

/-- The words for a range in the place of a range. -/
inductive RowsSwap : List Char → List Char → Prop
  | mk {old n k : List Char} (h : IsRange old n k) (hn : IsNumber n) (hk : IsNumber k) :
    RowsSwap old (rowsWord ++ (n ++ ('-' :: k)))

theorem IsRange.numbers {n k : List Char} (h : IsRange w n k) : IsNumber n ∧ IsNumber k := by
  cases h with
  | mk _ _ _ _ hn _ hk => exact ⟨hn, hk⟩

/-- What the replacement of ranges would alter is a range that is not spelled as its words are. -/
theorem exists_of_alters_rangeOfRows (h : rangeOfRows.Alters rangeWords x w z) :
    ∃ n k, IsRange w n k ∧ w ≠ rowsWord ++ (n ++ ('-' :: k)) := by
  obtain ⟨m, rfl, hread, hne⟩ := h
  obtain ⟨n, k, hrange, -, hwords⟩ := rangeWords_of_reads hread
  exact ⟨n, k, hrange, fun heq => hne (hwords.trans heq.symm)⟩

theorem alters_rangeOfRows_congr (h : rangeOfRows.Alters rangeWords x w z) {x' : List Char}
    (hx : inWord x.getLast? = inWord x'.getLast?) (z' : List Char) :
    rangeOfRows.Alters rangeWords x' w z' := by
  obtain ⟨m, hm, hread, hne⟩ := h
  exact ⟨m, hm, reads_edge_congr rfl rfl hread hx z', hne⟩

/-- Behind its first letter, what is put for a range has no letter that ranges start with. -/
theorem not_mem_of_mem_orbit {n k : List Char} (hn : IsNumber n) (hk : IsNumber k) {c : Char}
    (hc : c ∈ orbit 'r') : c ∉ ['o', 'w', 's', ' '] ++ (n ++ ('-' :: k)) := by
  have hletters : (orbit 'r').all (fun c => !(['o', 'w', 's', ' '].contains c) && c != '-' &&
      !isDecimalDigit c) = true := by decide +kernel
  have hletter := List.all_eq_true.mp hletters c hc
  simp only [Bool.and_eq_true, Bool.not_eq_true', bne_iff_ne] at hletter
  obtain ⟨⟨hword, hhyphen⟩, hnot⟩ := hletter
  have hdigit {n : List Char} (hn : IsNumber n) : c ∉ n := by
    intro hmem
    rw [hn.digits c hmem] at hnot
    exact Bool.noConfusion hnot
  intro hmem
  rcases List.mem_append.mp hmem with hmem | hmem
  · exact Bool.eq_false_iff.mp hword (List.contains_iff_mem.mpr hmem)
  · rcases List.mem_append.mp hmem with hmem | hmem
    · exact hdigit hn hmem
    · exact (List.mem_cons.mp hmem).elim hhyphen (hdigit hk)

/-- Ranges that are not spelled as their words are do not come into being where the words are put in
the place of ranges. -/
theorem withstands_rangeOfRows :
    PartKind.Withstands (rangeOfRows.Alters rangeWords) RowsSwap where
  ne_nil := fun ⟨_, _, h, _⟩ => h.ne_nil rfl
  before := by
    intro x x' w z c h
    refine alters_rangeOfRows_congr h ?_ z
    rw [List.getLast?_concat, List.getLast?_concat]
  after := fun _ h => alters_rangeOfRows_congr h rfl _
  reaches := by
    rintro old new x u v z y ⟨-, hn, hk⟩ hu hv hreach h
    obtain ⟨gs, hread⟩ := h.finds
    obtain ⟨n', k', hrange, -⟩ := exists_of_alters_rangeOfRows h
    obtain ⟨a, d, hlast, hd⟩ := hrange.exists_last
    have hw := not_mem_drop_of_reads hread
    obtain ⟨t, rfl⟩ := exists_of_reaches_rowsWord hv hlast hd (hreach.trans (List.append_assoc ..))
    refine hw ?_
    match u, hu with
    | [b], _ => simp
    | [b, c], _ => simp
    | b :: c :: e :: u, _ => simp
  starts := by
    rintro old new x u v w z y ⟨-, hn, hk⟩ hnew hv hstart h
    obtain ⟨n', k', hrange, hne⟩ := exists_of_alters_rangeOfRows h
    cases u with
    | nil =>
      obtain rfl : _ = v := hnew
      exact hne (hrange.eq_rowsWord hn hk hstart.symm)
    | cons a u =>
      obtain ⟨b, c, e, t, rfl, hb⟩ := hrange.exists_letters
      obtain ⟨b', v, rfl⟩ := List.exists_cons_of_ne_nil hv
      obtain ⟨rfl, -⟩ := List.cons.inj hstart
      obtain ⟨-, hrest⟩ := List.cons.inj hnew
      refine not_mem_of_mem_orbit hn hk hb ?_
      rw [← List.append_eq, hrest]
      exact List.mem_append_right u List.mem_cons_self
  behind := by
    rintro old new x x' w z ⟨hrange, hn, hk⟩ h
    obtain ⟨u, v, c, rfl, hnew⟩ := hrange.rewords.exists_last
    rw [hnew] at h
    refine alters_rangeOfRows_congr h ?_ z
    rw [← List.append_assoc, ← List.append_assoc, List.getLast?_concat, List.getLast?_concat]
  front := fun _ h => alters_rangeOfRows_congr h rfl _

/-! ### What a replacement leaves -/

/-- A replacement brings in no dashes and no carriage returns. -/
theorem Rewording.all_isUnified (hf : Rewording p f) (h : text.all isUnified = true) :
    (p.replaceAll f text).all isUnified = true :=
  (rewrites_replaceAll hf.not_nullable f text).all
    (fun _ _ _ hread => (hf.rewords hread).all_isUnified) h

/-- A replacement brings in no spaces that do not stand alone. -/
theorem Rewording.singleSpaced (hf : Rewording p f) (h : SingleSpaced text) :
    SingleSpaced (p.replaceAll f text) :=
  (SingleSpaced.rewrites (fun _ _ _ hread => (hf.rewords hread).singleSpaced)
    (rewrites_replaceAll hf.not_nullable f text) h).1

/-- A replacement brings in no numbers with units. -/
theorem Rewording.avoids_digitWithUnits (hf : Rewording p f)
    (h : Avoids digitWithUnits.Finds text) :
    Avoids digitWithUnits.Finds (p.replaceAll f text) := by
  refine Aligned.avoids withstands_digitWithUnits
    ((rewrites_replaceAll hf.not_nullable f text).aligned (fun u v htext _ => h.free htext)
      fun u v v' m htext hread rest => (hf.rewords hread).aligned (fun a b hab => ?_) rest)
  refine h.free ?_
  rw [htext, hab, List.nil_append, List.append_assoc]

/-- A replacement brings in no phrases that set a margin. -/
theorem Rewording.avoids_of_guarded (hf : Rewording p f) {kind : PartKind} (hkind : Guarded kind)
    (h : Avoids kind text) : Avoids kind (p.replaceAll f text) :=
  Aligned.avoids hkind.withstands
    ((rewrites_replaceAll hf.not_nullable f text).aligned (fun _ _ htext _ => h.free htext)
      fun _ _ _ _ _ hread rest => .swap (hf.rewords hread) rest)

/-- Phrases that set a margin are gone once they are replaced. -/
theorem Rewording.avoids_finds (hf : Rewording p f) (hp : Guarded p.Finds) (text : List Char) :
    Avoids p.Finds (p.replaceAll f text) :=
  Aligned.avoids hp.withstands
    ((rewrites_replaceAll hf.not_nullable f text).aligned (fun _ _ _ hfree => hfree)
      fun _ _ _ _ _ hread rest => .swap (hf.rewords hread) rest)

/-- Once ranges of rows are replaced, all of them are spelled in full. -/
theorem avoids_alters_rangeOfRows (text : List Char) :
    Avoids (rangeOfRows.Alters rangeWords) (rangeOfRows.replaceAll rangeWords text) := by
  refine Aligned.avoids withstands_rangeOfRows
    ((rewrites_replaceAll rfl rangeWords text).aligned
      (fun u v _ hfree w z hv h => hfree w z hv h.finds) fun u v v' m _ hread rest => ?_)
  obtain ⟨n, k, hrange, -, hwords⟩ := rangeWords_of_reads hread
  obtain ⟨hn, hk⟩ := hrange.numbers
  rw [hwords]
  exact .swap (.mk hrange hn hk) rest

end Raceway.Wording
