import Mathlib
import Raceway.Proofs.Pattern.Replacing
/-!
# The same part in another text

What the matcher prefers in a part of a text depends on what is around that part through the
conditions alone. Where the same part stands in another text, with surroundings that the conditions
do not tell from the ones before, and with a character behind it that the pattern does not use, the
matcher prefers the same there and marks the same groups. So a replacement does to the front of a
text, up to such a character, what it does to that front alone.

## Main definitions

* `Raceway.Pattern.SeesOnly`: the conditions of a pattern see no more than a property of the
  characters around a place.
* `Raceway.Pattern.StopsAt`: a pattern takes what follows for the end of the text.
* `Raceway.Cursor.Twins`: places around the same rest of two texts.

## Main results

* `Raceway.Pattern.rel_matchThen`: the matcher does the same at both places.
* `Raceway.Pattern.Rewrites.unique`: a walk has one outcome.
* `Raceway.Pattern.Rewrites.append`: a walk through the front of a text, and one through the rest.
-/

namespace Raceway

/-- Places in front of the same rest, which ends one text and goes on in the other one, with the
same groups. -/
structure Cursor.Twins (tail x x' y : List Char) (s s' : Cursor) : Prop where
  /-- The rest ends the text. -/
  left : s.Between x y
  /-- The rest goes on. -/
  right : s'.Between x' (y ++ tail)
  /-- The groups are the same. -/
  texts : s.texts = s'.texts

namespace Pattern

open Cursor

variable {β γ : Type} {p p₁ p₂ : Pattern} {q : Option Char → Bool} {r : β → γ → Prop}
  {tail x x' y : List Char} {s s' : Cursor} {k : Cursor → Option β} {k' : Cursor → Option γ}

/-- The conditions of the pattern see no more than a property of the characters in front and
behind. -/
def SeesOnly (p : Pattern) (q : Option Char → Bool) : Prop :=
  ∀ a ∈ p.assertions, ∀ b b' c c', q b = q b' → q c = q c' → a.holds b c = a.holds b' c'

theorem SeesOnly.of_append {p : Pattern} (h : p.SeesOnly q)
    (hp : p.assertions = p₁.assertions ++ p₂.assertions) : p₁.SeesOnly q ∧ p₂.SeesOnly q :=
  ⟨fun a ha => h a (hp ▸ List.mem_append_left _ ha),
    fun a ha => h a (hp ▸ List.mem_append_right _ ha)⟩

/-- The pattern takes what follows for the end of the text: its conditions do, and it does not use
the first of the characters there. -/
structure StopsAt (p : Pattern) (q : Option Char → Bool) (tail : List Char) : Prop where
  /-- The conditions see an end. -/
  sees : q tail.head? = q none
  /-- The first of the characters is in no class. -/
  lacks : ∀ c, tail.head? = some c → p.mentions c = false

theorem stopsAt_nil (p : Pattern) (q : Option Char → Bool) : p.StopsAt q [] :=
  ⟨rfl, by rintro _ ⟨⟩⟩

theorem StopsAt.of_or {p : Pattern} (h : p.StopsAt q tail)
    (hp : ∀ c, p.mentions c = (p₁.mentions c || p₂.mentions c)) :
    p₁.StopsAt q tail ∧ p₂.StopsAt q tail := by
  have hlacks (c : Char) (hc : tail.head? = some c) :=
    Bool.or_eq_false_iff.mp ((hp c).symm.trans (h.lacks c hc))
  exact ⟨⟨h.sees, fun c hc => (hlacks c hc).1⟩, ⟨h.sees, fun c hc => (hlacks c hc).2⟩⟩

/-- Two ways to go on do the same behind each part of the rest. -/
def GoOnAlike (tail : List Char) (r : β → γ → Prop) (x x' y : List Char)
    (k : Cursor → Option β) (k' : Cursor → Option γ) : Prop :=
  ∀ w z t t', y = w ++ z → Twins tail (x ++ w) (x' ++ w) z t t' → Option.Rel r (k t) (k' t')

theorem GoOnAlike.here (h : GoOnAlike tail r x x' y k k') (hs : Twins tail x x' y s s') :
    Option.Rel r (k s) (k' s') :=
  h [] y s s' rfl (by rwa [List.append_nil, List.append_nil])

/-- Going on behind a part of the rest. -/
theorem GoOnAlike.drop {u v : List Char} (h : GoOnAlike tail r x x' (u ++ v) k k') :
    GoOnAlike tail r (x ++ u) (x' ++ u) v k k' := by
  intro w z t t' hv ht
  rw [List.append_assoc, List.append_assoc] at ht
  exact h (u ++ w) z t t' (by rw [hv, List.append_assoc]) ht

/-- The characters in front are still alike behind a part that both texts have. -/
theorem before_append (hx : q x.getLast? = q x'.getLast?) (u : List Char) :
    q (x ++ u).getLast? = q (x' ++ u).getLast? :=
  getLast?_append_congr (r := fun b b' => q b = q b') (fun _ => rfl) hx u

/-- Going on only where something has been read is the same decision at both places. -/
theorem rel_ite_lt {w z : List Char} {t t' : Cursor} (hs : Twins tail x x' (w ++ z) s s')
    (ht : Twins tail (x ++ w) (x' ++ w) z t t') {a b : Option β} {a' b' : Option γ}
    (hmore : w ≠ [] → Option.Rel r a a') (hstay : w = [] → Option.Rel r b b') :
    Option.Rel r (if t.rest.length < s.rest.length then a else b)
      (if t'.rest.length < s'.rest.length then a' else b') := by
  have hlt := hs.left.lt_iff ht.left
  have hlt' := Between.lt_iff (w := w) (by simpa using hs.right) ht.right
  by_cases hw : w = []
  · rw [if_neg (hlt.not.mpr (not_not.mpr hw)), if_neg (hlt'.not.mpr (not_not.mpr hw))]
    exact hstay hw
  · rw [if_pos (hlt.mpr hw), if_pos (hlt'.mpr hw)]
    exact hmore hw

theorem rel_orElse {a b : Option β} {a' b' : Option γ} (ha : Option.Rel r a a')
    (hb : Option.Rel r b b') : Option.Rel r (a.orElse fun _ => b) (a'.orElse fun _ => b') := by
  cases ha with
  | none => exact hb
  | some h => exact .some h

/-! ### Repetition -/

/-- At the end of a text a repetition makes no progress. -/
theorem iterate_of_nil {greedy : Bool} (hs : s.Between x []) (n : ℕ) :
    iterate p.matchThen greedy k n s = k s := by
  cases n with
  | zero => rfl
  | succ n =>
    have hnone : p.matchThen (fun t => if t.rest.length < s.rest.length then
        iterate p.matchThen greedy k n t else none) s = none := by
      refine Option.eq_none_iff_forall_ne_some.mpr fun b hb => ?_
      obtain ⟨w, z, t, -, -, ht⟩ := exists_passes_of_matchThen hb hs
      obtain ⟨hlt, -⟩ := Option.ite_none_right_eq_some.mp ht
      rw [hs.rest] at hlt
      exact Nat.not_lt_zero _ hlt
    rw [iterate, hnone]
    cases greedy with
    | true => rfl
    | false => exact (Option.orElse_eq_or ..).trans Option.or_none

/-- A repetition that may go on to the end of a text may try once at least. -/
theorem exists_iterate_succ (p : Pattern) (greedy : Bool) (k : Cursor → Option β)
    (hs : s.Between x y) {n : ℕ} (hn : y.length ≤ n) :
    ∃ m, y.length ≤ m + 1 ∧
      iterate p.matchThen greedy k n s = iterate p.matchThen greedy k (m + 1) s := by
  cases n with
  | zero =>
    obtain rfl := List.eq_nil_of_length_eq_zero (Nat.le_zero.mp hn)
    exact ⟨0, Nat.zero_le _, (iterate_of_nil hs 0).trans (iterate_of_nil hs 1).symm⟩
  | succ m => exact ⟨m, hn, rfl⟩

/-- Repetitions of a pattern do the same if the pattern does. -/
theorem rel_iterate {greedy : Bool}
    (hp : ∀ {x x' y : List Char} {s s' : Cursor} {k : Cursor → Option β} {k' : Cursor → Option γ},
      q x.getLast? = q x'.getLast? → Twins tail x x' y s s' → GoOnAlike tail r x x' y k k' →
        Option.Rel r (p.matchThen k s) (p.matchThen k' s'))
    {n n' : ℕ} (hx : q x.getLast? = q x'.getLast?) (hs : Twins tail x x' y s s')
    (hk : GoOnAlike tail r x x' y k k') (hn : y.length ≤ n) (hn' : (y ++ tail).length ≤ n') :
    Option.Rel r (iterate p.matchThen greedy k n s) (iterate p.matchThen greedy k' n' s') := by
  induction hlength : y.length using Nat.strongRecOn generalizing x x' y s s' n n' with
  | ind l ih =>
    subst hlength
    obtain ⟨m, hm, heq⟩ := exists_iterate_succ p greedy k hs.left hn
    obtain ⟨m', hm', heq'⟩ := exists_iterate_succ p greedy k' hs.right hn'
    have hagain : Option.Rel r
        (p.matchThen (fun t => if t.rest.length < s.rest.length then
          iterate p.matchThen greedy k m t else none) s)
        (p.matchThen (fun t => if t.rest.length < s'.rest.length then
          iterate p.matchThen greedy k' m' t else none) s') := by
      refine hp hx hs fun w z t t' hy ht => ?_
      subst hy
      refine rel_ite_lt hs ht (fun hw => ?_) (fun _ => .none)
      have hpos := List.length_pos_iff.mpr hw
      simp only [List.length_append] at hm hm'
      refine ih z.length ?_ (before_append hx w) ht hk.drop ?_ ?_ rfl
      · rw [List.length_append]
        omega
      · omega
      · rw [List.length_append]
        omega
    rw [heq, heq', iterate, iterate]
    cases greedy with
    | true => exact rel_orElse hagain (hk.here hs)
    | false => exact rel_orElse (hk.here hs) hagain

/-! ### The matcher -/

/-- The matcher does the same in both texts, if what goes on behind it does. -/
theorem rel_matchThen (hsees : p.SeesOnly q) (hstop : p.StopsAt q tail)
    (hx : q x.getLast? = q x'.getLast?) (hs : Twins tail x x' y s s')
    (hk : GoOnAlike tail r x x' y k k') :
    Option.Rel r (p.matchThen k s) (p.matchThen k' s') := by
  induction p generalizing k k' s s' x x' y with
  | empty => exact hk.here hs
  | one chars =>
    cases y with
    | nil =>
      have hnone : s.take? chars = none := hs.left.take?_eq_none (by rintro _ ⟨⟩)
      rw [matchThen, matchThen, hnone, hs.right.take?_eq_none hstop.lacks]
      exact .none
    | cons c y =>
      cases hc : chars.has c with
      | false =>
        have hnone {z : List Char} : ∀ d, (c :: z).head? = some d → chars.has d = false := by
          rintro _ ⟨⟩
          exact hc
        rw [matchThen, matchThen, hs.left.take?_eq_none hnone, hs.right.take?_eq_none hnone]
        exact .none
      | true =>
        obtain ⟨t, ht, hbetween⟩ := hs.left.exists_take? hc
        obtain ⟨t', ht', hbetween'⟩ := hs.right.exists_take? hc
        obtain ⟨-, -, -, -, -, htexts⟩ := hs.left.take? ht
        obtain ⟨-, -, -, -, -, htexts'⟩ := hs.right.take? ht'
        rw [matchThen, matchThen, ht, ht']
        exact hk [c] y t t' rfl ⟨hbetween, hbetween', htexts.trans (hs.texts.trans htexts'.symm)⟩
  | assert a =>
    have hnext : q y.head? = q (y ++ tail).head? := by
      have h := head?_append_congr (r := fun b b' => q b = q b') (fun _ => rfl)
        (z := []) hstop.sees.symm y
      rwa [List.append_nil] at h
    have hholds := hsees a (List.mem_singleton_self a) _ _ _ _ hx hnext
    rw [matchThen, matchThen, hs.left.before, hs.left.rest, hs.right.before, hs.right.rest, hholds]
    split_ifs
    · exact hk.here hs
    · exact .none
  | seq p₁ p₂ ih₁ ih₂ =>
    obtain ⟨hsees₁, hsees₂⟩ := hsees.of_append rfl
    obtain ⟨hstop₁, hstop₂⟩ := hstop.of_or fun _ => rfl
    refine ih₁ hsees₁ hstop₁ hx hs fun u v t t' hy ht => ?_
    subst hy
    exact ih₂ hsees₂ hstop₂ (before_append hx u) ht hk.drop
  | alt p₁ p₂ ih₁ ih₂ =>
    obtain ⟨hsees₁, hsees₂⟩ := hsees.of_append rfl
    obtain ⟨hstop₁, hstop₂⟩ := hstop.of_or fun _ => rfl
    exact rel_orElse (ih₁ hsees₁ hstop₁ hx hs hk) (ih₂ hsees₂ hstop₂ hx hs hk)
  | follow p₁ p₂ ih₁ ih₂ =>
    obtain ⟨hsees₁, hsees₂⟩ := hsees.of_append rfl
    obtain ⟨hstop₁, hstop₂⟩ := hstop.of_or fun _ => rfl
    refine ih₁ hsees₁ hstop₁ hx hs fun u v t t' hy ht => ?_
    subst hy
    refine rel_ite_lt hs ht (fun _ => ?_) (fun _ => hk u v t t' rfl ht)
    exact ih₂ hsees₂ hstop₂ (before_append hx u) ht hk.drop
  | loop greedy p ih =>
    refine rel_iterate (fun hx hs hk => ih hsees ⟨hstop.sees, hstop.lacks⟩ hx hs hk) hx hs hk
      ?_ ?_
    · rw [hs.left.rest]
    · rw [hs.right.rest]
  | group index p ih =>
    refine ih hsees ⟨hstop.sees, hstop.lacks⟩ hx hs fun w z t t' hy ht => hk w z _ _ hy ?_
    subst hy
    obtain ⟨hmark, htexts⟩ := hs.left.mark ht.left index
    obtain ⟨hmark', htexts'⟩ := Between.mark (w := w) (by simpa using hs.right) ht.right index
    exact ⟨hmark, hmark', by rw [htexts, htexts', ht.texts]⟩

/-- Matches with the same text and the same groups. -/
def SameMatch (m m' : Match) : Prop :=
  m.text = m'.text ∧ m.texts = m'.texts

/-- The same is found at both places. -/
theorem rel_matchAt? (hsees : p.SeesOnly q) (hstop : p.StopsAt q tail)
    (hx : q x.getLast? = q x'.getLast?) :
    Option.Rel SameMatch (p.matchAt? (place x y)) (p.matchAt? (place x' (y ++ tail))) := by
  refine rel_matchThen hsees hstop hx ⟨between_place x y, between_place x' (y ++ tail), rfl⟩ ?_
  rintro w z t t' rfl ht
  have hlength {x z : List Char} {t : Cursor} (ht : t.Between (x ++ w) z) :
      t.offset - x.length = w.length := by
    rw [ht.offset, List.length_append, Nat.add_sub_cancel_left]
  refine .some ⟨?_, ht.texts⟩
  simp only [place, hlength ht.left, hlength ht.right, List.append_assoc, List.take_left]

theorem matchAt?_append_eq_none (hsees : p.SeesOnly q) (hstop : p.StopsAt q tail)
    (hx : q x.getLast? = q x'.getLast?) (h : p.matchAt? (place x y) = none) :
    p.matchAt? (place x' (y ++ tail)) = none := by
  have hrel := rel_matchAt? (y := y) hsees hstop hx
  rw [h] at hrel
  generalize p.matchAt? (place x' (y ++ tail)) = found at hrel ⊢
  cases hrel
  rfl

theorem exists_matchAt?_append {m : Match} (hsees : p.SeesOnly q) (hstop : p.StopsAt q tail)
    (hx : q x.getLast? = q x'.getLast?) (h : p.matchAt? (place x y) = some m) :
    ∃ m', p.matchAt? (place x' (y ++ tail)) = some m' ∧ SameMatch m m' := by
  have hrel := rel_matchAt? (y := y) hsees hstop hx
  rw [h] at hrel
  generalize p.matchAt? (place x' (y ++ tail)) = found at hrel ⊢
  cases hrel with
  | some hsame => exact ⟨_, rfl, hsame⟩

/-! ### The walk -/

variable {f : Match → List Char} {out out' : List Char}

/-- A walk has one outcome. -/
theorem Rewrites.unique (hp : p.nullable = false) (h : p.Rewrites f x y out)
    (h' : p.Rewrites f x y out') : out = out' := by
  induction h generalizing out' with
  | nil =>
    generalize hy : ([] : List Char) = y at h'
    cases h' with
    | nil => rfl
    | plain => cases hy
    | found _ hread => exact absurd (List.append_eq_nil_iff.mp hy.symm).1 (hread.ne_nil hp)
  | @plain x y out c hnone _ ih =>
    generalize hy : c :: y = y' at h'
    cases h' with
    | nil => cases hy
    | plain _ rest =>
      obtain ⟨rfl, rfl⟩ := List.cons.inj hy
      rw [ih rest]
    | found hfound =>
      rw [← hy, hnone] at hfound
      cases hfound
  | @found x y out m hfound hread _ ih =>
    generalize hy : m.text ++ y = y' at h'
    cases h' with
    | nil => exact absurd (List.append_eq_nil_iff.mp hy).1 (hread.ne_nil hp)
    | plain hnone =>
      rw [← hy, hfound] at hnone
      cases hnone
    | found hfound' _ rest =>
      rw [← hy, hfound] at hfound'
      obtain rfl := Option.some.inj hfound'
      rw [ih (List.append_cancel_left hy ▸ rest)]

/-- A walk through the front of a text does what it does to that front alone, where the pattern
takes the rest for the end of the text. -/
theorem Rewrites.append (hsees : p.SeesOnly q) (hstop : p.StopsAt q tail)
    (hf : ∀ m m', SameMatch m m' → f m = f m') (h : p.Rewrites f x y out)
    (hx : q x.getLast? = q x'.getLast?) (htail : p.Rewrites f (x' ++ y) tail out') :
    p.Rewrites f x' (y ++ tail) (out ++ out') := by
  induction h generalizing x' with
  | nil => rwa [List.append_nil] at htail
  | @plain x y out c hnone _ ih =>
    refine .plain (matchAt?_append_eq_none hsees hstop hx hnone) (ih ?_ ?_)
    · rw [List.getLast?_concat, List.getLast?_concat]
    · rwa [← List.append_cons]
  | @found x y out m hfound hread _ ih =>
    obtain ⟨m', hmatch, hsame⟩ := exists_matchAt?_append hsees hstop hx hfound
    obtain ⟨z, hz, hread'⟩ := exists_reads_of_matchAt? hmatch
    rw [List.append_assoc, hsame.1] at hz
    obtain rfl := List.append_cancel_left hz
    have hrest : p.Rewrites f (x' ++ m'.text) (y ++ tail) (out ++ out') := by
      rw [← hsame.1]
      exact ih (before_append hx m.text) (by rwa [List.append_assoc])
    rw [List.append_assoc, hsame.1] at hmatch
    rw [hf m m' hsame, hsame.1, List.append_assoc, List.append_assoc]
    exact .found hmatch hread' hrest

end Pattern

end Raceway
