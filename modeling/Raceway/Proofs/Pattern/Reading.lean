import Mathlib
import Raceway.Pattern.Search
/-!
# What a pattern reads

A pattern reads a part of a text between what comes before and what comes behind. That is a relation
and says nothing of which of several parts the matcher prefers. The matcher finds only parts that
the pattern reads, with the groups that it marks in them; and where the pattern reads some part that
the matcher can go on behind, the matcher finds one.

## Main definitions

* `Raceway.Pattern.Reads`: the pattern reads a part of a text and marks groups in it.
* `Raceway.Pattern.mentions` and `Raceway.Pattern.assertions`: the characters and the conditions
  that a pattern can use.
* `Raceway.Pattern.Gathers`: the groups of a pattern hold all characters of a kind.

## Main results

* `Raceway.Pattern.exists_passes_of_matchThen`: the matcher finds only what the pattern reads.
* `Raceway.Pattern.Reads.isSome_matchThen`: the matcher finds something where the pattern reads.
* `Raceway.Pattern.Reads.filter_eq`: the groups are what is read of the characters that they gather.
* `Raceway.Pattern.Reads.congr_context`: what is read depends on its surroundings through the
  conditions alone.
-/

namespace Raceway

/-! ### Places -/

/-- The place lies between two parts of a text. -/
structure Cursor.Between (s : Cursor) (x y : List Char) : Prop where
  /-- It counts the characters in front. -/
  offset : s.offset = x.length
  /-- It knows the last one of them. -/
  before : s.before = x.getLast?
  /-- It knows what follows. -/
  rest : s.rest = y

/-- The texts of the groups that are marked so far. -/
def Cursor.texts (s : Cursor) : List (ℕ × List Char) :=
  s.groups.map fun g => (g.1, g.2.text)

namespace Cursor.Between

variable {s t : Cursor} {x y w z : List Char}

theorem take? {chars : CharClass} (h : s.take? chars = some t) (hs : s.Between x y) :
    ∃ c z, y = c :: z ∧ chars.has c = true ∧ t.Between (x ++ [c]) z ∧ t.texts = s.texts := by
  rw [Cursor.take?, hs.rest] at h
  cases y with
  | nil => cases h
  | cons c z =>
    obtain ⟨hc, h⟩ := Option.ite_none_right_eq_some.mp h
    obtain rfl := Option.some.inj h
    refine ⟨c, z, rfl, hc, ⟨?_, ?_, rfl⟩, rfl⟩
    · rw [hs.offset, List.length_append, List.length_singleton]
    · rw [List.getLast?_concat]

theorem exists_take? {chars : CharClass} {c : Char} (hc : chars.has c = true)
    (hs : s.Between x (c :: z)) : ∃ t, s.take? chars = some t ∧ t.Between (x ++ [c]) z := by
  refine ⟨⟨s.offset + 1, some c, z, s.groups⟩, ?_, ?_, ?_, rfl⟩
  · rw [Cursor.take?, hs.rest]
    exact if_pos hc
  · rw [hs.offset, List.length_append, List.length_singleton]
  · rw [List.getLast?_concat]

theorem take?_eq_none {chars : CharClass} (hs : s.Between x y)
    (h : ∀ c, y.head? = some c → chars.has c = false) : s.take? chars = none := by
  rw [Cursor.take?, hs.rest]
  cases y with
  | nil => rfl
  | cons c z => exact if_neg (by rw [h c rfl]; exact Bool.false_ne_true)

theorem mark (hs : s.Between x (w ++ z)) (ht : t.Between (x ++ w) z) (index : ℕ) :
    (s.mark index t).Between (x ++ w) z ∧ (s.mark index t).texts = (index, w) :: t.texts := by
  refine ⟨⟨ht.offset, ht.before, ht.rest⟩, ?_⟩
  rw [Cursor.mark, texts, List.map_cons, hs.rest, hs.offset, ht.offset, List.length_append,
    Nat.add_sub_cancel_left, List.take_left]
  rfl

theorem lt_iff (hs : s.Between x (w ++ z)) (ht : t.Between (x ++ w) z) :
    t.rest.length < s.rest.length ↔ w ≠ [] := by
  rw [hs.rest, ht.rest, List.length_append, ← List.length_pos_iff]
  omega

end Cursor.Between

namespace Pattern

/-! ### Reading -/

/-- The pattern reads a part of a text, between what comes before and what comes behind, and marks
groups in it, the last one first. -/
inductive Reads :
    Pattern → List Char → List Char → List Char → List (ℕ × List Char) → Prop
  | empty {x z : List Char} : Reads .empty x [] z []
  | one {chars : CharClass} {x z : List Char} {c : Char} (h : chars.has c = true) :
    Reads (.one chars) x [c] z []
  | assert {a : Assertion} {x z : List Char} (h : a.holds x.getLast? z.head? = true) :
    Reads (.assert a) x [] z []
  | seq {p q : Pattern} {x u v z : List Char} {gs hs : List (ℕ × List Char)}
    (hp : Reads p x u (v ++ z) gs) (hq : Reads q (x ++ u) v z hs) :
    Reads (.seq p q) x (u ++ v) z (hs ++ gs)
  | altLeft {p q : Pattern} {x w z : List Char} {gs : List (ℕ × List Char)}
    (h : Reads p x w z gs) : Reads (.alt p q) x w z gs
  | altRight {p q : Pattern} {x w z : List Char} {gs : List (ℕ × List Char)}
    (h : Reads q x w z gs) : Reads (.alt p q) x w z gs
  | followStop {p q : Pattern} {x z : List Char} {gs : List (ℕ × List Char)}
    (h : Reads p x [] z gs) : Reads (.follow p q) x [] z gs
  | follow {p q : Pattern} {x u v z : List Char} {gs hs : List (ℕ × List Char)} (hu : u ≠ [])
    (hp : Reads p x u (v ++ z) gs) (hq : Reads q (x ++ u) v z hs) :
    Reads (.follow p q) x (u ++ v) z (hs ++ gs)
  | loopStop {greedy : Bool} {p : Pattern} {x z : List Char} : Reads (.loop greedy p) x [] z []
  | loop {greedy : Bool} {p : Pattern} {x u v z : List Char} {gs hs : List (ℕ × List Char)}
    (hu : u ≠ []) (hp : Reads p x u (v ++ z) gs) (hq : Reads (.loop greedy p) (x ++ u) v z hs) :
    Reads (.loop greedy p) x (u ++ v) z (hs ++ gs)
  | group {index : ℕ} {p : Pattern} {x w z : List Char} {gs : List (ℕ × List Char)}
    (h : Reads p x w z gs) : Reads (.group index p) x w z ((index, w) :: gs)

/-- The pattern reads a part of a text, with whatever groups. -/
def Finds (p : Pattern) (x w z : List Char) : Prop :=
  ∃ gs, p.Reads x w z gs

/-! ### The matcher finds only what is read -/

variable {β : Type} {p q : Pattern} {x y w z : List Char} {gs : List (ℕ × List Char)}

/-- A place behind a part that the pattern reads, where the groups are marked. -/
structure Passes (p : Pattern) (s t : Cursor) (x w z : List Char) : Prop where
  /-- The place lies behind the part. -/
  between : t.Between (x ++ w) z
  /-- The pattern reads the part, and marks the groups that are added. -/
  reads : ∃ gs, p.Reads x w z gs ∧ t.texts = gs ++ s.texts

/-- What a repetition finds is read piece by piece. -/
theorem exists_passes_of_iterate {greedy : Bool} {r : β}
    (hp : ∀ {k : Cursor → Option β} {s : Cursor} {x y : List Char}, p.matchThen k s = some r →
      s.Between x y → ∃ w z t, y = w ++ z ∧ p.Passes s t x w z ∧ k t = some r)
    {k : Cursor → Option β} {n : ℕ} {s : Cursor}
    (h : iterate p.matchThen greedy k n s = some r) (hs : s.Between x y) :
    ∃ w z t, y = w ++ z ∧ (loop greedy p).Passes s t x w z ∧ k t = some r := by
  induction n generalizing s x y with
  | zero => exact ⟨[], y, s, rfl, ⟨by rwa [List.append_nil], [], .loopStop, rfl⟩, h⟩
  | succ n ih =>
    have hstop (hk : k s = some r) :
        ∃ w z t, y = w ++ z ∧ (loop greedy p).Passes s t x w z ∧ k t = some r :=
      ⟨[], y, s, rfl, ⟨by rwa [List.append_nil], [], .loopStop, rfl⟩, hk⟩
    have hagain (hstep : p.matchThen (fun t => if t.rest.length < s.rest.length then
        iterate p.matchThen greedy k n t else none) s = some r) :
        ∃ w z t, y = w ++ z ∧ (loop greedy p).Passes s t x w z ∧ k t = some r := by
      obtain ⟨u, v, t, rfl, ⟨ht, gs, hread, htexts⟩, hk⟩ := hp hstep hs
      obtain ⟨hlt, hk⟩ := Option.ite_none_right_eq_some.mp hk
      obtain ⟨v, z, t', rfl, ⟨ht', hs', hread', htexts'⟩, hk⟩ := ih hk ht
      refine ⟨u ++ v, z, t', (List.append_assoc u v z).symm, ⟨?_, hs' ++ gs, ?_, ?_⟩, hk⟩
      · rwa [← List.append_assoc]
      · exact .loop ((hs.lt_iff ht).mp hlt) hread hread'
      · rw [htexts', htexts, List.append_assoc]
    rw [iterate] at h
    cases greedy with
    | true =>
      rcases Option.or_eq_some_iff.mp ((Option.orElse_eq_or ..).symm.trans h) with h | ⟨-, h⟩
      · exact hagain h
      · exact hstop h
    | false =>
      rcases Option.or_eq_some_iff.mp ((Option.orElse_eq_or ..).symm.trans h) with h | ⟨-, h⟩
      · exact hstop h
      · exact hagain h

/-- The matcher finds only what the pattern reads. -/
theorem exists_passes_of_matchThen {k : Cursor → Option β} {s : Cursor} {r : β}
    (h : p.matchThen k s = some r) (hs : s.Between x y) :
    ∃ w z t, y = w ++ z ∧ p.Passes s t x w z ∧ k t = some r := by
  induction p generalizing k s x y with
  | empty => exact ⟨[], y, s, rfl, ⟨by rwa [List.append_nil], [], .empty, rfl⟩, h⟩
  | one chars =>
    obtain ⟨t, ht, hk⟩ := Option.bind_eq_some_iff.mp h
    obtain ⟨c, z, rfl, hc, ht, htexts⟩ := hs.take? ht
    exact ⟨[c], z, t, rfl, ⟨ht, [], .one hc, htexts⟩, hk⟩
  | assert a =>
    obtain ⟨ha, hk⟩ := Option.ite_none_right_eq_some.mp h
    rw [hs.before, hs.rest] at ha
    exact ⟨[], y, s, rfl, ⟨by rwa [List.append_nil], [], .assert ha, rfl⟩, hk⟩
  | seq p q ihp ihq =>
    obtain ⟨u, y, t, rfl, ⟨ht, gs, hread, htexts⟩, hk⟩ := ihp h hs
    obtain ⟨v, z, t', rfl, ⟨ht', hs', hread', htexts'⟩, hk⟩ := ihq hk ht
    refine ⟨u ++ v, z, t', (List.append_assoc u v z).symm, ⟨?_, hs' ++ gs, .seq hread hread', ?_⟩,
      hk⟩
    · rwa [← List.append_assoc]
    · rw [htexts', htexts, List.append_assoc]
  | alt p q ihp ihq =>
    rcases Option.or_eq_some_iff.mp ((Option.orElse_eq_or ..).symm.trans h) with h | ⟨-, h⟩
    · obtain ⟨w, z, t, hy, ⟨ht, gs, hread, htexts⟩, hk⟩ := ihp h hs
      exact ⟨w, z, t, hy, ⟨ht, gs, .altLeft hread, htexts⟩, hk⟩
    · obtain ⟨w, z, t, hy, ⟨ht, gs, hread, htexts⟩, hk⟩ := ihq h hs
      exact ⟨w, z, t, hy, ⟨ht, gs, .altRight hread, htexts⟩, hk⟩
  | follow p q ihp ihq =>
    obtain ⟨u, y, t, rfl, ⟨ht, gs, hread, htexts⟩, hk⟩ := ihp h hs
    rcases eq_or_ne u [] with rfl | hu
    · rw [if_neg (not_not.mpr rfl ∘ (hs.lt_iff ht).mp)] at hk
      exact ⟨[], y, t, rfl, ⟨ht, gs, .followStop hread, htexts⟩, hk⟩
    · rw [if_pos ((hs.lt_iff ht).mpr hu)] at hk
      obtain ⟨v, z, t', rfl, ⟨ht', hs', hread', htexts'⟩, hk⟩ := ihq hk ht
      refine ⟨u ++ v, z, t', (List.append_assoc u v z).symm,
        ⟨?_, hs' ++ gs, .follow hu hread hread', ?_⟩, hk⟩
      · rwa [← List.append_assoc]
      · rw [htexts', htexts, List.append_assoc]
  | loop greedy p ih => exact exists_passes_of_iterate ih h hs
  | group index p ih =>
    obtain ⟨w, z, t, rfl, ⟨ht, gs, hread, htexts⟩, hk⟩ := ih h hs
    obtain ⟨hmark, hmarked⟩ := hs.mark ht index
    exact ⟨w, z, _, rfl, ⟨hmark, _, .group hread, by rw [hmarked, htexts]; rfl⟩, hk⟩

/-! ### The matcher finds something where something is read -/

/-- Where a repetition reads, the matcher finds something, if it can go on often enough. -/
theorem isSome_iterate {greedy : Bool}
    (hp : ∀ {x w z : List Char} {gs : List (ℕ × List Char)}, p.Reads x w z gs →
      ∀ {k : Cursor → Option β} {s : Cursor}, s.Between x (w ++ z) →
        (∀ t : Cursor, t.Between (x ++ w) z → (k t).isSome = true) →
          (p.matchThen k s).isSome = true)
    {k : Cursor → Option β} {n : ℕ} {s : Cursor} (h : (loop greedy p).Reads x w z gs)
    (hs : s.Between x (w ++ z)) (hn : w.length ≤ n)
    (hk : ∀ t : Cursor, t.Between (x ++ w) z → (k t).isSome = true) :
    (iterate p.matchThen greedy k n s).isSome = true := by
  induction n generalizing s x w gs with
  | zero =>
    obtain rfl := List.eq_nil_of_length_eq_zero (Nat.le_zero.mp hn)
    exact hk s (by rwa [List.append_nil])
  | succ n ih =>
    have heither (h : (k s).isSome = true ∨
        (p.matchThen (fun t => if t.rest.length < s.rest.length then
          iterate p.matchThen greedy k n t else none) s).isSome = true) :
        (iterate p.matchThen greedy k (n + 1) s).isSome = true := by
      rw [iterate]
      cases greedy <;> simpa [Option.orElse_eq_or, Option.isSome_or, or_comm] using h
    cases h with
    | loopStop => exact heither (.inl (hk s (by rwa [List.append_nil])))
    | loop hu hread hrest =>
      rw [List.append_assoc] at hs
      refine heither (.inr (hp hread hs fun t ht => ?_))
      rw [if_pos ((hs.lt_iff ht).mpr hu)]
      have hlength := List.length_pos_iff.mpr hu
      rw [List.length_append] at hn
      exact ih hrest ht (by omega) fun t ht => hk t (by rwa [← List.append_assoc])

/-- Where the pattern reads a part of a text that the matcher can go on behind, it finds one. -/
theorem Reads.isSome_matchThen (h : p.Reads x w z gs) {k : Cursor → Option β} {s : Cursor}
    (hs : s.Between x (w ++ z))
    (hk : ∀ t : Cursor, t.Between (x ++ w) z → (k t).isSome = true) :
    (p.matchThen k s).isSome = true := by
  induction p generalizing k s x w z gs with
  | empty =>
    cases h
    exact hk s (by rwa [List.append_nil])
  | one chars =>
    cases h with
    | one hc =>
      obtain ⟨t, ht, hbetween⟩ := hs.exists_take? hc
      rw [matchThen, ht, Option.bind_some]
      exact hk t hbetween
  | assert a =>
    cases h with
    | assert ha =>
      rw [matchThen, hs.before, hs.rest, List.nil_append, if_pos ha]
      exact hk s (by rwa [List.append_nil])
  | seq p q ihp ihq =>
    cases h with
    | seq hp hq =>
      rw [List.append_assoc] at hs
      refine ihp hp hs fun t ht => ihq hq ht fun t' ht' => hk t' ?_
      rwa [← List.append_assoc]
  | alt p q ihp ihq =>
    rw [matchThen, Option.orElse_eq_or, Option.isSome_or, Bool.or_eq_true]
    cases h with
    | altLeft h => exact .inl (ihp h hs hk)
    | altRight h => exact .inr (ihq h hs hk)
  | follow p q ihp ihq =>
    cases h with
    | followStop h =>
      refine ihp h hs fun t ht => ?_
      rw [if_neg (not_not.mpr rfl ∘ (hs.lt_iff ht).mp)]
      exact hk t ht
    | follow hu hp hq =>
      rw [List.append_assoc] at hs
      refine ihp hp hs fun t ht => ?_
      rw [if_pos ((hs.lt_iff ht).mpr hu)]
      refine ihq hq ht fun t' ht' => hk t' ?_
      rwa [← List.append_assoc]
  | loop greedy p ih =>
    refine isSome_iterate ih h hs ?_ hk
    rw [hs.rest, List.length_append]
    exact Nat.le_add_right _ _
  | group index p ih =>
    cases h with
    | group h => exact ih h hs fun t ht => hk _ (hs.mark ht index).1

/-! ### What is read -/

/-- A pattern that is not nullable reads no empty part. -/
theorem Reads.ne_nil (h : p.Reads x w z gs) (hp : p.nullable = false) : w ≠ [] := by
  induction h with
  | empty => exact Bool.noConfusion hp
  | one h => exact List.cons_ne_nil _ _
  | assert h => exact Bool.noConfusion hp
  | seq _ _ ihp ihq =>
    rcases Bool.and_eq_false_iff.mp hp with hp | hq
    · exact List.append_ne_nil_of_left_ne_nil (ihp hp) _
    · exact List.append_ne_nil_of_right_ne_nil _ (ihq hq)
  | altLeft _ ih => exact ih (Bool.or_eq_false_iff.mp hp).1
  | altRight _ ih => exact ih (Bool.or_eq_false_iff.mp hp).2
  | followStop _ ih => exact ih hp
  | follow hu => exact List.append_ne_nil_of_left_ne_nil hu _
  | loopStop => exact Bool.noConfusion hp
  | loop hu => exact List.append_ne_nil_of_left_ne_nil hu _
  | group _ ih => exact ih hp

/-- The character is in a class that the pattern uses. -/
def mentions : Pattern → Char → Bool
  | empty, _ | assert _, _ => false
  | one chars, c => chars.has c
  | seq p q, c | alt p q, c | follow p q, c => p.mentions c || q.mentions c
  | loop _ p, c | group _ p, c => p.mentions c

/-- All characters of what is read are in classes that the pattern uses. -/
theorem Reads.mentions (h : p.Reads x w z gs) : ∀ c ∈ w, p.mentions c = true := by
  induction h with
  | empty | assert | loopStop => exact fun c hc => absurd hc List.not_mem_nil
  | one h =>
    intro c hc
    rwa [List.mem_singleton.mp hc]
  | seq _ _ ihp ihq | follow _ _ _ ihp ihq =>
    intro c hc
    rw [Pattern.mentions, Bool.or_eq_true]
    exact (List.mem_append.mp hc).imp (ihp c) (ihq c)
  | altLeft _ ih => exact fun c hc => Bool.or_eq_true_iff.mpr (.inl (ih c hc))
  | altRight _ ih => exact fun c hc => Bool.or_eq_true_iff.mpr (.inr (ih c hc))
  | followStop _ ih => exact fun c hc => Bool.or_eq_true_iff.mpr (.inl (ih c hc))
  | loop _ _ _ ihp ihq => exact fun c hc => (List.mem_append.mp hc).elim (ihp c) (ihq c)
  | group _ ih => exact ih

/-- A character that the pattern does not use is not in what is read. -/
theorem Reads.not_mem (h : p.Reads x w z gs) {c : Char} (hc : p.mentions c = false) : c ∉ w :=
  fun hmem => Bool.eq_false_iff.mp hc (h.mentions c hmem)

/-- The pattern has no groups. -/
def ungrouped : Pattern → Bool
  | empty | one _ | assert _ => true
  | seq p q | alt p q | follow p q => p.ungrouped && q.ungrouped
  | loop _ p => p.ungrouped
  | group _ _ => false

/-- A pattern without groups marks none. -/
theorem Reads.groups_eq_nil (h : p.Reads x w z gs) (hp : p.ungrouped = true) : gs = [] := by
  induction h with
  | empty | one | assert | loopStop => rfl
  | seq _ _ ihp ihq | follow _ _ _ ihp ihq =>
    obtain ⟨hp, hq⟩ := Bool.and_eq_true_iff.mp hp
    rw [ihp hp, ihq hq, List.append_nil]
  | altLeft _ ih => exact ih (Bool.and_eq_true_iff.mp hp).1
  | altRight _ ih => exact ih (Bool.and_eq_true_iff.mp hp).2
  | followStop _ ih => exact ih (Bool.and_eq_true_iff.mp hp).1
  | loop _ _ _ ihp ihq => rw [ihp hp, ihq hp, List.append_nil]
  | group => exact Bool.noConfusion hp

/-- Certain characters are gathered in groups: outside of its groups the pattern uses none of them,
and its groups, which hold no others, use nothing else. -/
def Gathers (q : Char → Bool) : Pattern → Prop
  | empty | assert _ => True
  | one chars => ∀ c, chars.has c = true → q c = false
  | seq p₁ p₂ | alt p₁ p₂ | follow p₁ p₂ => p₁.Gathers q ∧ p₂.Gathers q
  | loop _ p => p.Gathers q
  | group _ p => p.ungrouped = true ∧ ∀ c, p.mentions c = true → q c = true

/-- Where a pattern gathers certain characters, its groups are what it reads of them. -/
theorem Reads.filter_eq {q : Char → Bool} (h : p.Reads x w z gs) (hp : p.Gathers q) :
    w.filter q = (gs.map Prod.snd).reverse.flatten := by
  induction h with
  | empty | assert | loopStop => rfl
  | one hc => exact List.filter_cons_of_neg (by rw [hp _ hc]; exact Bool.false_ne_true)
  | seq _ _ ih₁ ih₂ | follow _ _ _ ih₁ ih₂ =>
    rw [List.filter_append, ih₁ hp.1, ih₂ hp.2, List.map_append, List.reverse_append,
      List.flatten_append]
  | altLeft _ ih => exact ih hp.1
  | altRight _ ih => exact ih hp.2
  | followStop _ ih => exact ih hp.1
  | loop _ _ _ ih₁ ih₂ =>
    rw [List.filter_append, ih₁ hp, ih₂ hp, List.map_append, List.reverse_append,
      List.flatten_append]
  | group hread =>
    rw [hread.groups_eq_nil hp.1, List.filter_eq_self.mpr fun c hc => hp.2 c (hread.mentions c hc)]
    exact (List.append_nil _).symm

theorem Reads.exists_of_seq (h : (Pattern.seq p q).Reads x w z gs) :
    ∃ u v hs hs', w = u ++ v ∧ gs = hs' ++ hs ∧ p.Reads x u (v ++ z) hs ∧
      q.Reads (x ++ u) v z hs' := by
  cases h with
  | seq hp hq => exact ⟨_, _, _, _, rfl, rfl, hp, hq⟩

/-- What a repetition reads ends with a part that is read, if it is not empty. -/
theorem Reads.exists_last_of_loop {greedy : Bool} (h : (Pattern.loop greedy p).Reads x w z gs)
    (hw : w ≠ []) : ∃ u v hs, w = u ++ v ∧ p.Reads (x ++ u) v z hs := by
  generalize hq : Pattern.loop greedy p = q at h
  induction h with
  | loopStop => exact absurd rfl hw
  | @loop greedy' p' x u v z gs hs hu hp hrest _ ih =>
    obtain ⟨rfl, rfl⟩ := Pattern.loop.inj hq
    rcases eq_or_ne v [] with rfl | hv
    · exact ⟨[], u, gs, (List.append_nil u), by simpa using hp⟩
    · obtain ⟨u', v', hs', rfl, hlast⟩ := ih hv rfl
      exact ⟨u ++ u', v', hs', (List.append_assoc u u' v').symm, by rwa [← List.append_assoc]⟩
  | _ => cases hq

/-- What is read once or more often ends with a part that is read. -/
theorem Reads.exists_last_of_plus {greedy : Bool} (hp : p.nullable = false)
    (h : (plus greedy p).Reads x w z gs) : ∃ u v hs, w = u ++ v ∧ p.Reads (x ++ u) v z hs := by
  rw [plus, if_neg (by rw [hp]; exact Bool.false_ne_true)] at h
  obtain ⟨u, v, hs, hs', rfl, rfl, hfirst, hrest⟩ := h.exists_of_seq
  rcases eq_or_ne v [] with rfl | hv
  · exact ⟨[], u, hs, (List.append_nil u), by simpa using hfirst⟩
  · obtain ⟨u', v', hs'', rfl, hlast⟩ := hrest.exists_last_of_loop hv
    exact ⟨u ++ u', v', hs'', (List.append_assoc u u' v').symm, by rwa [← List.append_assoc]⟩

/-! ### Surroundings -/

/-- The conditions that the pattern uses. -/
def assertions : Pattern → List Assertion
  | empty | one _ => []
  | assert a => [a]
  | seq p q | alt p q | follow p q => p.assertions ++ q.assertions
  | loop _ p | group _ p => p.assertions

theorem getLast?_append_congr {r : Option Char → Option Char → Prop} (hr : ∀ c, r c c)
    {x x' : List Char} (h : r x.getLast? x'.getLast?) (u : List Char) :
    r (x ++ u).getLast? (x' ++ u).getLast? := by
  rw [List.getLast?_append, List.getLast?_append]
  cases u.getLast? with
  | none => exact h
  | some c => exact hr _

theorem head?_append_congr {r : Option Char → Option Char → Prop} (hr : ∀ c, r c c)
    {z z' : List Char} (h : r z.head? z'.head?) (v : List Char) :
    r (v ++ z).head? (v ++ z').head? := by
  rw [List.head?_append, List.head?_append]
  cases v.head? with
  | none => exact h
  | some c => exact hr _

/-- What is read does not change with its surroundings, as long as the conditions do not. -/
theorem Reads.congr_context {r s : Option Char → Option Char → Prop}
    (hr : ∀ c, r c c) (hs : ∀ c, s c c)
    (hp : ∀ a ∈ p.assertions, ∀ b b' c c', r b b' → s c c' →
      a.holds b c = true → a.holds b' c' = true)
    (h : p.Reads x w z gs) {x' z' : List Char} (hx : r x.getLast? x'.getLast?)
    (hz : s z.head? z'.head?) : p.Reads x' w z' gs := by
  induction h generalizing x' z' with
  | empty => exact .empty
  | one h => exact .one h
  | assert h => exact .assert (hp _ (List.mem_singleton_self _) _ _ _ _ hx hz h)
  | @seq p q x u v z _ _ _ _ ihp ihq =>
    refine .seq (ihp (fun a ha => hp a (List.mem_append_left _ ha)) hx ?_)
      (ihq (fun a ha => hp a (List.mem_append_right _ ha)) ?_ hz)
    · exact head?_append_congr hs hz v
    · exact getLast?_append_congr hr hx u
  | altLeft _ ih => exact .altLeft (ih (fun a ha => hp a (List.mem_append_left _ ha)) hx hz)
  | altRight _ ih => exact .altRight (ih (fun a ha => hp a (List.mem_append_right _ ha)) hx hz)
  | followStop _ ih => exact .followStop (ih (fun a ha => hp a (List.mem_append_left _ ha)) hx hz)
  | @follow p q x u v z _ _ hu _ _ ihp ihq =>
    refine .follow hu (ihp (fun a ha => hp a (List.mem_append_left _ ha)) hx ?_)
      (ihq (fun a ha => hp a (List.mem_append_right _ ha)) ?_ hz)
    · exact head?_append_congr hs hz v
    · exact getLast?_append_congr hr hx u
  | loopStop => exact .loopStop
  | @loop greedy p x u v z _ _ hu _ _ ihp ihq =>
    refine .loop hu (ihp hp hx ?_) (ihq hp ?_ hz)
    · exact head?_append_congr hs hz v
    · exact getLast?_append_congr hr hx u
  | group _ ih => exact .group (ih hp hx hz)

/-- Without conditions the surroundings do not matter. -/
theorem Reads.of_assertions_eq_nil (h : p.Reads x w z gs) (hp : p.assertions = [])
    (x' z' : List Char) : p.Reads x' w z' gs := by
  refine h.congr_context (r := fun _ _ => True) (s := fun _ _ => True)
    (fun _ => trivial) (fun _ => trivial) (fun a ha => ?_) trivial trivial
  rw [hp] at ha
  exact absurd ha List.not_mem_nil

end Pattern

end Raceway
