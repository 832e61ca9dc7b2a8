import Mathlib
import Raceway.Proofs.Pattern.Replacing
/-!
# Texts that differ in some parts

Two texts are aligned when one comes from the other by putting some parts in place of others, and
keeping all characters between them. A kind of parts that a text does not have at the places that
are kept cannot come into being that way, if it withstands the swaps: a part of the kind neither
starts in what is put in nor reaches into it, and does not notice next to it what was swapped.

## Main definitions

* `Raceway.Aligned`: a text next to one in which some parts are swapped.
* `Raceway.PartKind.Withstands`: swaps bring no parts of a kind into being.

## Main results

* `Raceway.Aligned.avoids`: a text that is aligned with another one avoids a kind that withstands
  the swaps.
* `Raceway.Pattern.Rewrites.aligned`: what a replacement leaves is aligned with what was there.
-/

namespace Raceway

/-- The rest of a text, behind a part that is passed, next to a rest in which some parts are
swapped. Where a character is kept, the text is as required from there on. -/
inductive Aligned (free swap : List Char → List Char → Prop) :
    List Char → List Char → List Char → Prop
  | nil (x : List Char) : Aligned free swap x [] []
  | keep {x y y' : List Char} {c : Char} (h : free x (c :: y))
    (rest : Aligned free swap (x ++ [c]) y y') : Aligned free swap x (c :: y) (c :: y')
  | swap {x y y' old new : List Char} (h : swap old new)
    (rest : Aligned free swap (x ++ old) y y') : Aligned free swap x (old ++ y) (new ++ y')

/-- No part of the kind starts at the place between two parts of a text. -/
def PartKind.Free (kind : PartKind) (x y : List Char) : Prop :=
  ∀ w z, y = w ++ z → ¬ kind x w z

/-- Swaps bring no parts of the kind into being: such a part depends on the next character on either
side alone, does not reach into what is put in or start there, and finds the same surroundings next
to it. -/
structure PartKind.Withstands (kind : PartKind) (swap : List Char → List Char → Prop) : Prop where
  /-- No part of the kind is empty. -/
  ne_nil : ∀ {x w z}, kind x w z → w ≠ []
  /-- What comes before matters through its last character. -/
  before : ∀ {x x' w z c}, kind (x' ++ [c]) w z → kind (x ++ [c]) w z
  /-- What comes behind matters through its first character. -/
  after : ∀ {x w z z'}, z.head? = z'.head? → kind x w z → kind x w z'
  /-- No part of the kind reaches into what is put in. -/
  reaches : ∀ {old new x u v z y}, swap old new → u ≠ [] → v ≠ [] → v ++ z = new ++ y →
    ¬ kind x (u ++ v) z
  /-- No part of the kind starts in what is put in. -/
  starts : ∀ {old new x u v w z y}, swap old new → new = u ++ v → v ≠ [] → v ++ y = w ++ z →
    ¬ kind (x ++ u) w z
  /-- Behind what is put in it is as it was. -/
  behind : ∀ {old new x x' w z}, swap old new → kind (x' ++ new) w z → kind (x ++ old) w z
  /-- In front of what is put in it is as it was. -/
  front : ∀ {old new x w y y'}, swap old new → kind x w (new ++ y') → kind x w (old ++ y)

namespace Aligned

variable {free swap : List Char → List Char → Prop} {x y y' z : List Char} {kind : PartKind}

/-- A part of the kind that has started goes on in the same way in the text that is aligned. -/
theorem exists_append (hkind : kind.Withstands swap) (h : Aligned free swap x y y')
    {x₀ u v : List Char} (hu : u ≠ []) (hy : y' = v ++ z) (hpart : kind x₀ (u ++ v) z) :
    ∃ z', y = v ++ z' ∧ kind x₀ (u ++ v) z' := by
  induction h generalizing u v with
  | nil =>
    obtain ⟨rfl, rfl⟩ := List.append_eq_nil_iff.mp hy.symm
    exact ⟨[], rfl, hpart⟩
  | @keep x y y' c _ _ ih =>
    cases v with
    | nil =>
      obtain rfl := hy
      have hhead : (c :: y').head? = (c :: y).head? := rfl
      exact ⟨c :: y, rfl, hkind.after hhead hpart⟩
    | cons d v =>
      obtain ⟨rfl, hrest⟩ := List.cons.inj hy
      rw [List.append_cons] at hpart ⊢
      obtain ⟨z', rfl, hpart'⟩ := ih (List.append_ne_nil_of_left_ne_nil hu _) hrest hpart
      exact ⟨z', rfl, hpart'⟩
  | @swap x y y' old new hswap _ ih =>
    rcases eq_or_ne v [] with rfl | hv
    · obtain rfl : new ++ y' = z := hy
      exact ⟨old ++ y, rfl, hkind.front hswap hpart⟩
    · exact absurd hpart (hkind.reaches hswap hu hv hy.symm)

/-- A text avoids a kind that withstands the swaps, if the kind does not start at a place that is
kept. -/
theorem not_kind (hkind : kind.Withstands swap) (h : Aligned kind.Free swap x y y')
    {x' : List Char} (hx : ∀ w z, kind x' w z → kind x w z) {u w : List Char}
    (hy : y' = u ++ (w ++ z)) : ¬ kind (x' ++ u) w z := by
  intro hpart
  induction h generalizing x' u with
  | nil =>
    obtain ⟨-, hwz⟩ := List.append_eq_nil_iff.mp hy.symm
    exact hkind.ne_nil hpart (List.append_eq_nil_iff.mp hwz).1
  | @keep x y y' c hfree hrest ih =>
    cases u with
    | nil =>
      -- The part starts at the character that is kept, and goes on as in the text before.
      obtain ⟨d, v, rfl⟩ := List.exists_cons_of_ne_nil (hkind.ne_nil hpart)
      obtain ⟨rfl, hv⟩ := List.cons.inj hy
      rw [List.append_nil] at hpart
      obtain ⟨z', rfl, hpart'⟩ :=
        exists_append hkind hrest (u := [c]) (List.cons_ne_nil _ _) hv (hx _ _ hpart)
      exact hfree (c :: v) z' rfl hpart'
    | cons d u =>
      obtain ⟨rfl, hu⟩ := List.cons.inj hy
      rw [List.append_cons] at hpart
      exact ih (fun w z => hkind.before) hu hpart
  | @swap x y y' old new hswap hrest ih =>
    rcases List.append_eq_append_iff.mp hy with ⟨v, rfl, hv⟩ | ⟨v, rfl, hv⟩
    · rw [← List.append_assoc] at hpart
      exact ih (fun w z => hkind.behind hswap) hv hpart
    · rcases eq_or_ne v [] with rfl | hne
      · rw [List.append_nil] at hswap
        rw [← List.append_nil (x' ++ u)] at hpart
        exact ih (u := []) (fun w z => hkind.behind hswap) hv.symm hpart
      · exact hkind.starts hswap rfl hne hv.symm hpart

/-- A text that is aligned with another one avoids a kind that withstands the swaps. -/
theorem avoids (hkind : kind.Withstands swap) (h : Aligned kind.Free swap [] y y') :
    Avoids kind y' :=
  fun _ _ _ hy => h.not_kind hkind (fun _ _ => id) hy

/-- Characters that are kept one after the other. -/
theorem keeps {s : List Char} (hfree : ∀ u v, s = u ++ v → v ≠ [] → free (x ++ u) (v ++ y))
    (rest : Aligned free swap (x ++ s) y y') : Aligned free swap x (s ++ y) (s ++ y') := by
  induction s generalizing x with
  | nil => rwa [List.append_nil] at rest
  | cons c s ih =>
    refine .keep ?_ (ih (fun u v hs hv => ?_) ?_)
    · simpa using hfree [] (c :: s) rfl (List.cons_ne_nil _ _)
    · simpa using hfree (c :: u) v (congrArg (c :: ·) hs) hv
    · rwa [← List.append_cons]

end Aligned

/-- A text that avoids the kind is free of it at each of its places. -/
theorem Avoids.free {kind : PartKind} {text x y : List Char} (h : Avoids kind text)
    (hxy : text = x ++ y) : kind.Free x y :=
  fun w z hy => h x w z (hxy.trans (congrArg (x ++ ·) hy))

namespace Pattern

open Cursor

/-- What a replacement leaves is aligned with what was there, if that holds for each part that is
replaced. -/
theorem Rewrites.aligned {p : Pattern} {f : Match → List Char} {x y out : List Char}
    {free swap : List Char → List Char → Prop} (h : p.Rewrites f x y out)
    (hplain : ∀ u v, y = u ++ v → (∀ w z, v = w ++ z → ¬ p.Finds (x ++ u) w z) → free (x ++ u) v)
    (hfound : ∀ u v v' m, y = u ++ (m.text ++ v) → p.Reads (x ++ u) m.text v m.texts →
      Aligned free swap (x ++ u ++ m.text) v v' →
        Aligned free swap (x ++ u) (m.text ++ v) (f m ++ v')) :
    Aligned free swap x y out := by
  induction h with
  | nil => exact .nil _
  | @plain x y out c hnone _ ih =>
    refine .keep ?_ (ih (fun u v hy hfree => ?_) fun u v v' m hy hread hrest => ?_)
    · have hfree := hplain [] (c :: y) rfl
      rw [List.append_nil] at hfree
      exact hfree fun w z hwz => not_finds_of_matchAt? (hwz ▸ hnone)
    · rw [← List.append_cons] at hfree ⊢
      exact hplain (c :: u) v (congrArg (c :: ·) hy) hfree
    · rw [← List.append_cons] at hread hrest ⊢
      exact hfound (c :: u) v v' m (congrArg (c :: ·) hy) hread hrest
  | @found x y out m _ hread _ ih =>
    have hout := hfound [] y out m rfl
    simp only [List.append_nil] at hout
    refine hout hread (ih (fun u v hy hfree => ?_) fun u v v' m' hy hread' hrest => ?_)
    · rw [List.append_assoc] at hfree ⊢
      exact hplain (m.text ++ u) v (by rw [hy, List.append_assoc]) hfree
    · rw [List.append_assoc x] at hread' hrest ⊢
      exact hfound (m.text ++ u) v v' m' (by rw [hy, List.append_assoc]) hread' hrest

end Pattern

end Raceway
