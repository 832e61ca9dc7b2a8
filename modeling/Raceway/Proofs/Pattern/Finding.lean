import Mathlib
import Raceway.Proofs.Pattern.Replacing
/-!
# What is found in a text

The matches in a text are read from left to right, and apart from each other. A match knows the
number of characters in front of it, so its place is that of a part which the pattern reads.

## Main results

* `Raceway.Pattern.exists_reads_of_mem_findAll`: each match is a part of the text that is read.
* `Raceway.Pattern.pairwise_findAll`: the matches come in order, and do not overlap.
* `Raceway.Pattern.apart_of_mem_findAll`: so two of them are apart.
-/

namespace Raceway.Pattern

open Cursor

variable {p : Pattern} {x y : List Char} {ps : List Piece} {m : Match}

/-- A match starts where it is found. -/
theorem start_of_matchAt? (h : p.matchAt? (place x y) = some m) : m.start = x.length := by
  obtain ⟨-, -, t, -, -, hm⟩ := exists_passes_of_matchThen h (between_place x y)
  rw [← Option.some.inj hm]
  rfl

/-- The matches of a walk are read where they start, behind what is passed. -/
theorem Walks.exists_reads (h : p.Walks x y ps) (hm : m ∈ ps.filterMap Piece.match?) :
    ∃ u z, y = u ++ (m.text ++ z) ∧ m.start = (x ++ u).length ∧
      p.Reads (x ++ u) m.text z m.texts := by
  induction h with
  | nil => exact absurd hm List.not_mem_nil
  | @plain x y c ps _ _ ih =>
    obtain ⟨u, z, rfl, hplace⟩ := ih hm
    refine ⟨c :: u, z, rfl, ?_⟩
    rw [List.append_cons]
    exact hplace
  | @found x y n ps hmatch hread _ ih =>
    rcases List.mem_cons.mp hm with rfl | hm
    · refine ⟨[], y, rfl, ?_⟩
      rw [List.append_nil]
      exact ⟨start_of_matchAt? hmatch, hread⟩
    · obtain ⟨u, z, rfl, hplace⟩ := ih hm
      refine ⟨n.text ++ u, z, (List.append_assoc ..).symm, ?_⟩
      rw [← List.append_assoc]
      exact hplace

/-- The matches of a walk come in order, and do not overlap. -/
theorem Walks.pairwise (h : p.Walks x y ps) :
    (ps.filterMap Piece.match?).Pairwise fun m n => m.stop ≤ n.start := by
  induction h with
  | nil => exact .nil
  | plain _ _ ih => exact ih
  | @found x y m ps hmatch _ rest ih =>
    refine List.pairwise_cons.mpr ⟨fun n hn => ?_, ih⟩
    obtain ⟨u, z, -, hstart, -⟩ := rest.exists_reads hn
    rw [hstart, Match.stop, start_of_matchAt? hmatch, List.length_append, List.length_append]
    exact Nat.le_add_right _ _

/-- Each match in a text is a part of the text that the pattern reads. -/
theorem exists_reads_of_mem_findAll (hp : p.nullable = false) {text : List Char}
    (h : m ∈ p.findAll text) :
    ∃ x z, text = x ++ (m.text ++ z) ∧ m.start = x.length ∧ p.Reads x m.text z m.texts :=
  (walks_pieces hp text).exists_reads h

/-- The matches in a text come in order, and do not overlap. -/
theorem pairwise_findAll (hp : p.nullable = false) (text : List Char) :
    (p.findAll text).Pairwise fun m n => m.stop ≤ n.start :=
  (walks_pieces hp text).pairwise

/-- Of two matches in a text, one ends before the other one starts. -/
theorem apart_of_mem_findAll (hp : p.nullable = false) {text : List Char} {m n : Match}
    (hm : m ∈ p.findAll text) (hn : n ∈ p.findAll text) (hne : m ≠ n) :
    m.stop ≤ n.start ∨ n.stop ≤ m.start := by
  let R (m n : Match) : Prop := m.stop ≤ n.start ∨ n.stop ≤ m.start
  have hsymm : Std.Symm R := ⟨fun _ _ => Or.symm⟩
  have hpairs : (p.findAll text).Pairwise R := (pairwise_findAll hp text).imp .inl
  exact hpairs.forall hm hn hne

end Raceway.Pattern
