import Raceway.Plan.Basic
import Raceway.Proofs.Op.Binding
/-!
# Reading back a plan

The text of a plan has a line for each operation, and none of the lines is skipped. Every line is
read back as its operation, so the text is read back as the plan, in both modes of reading. Only the
zeros lose their signs, which makes no difference to equality.

## Main results

* `Raceway.Plan.read_text`: the text of a plan is read back.
* `Raceway.Plan.text_round_trip`: lines and texts are read back as equal operations and plans.
-/

namespace Raceway

open Text

/-- Plan lines can write all operations of the plan. -/
def Plan.IsWritable (plan : Plan Float) : Prop :=
  ∀ op ∈ plan, op.IsWritable

/-! ### The lines of a text -/

theorem isInLine_of_not_blank {c : Char} (h : isBlank c = false) : isInLine c = true := by
  have hfeed : c ≠ '\n' := by rintro rfl; exact absurd h (by decide)
  have hreturn : c ≠ '\r' := by rintro rfl; exact absurd h (by decide)
  simp [isInLine, hfeed, hreturn]

/-- No line of an operation is skipped: it starts with the name of its verb. -/
theorem Op.isSkipped_line (op : Op Float) : Plan.isSkipped op.line.toList = false := by
  have hname := op.verb.isKey_name
  rw [op.toList_line]
  obtain ⟨c, rest, hcons⟩ := List.exists_cons_of_ne_nil hname.ne_nil
  rw [hcons] at hname ⊢
  have hc := hname.plain c List.mem_cons_self
  unfold Plan.isSkipped
  split
  · rename_i heq
    exact absurd heq (List.cons_ne_nil _ _)
  · rename_i heq
    exact absurd (List.cons.inj heq).1 (ne_of_isPlain hc (by decide))
  · rename_i heq
    exact absurd (List.cons.inj heq).1 (ne_of_isPlain hc (by decide))
  · rfl

namespace Plan

theorem toList_text (plan : Plan Float) :
    plan.text.toList = (plan.map fun op => op.line.toList).flatMap (· ++ ['\n']) := by
  rw [text, String.toList_join, List.flatMap_map, List.flatMap_map]
  simp

theorem lines_text {plan : Plan Float} (h : plan.IsWritable) :
    lines plan.text.toList = plan.map fun op => op.line.toList := by
  rw [toList_text]
  refine lines_flatMap fun l hl c hc => ?_
  obtain ⟨op, hop, rfl⟩ := List.mem_map.mp hl
  exact isInLine_of_not_blank (Op.isBlank_line (h op hop) c hc)

/-- The line of a numbered operation, with its number. -/
def entry (x : Op Float × ℕ) : ℕ × List Char :=
  (x.2, x.1.line.toList)

/-- The entries of the text of a plan are the lines of its operations, numbered from one. -/
theorem entries_text {plan : Plan Float} (h : plan.IsWritable) :
    entries plan.text.toList = (plan.zipIdx 1).map entry := by
  rw [entries, lines_text h, List.zipIdx_map, List.filterMap_map, ← List.filterMap_eq_map]
  refine List.filterMap_congr fun x hx => ?_
  have hop := h x.1 (List.fst_mem_of_mem_zipIdx hx)
  simp only [Function.comp_apply, Prod.map, trim_of_not_blank (Op.isBlank_line hop),
    Op.isSkipped_line]
  rfl

theorem readEntry_entry {plan : Plan Float} (h : plan.IsWritable) {x : Op Float × ℕ}
    (hx : x ∈ plan.zipIdx 1) : readEntry (entry x) = .ok x.1.unsignZeros := by
  rw [entry, readEntry, Op.ofLine_line (h x.1 (List.fst_mem_of_mem_zipIdx hx))]

theorem map_zipIdx (plan : Plan Float) :
    (plan.zipIdx 1).map (fun x => x.1.unsignZeros) = plan.map Op.unsignZeros := by
  change (plan.zipIdx 1).map (Op.unsignZeros ∘ Prod.fst) = _
  rw [← List.map_map, List.zipIdx_map_fst]

/-- The text of a plan is read back in both modes, the zeros without signs. -/
theorem read_text {plan : Plan Float} (h : plan.IsWritable) (mode : ReadMode) :
    Plan.read mode plan.text.toList = .ok (plan.map Op.unsignZeros, []) := by
  cases mode with
  | strict =>
    have hops : ((plan.zipIdx 1).map entry).mapM readEntry = .ok (plan.map Op.unsignZeros) := by
      rw [List.mapM_map, ← map_zipIdx]
      refine mapM_eq_ok fun x hx => ?_
      rw [Function.comp_apply, readEntry_entry h hx]
    rw [Plan.read, entries_text h, hops, ok_bind]
    rfl
  | lenient =>
    have hok : ((plan.zipIdx 1).map entry).filterMap okEntry? = plan.map Op.unsignZeros := by
      rw [List.filterMap_map, ← map_zipIdx, ← List.filterMap_eq_map]
      refine List.filterMap_congr fun x hx => ?_
      rw [Function.comp_apply, okEntry?, readEntry_entry h hx]
      rfl
    have hbad : ((plan.zipIdx 1).map entry).filterMap badEntry? = [] := by
      rw [List.filterMap_map, List.filterMap_eq_nil_iff]
      intro x hx
      rw [Function.comp_apply, badEntry?, readEntry_entry h hx]
    rw [Plan.read, entries_text h, hok, hbad]

/-- What comes back for a plan is equal to it. -/
theorem unsignZeros_beq {plan : Plan Float} (h : plan.IsWritable) :
    (plan.map Op.unsignZeros == plan) = true := by
  induction plan with
  | nil => rfl
  | cons op plan ih =>
    obtain ⟨hop, hplan⟩ := List.forall_mem_cons.mp h
    rw [List.map_cons, List.cons_beq_cons, Op.unsignZeros_beq hop, ih hplan, Bool.and_self]

/-- An operation with finite numbers and a seed of a signed word is read back from its line as an
equal one. A plan of such operations is read back from its text as an equal plan, in the same order
and with no line skipped. -/
theorem text_round_trip :
    (∀ op : Op Float, op.IsWritable →
      ∃ back, Op.ofLine op.line.toList = .ok back ∧ (back == op) = true) ∧
    ∀ plan : Plan Float, plan.IsWritable →
      ∃ back, Plan.read .strict plan.text.toList = .ok (back, []) ∧ (back == plan) = true :=
  ⟨fun op h => ⟨op.unsignZeros, Op.ofLine_line h, Op.unsignZeros_beq h⟩,
    fun plan h => ⟨plan.map Op.unsignZeros, read_text h .strict, unsignZeros_beq h⟩⟩

/-- A bend whose gain is left out and whose ratio is a zero with a sign, alone and behind a seed and
a list without columns. -/
theorem text_round_trip_bend :
    (∃ back, Op.ofLine (Op.sBend 3 9 12.5 1 (-0)).line.toList = .ok back ∧
      (back == Op.sBend 3 9 12.5 1 (-0)) = true) ∧
    ∃ back, Plan.read .strict
        (Plan.text [.seed 7, .deleteTiles [] 4, .sBend 3 9 12.5 1 (-0)]).toList = .ok (back, []) ∧
      (back == [Op.seed 7, .deleteTiles [] 4, .sBend 3 9 12.5 1 (-0)]) = true := by
  have hseed : (Op.seed 7 : Op Float).IsWritable := by
    simp [Op.IsWritable, Op.values, Value.IsWritable, Decimal.maxInt64]
  have htiles : (Op.deleteTiles [] 4 : Op Float).IsWritable := by
    simp [Op.IsWritable, Op.values, Value.IsWritable]
  have hbend : (Op.sBend 3 9 12.5 1 (-0) : Op Float).IsWritable := by
    simp only [Op.IsWritable, Op.values, List.forall_mem_cons, Value.IsWritable]
    exact ⟨trivial, trivial, rfl, rfl, rfl, by simp⟩
  refine ⟨text_round_trip.1 _ hbend, text_round_trip.2 _ ?_⟩
  simp only [IsWritable, List.forall_mem_cons]
  exact ⟨hseed, htiles, hbend, by simp⟩

end Plan

end Raceway
