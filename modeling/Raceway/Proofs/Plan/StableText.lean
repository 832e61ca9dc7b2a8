import Mathlib
import Raceway.Proofs.Session.Reload
/-!
# Texts that are read and written again

The text of a plan is read back as the plan without the signs of its zeros. A second text differs
from the first if and only if some line writes a zero with a minus sign: such a zero is an integer
to the reader, and an integer has no signed zero. An argument that is left out as a default makes no
difference, since the default is equal to either zero. From the second text on nothing changes any
more.

## Main definitions

* `Raceway.Op.writesNegativeZero`: the line of an operation writes a zero with a minus sign.

## Main results

* `Raceway.Op.line_unsignZeros`: when a line is written again as it was.
* `Raceway.Plan.text_read_again`: when a text is written again as it was, whatever it was read from.
-/

namespace Raceway

open Text Decimal

/-! ### Values -/

theorem unsignZero_unsignZero (x : Float) : unsignZero (unsignZero x) = unsignZero x := by
  by_cases h : (x == 0) = true
  · rw [unsignZero.eq_1 x, if_pos h]
    rfl
  · rw [unsignZero.eq_1 x, if_neg h, unsignZero, if_neg h]

namespace Value

/-- Losing the sign of a zero changes the text of a value only if there is such a sign. -/
theorem text_unsignZero {v : Value Float} :
    v.unsignZero.arg.text = v.arg.text ↔ v.isNegativeZero = false := by
  refine ⟨fun h => ?_, fun h => by rw [unsignZero_of_isNegativeZero h]⟩
  cases v with
  | number x =>
    refine decide_eq_false fun hx => ?_
    subst hx
    exact absurd h (by decide +kernel)
  | _ => rfl

end Value

namespace Param

/-- A value is the default with and without the sign of a zero. -/
theorem isDefault_unsignZero (param : Param) (v : Value Float) :
    param.isDefault v.unsignZero = param.isDefault v := by
  have hbeq (d : Value Float) : (d == v.unsignZero) = (d == v) := by
    change instBEqValue.beq d v.unsignZero = instBEqValue.beq d v
    cases v with
    | number x =>
      cases d with
      | number y =>
        change (y == Raceway.unsignZero x) = (y == x)
        by_cases hx : (x == 0) = true
        · rw [Raceway.unsignZero, if_pos hx, beq_of_beq_zero hx]
        · rw [Raceway.unsignZero, if_neg hx]
      | _ => rfl
    | _ => rfl
  simp only [isDefault, hbeq]

theorem isSome_write_unsignZero (param : Param) (v : Value Float) :
    (param.write v.unsignZero).isSome = (param.write v).isSome := by
  rw [write, write, isDefault_unsignZero]
  split_ifs <;> rfl

/-- An argument is written as it was if it is left out, or has no zero with a sign. -/
theorem write_unsignZero (param : Param) (v : Value Float) :
    param.write v.unsignZero = param.write v ↔ (!param.omits v && v.isNegativeZero) = false := by
  rw [write, write, isDefault_unsignZero, omits]
  cases param.keyed <;> cases param.isDefault v <;> simp [Value.text_unsignZero]

end Param

/-! ### Lines -/

theorem map_toList_injective : Function.Injective (List.map String.toList) :=
  List.map_injective_iff.mpr fun _ _ => String.toList_injective

/-- The same arguments are written if each of them is written as it was. -/
theorem writtenTexts_unsignZero {pairs : List (Param × Value Float)} :
    writtenTexts (pairs.map fun x => (x.1, x.2.unsignZero)) = writtenTexts pairs ↔
      ∀ x ∈ pairs, x.1.write x.2.unsignZero = x.1.write x.2 := by
  induction pairs with
  | nil => simp
  | cons x pairs ih =>
    rw [List.map_cons, writtenTexts_cons, writtenTexts_cons, List.forall_mem_cons, ← ih]
    -- The first argument is written both times, or left out both times.
    have hsome := x.1.isSome_write_unsignZero x.2
    cases hfirst : x.1.write x.2.unsignZero <;> cases hsecond : x.1.write x.2 <;>
      simp_all

namespace Op

variable {op : Op Float}

/-- The line of the operation writes a zero with a minus sign. -/
def writesNegativeZero (op : Op Float) : Bool :=
  op.pairs.any fun x => !x.1.omits x.2 && x.2.isNegativeZero

theorem pairs_unsignZeros (op : Op Float) :
    op.unsignZeros.pairs = op.pairs.map fun x => (x.1, x.2.unsignZero) := by
  rw [pairs, unsignZeros, verb_mapNumbers, values_mapNumbers, List.zip_map_right]
  rfl

theorem unsignZeros_unsignZeros (op : Op Float) : op.unsignZeros.unsignZeros = op.unsignZeros := by
  cases op <;> simp [unsignZeros, mapNumbers, unsignZero_unsignZero]

/-- Operations of one verb have the same line if their written arguments are the same. -/
theorem line_inj {a b : Op Float} (hverb : a.verb = b.verb) (ha : a.IsWritable)
    (hb : b.IsWritable) : a.line = b.line ↔ writtenTexts a.pairs = writtenTexts b.pairs := by
  have hline : a.line = b.line ↔ commaJoin ((writtenTexts a.pairs).map String.toList) =
      commaJoin ((writtenTexts b.pairs).map String.toList) := by
    rw [← String.toList_inj, toList_line, toList_line, hverb]
    simp
  have hpieces {op : Op Float} (h : op.IsWritable) :=
    isPiece_writtenTexts op.isKey_pairs (isWritable_pairs h)
  refine ⟨fun h => map_toList_injective ?_, fun h => hline.mpr (by rw [h])⟩
  have hsplit := splitArguments_commaJoin (hpieces ha)
  rw [hline.mp h, splitArguments_commaJoin (hpieces hb)] at hsplit
  exact (Except.ok.inj hsplit).symm

/-- What comes back has the line that was read, unless that line writes a zero with a minus sign. -/
theorem line_unsignZeros (h : op.IsWritable) :
    op.unsignZeros.line = op.line ↔ op.writesNegativeZero = false := by
  have hverb : op.unsignZeros.verb = op.verb := verb_mapNumbers ..
  rw [line_inj hverb (isWritable_unsignZeros h) h, pairs_unsignZeros,
    writtenTexts_unsignZero, writesNegativeZero, List.any_eq_false]
  exact forall₂_congr fun x _ => by rw [Bool.not_eq_true, Param.write_unsignZero]

end Op

/-! ### Texts -/

namespace Plan

variable {plan : Plan Float}

/-- Plans have the same text if they have the same lines. -/
theorem text_inj {other : Plan Float} (h : plan.IsWritable) (hother : other.IsWritable) :
    plan.text = other.text ↔ plan.map Op.line = other.map Op.line := by
  refine ⟨fun heq => ?_, fun heq => ?_⟩
  · refine map_toList_injective ?_
    rw [List.map_map, List.map_map]
    exact (lines_text h).symm.trans ((congrArg (lines ·.toList) heq).trans (lines_text hother))
  · have htext (p : Plan Float) : p.text = String.join ((p.map Op.line).map (· ++ "\n")) := by
      rw [List.map_map]
      rfl
    rw [htext, htext, heq]

theorem text_unsignZeros (h : plan.IsWritable) :
    text (plan.map Op.unsignZeros) = plan.text ↔ ∀ op ∈ plan, op.writesNegativeZero = false := by
  rw [text_inj h.map_unsignZeros h, List.map_map, List.map_inj_left]
  exact forall₂_congr fun op hop => Op.line_unsignZeros (h op hop)

/-- Whatever text a plan is read from, leniently, the text that is written for it is read back with
no line skipped, in both modes. What is written then is the same text if and only if no line of it
writes a zero with a minus sign. Reading that second text changes nothing any more. -/
theorem text_read_again (source : List Char) : ∃ (plan : Plan Float) (skipped : List PlanError),
    Plan.read .lenient source = .ok (plan, skipped) ∧
    (∀ mode, Plan.read mode plan.text.toList = .ok (plan.map Op.unsignZeros, [])) ∧
    (text (plan.map Op.unsignZeros) = plan.text ↔ ∀ op ∈ plan, op.writesNegativeZero = false) ∧
    ∀ mode, Plan.read mode (text (plan.map Op.unsignZeros)).toList =
      .ok (plan.map Op.unsignZeros, []) := by
  obtain ⟨plan, skipped, hread⟩ : ∃ plan skipped, Plan.read .lenient source = .ok (plan, skipped) :=
    ⟨_, _, rfl⟩
  have h := isWritable_of_read hread
  have hagain : (plan.map Op.unsignZeros).map Op.unsignZeros = plan.map Op.unsignZeros := by
    rw [List.map_map]
    exact List.map_congr_left fun op _ => op.unsignZeros_unsignZeros
  refine ⟨plan, skipped, hread, read_text h, text_unsignZeros h, fun mode => ?_⟩
  rw [read_text h.map_unsignZeros, hagain]

/-- The angle of a curve is written with its sign, and without it once that text has been read. -/
theorem exists_text_ne :
    ∃ plan back : Plan Float,
      Plan.read .lenient "buildAbs(2,2)\ncurveRows(0,1,left,-0.0)\n".toList = .ok (plan, []) ∧
        Plan.read .lenient plan.text.toList = .ok (back, []) ∧ back.text ≠ plan.text := by
  have hread : Plan.read .lenient "buildAbs(2,2)\ncurveRows(0,1,left,-0.0)\n".toList =
      .ok ([.build 2 2, .curve 0 1 .left (-0)], []) := rfl
  refine ⟨_, _, hread, read_text (isWritable_of_read hread) .lenient, ?_⟩
  decide +kernel

end Plan

end Raceway
