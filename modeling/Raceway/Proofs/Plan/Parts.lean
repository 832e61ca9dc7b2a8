import Mathlib
import Raceway.Plan.Seeding
import Raceway.Proofs.Plan.Merging
/-!
# Merging a request in parts

A request that is appended to a plan may come in two parts, one after the other. What the whole
request leaves out of the plan is what its parts leave out, so the merged plan is the same as long
as the second part leaves out nothing of the first. A seed that is drawn between the two parts is
the one that would be drawn at the end, unless the second part brings a seed, which takes its place.

## Main results

* `Raceway.Op.isLeftOut_append` and `Raceway.Plan.keptFor_keptFor`: what two parts leave out.
* `Raceway.Plan.plan_amend_amend`: the merged plan of two parts.
* `Raceway.Plan.plan_withSeed_amend`: a seed that is drawn in front of the second part.
* `Raceway.Plan.amend_in_parts`: the merged plan of two parts, without and with drawn seeds.
-/

namespace Raceway

variable {α : Type}

/-- A request leaves out what its parts leave out. -/
theorem Op.isLeftOut_append (first second : Plan α) (op : Op α) :
    op.isLeftOut (first ++ second) = (op.isLeftOut first || op.isLeftOut second) := by
  rw [isLeftOut, isLeftOut, isLeftOut, List.any_append, List.any_append, Bool.and_or_distrib_right]
  cases op.isFill
  · simp only [Bool.false_or, Bool.or_assoc, Bool.or_left_comm]
  · rfl

namespace Plan

variable {previous first second plan : Plan α} {default : Op α}

/-! ### What is left out of a plan -/

theorem additions_append (first second : Plan α) :
    additions (first ++ second) = first.additions ++ second.additions :=
  List.filter_append ..

theorem keptFor_append (fresh a b : Plan α) :
    fresh.keptFor (a ++ b) = fresh.keptFor a ++ fresh.keptFor b :=
  List.filter_append ..

/-- What is kept for a request is kept for one part after the other. -/
theorem keptFor_keptFor (previous first second : Plan α) :
    second.keptFor (first.keptFor previous) = keptFor (first ++ second) previous := by
  rw [keptFor, keptFor, keptFor, List.filter_filter]
  refine List.filter_congr fun op _ => ?_
  rw [Op.isLeftOut_append, Bool.not_or, Bool.and_comm]

/-- A request without fill directives adds all of its operations. -/
theorem additions_eq_self (h : ∀ op ∈ second, op.isFill = false) : second.additions = second :=
  List.filter_eq_self.mpr fun op hop => (Bool.not_eq_true' _).mpr (h op hop)

/-- A request without fill directives leaves out nothing but seeds, and these only for its own. -/
theorem keptFor_eq_self (hsecond : ∀ op ∈ second, op.isFill = false)
    (hplan : ∀ op ∈ plan, op.isFill = false)
    (hseed : ¬ (plan.hasSeed = true ∧ second.hasSeed = true)) : second.keptFor plan = plan := by
  refine List.filter_eq_self.mpr fun op hop => ?_
  have hcancel : (second.any fun fill => fill.isFill && fill.cancels op) = false := by
    refine List.any_eq_false.mpr fun fill hfill => ?_
    rw [hsecond fill hfill, Bool.false_and]
    exact Bool.false_ne_true
  have hseeds : (second.any Op.isSeed && op.isSeed) = false := by
    refine Bool.eq_false_iff.mpr fun h => hseed ?_
    obtain ⟨hfresh, hop'⟩ := Bool.and_eq_true_iff.mp h
    exact ⟨List.any_eq_true.mpr ⟨op, hop, hop'⟩, hfresh⟩
  rw [Op.isLeftOut, hplan op hop, hseeds, hcancel]
  rfl

/-- A seed in front of a plan makes way for one that the request brings. -/
theorem keptFor_seed (fresh plan : Plan α) (value : UInt64) :
    fresh.keptFor (.seed value :: plan) =
      (if fresh.hasSeed then [] else [.seed value]) ++ fresh.keptFor plan := by
  have hleft : (Op.seed value : Op α).isLeftOut fresh = fresh.hasSeed :=
    (Op.isLeftOut_of_isSpared rfl fresh).trans (Bool.and_true _)
  rw [keptFor, List.filter_cons, hleft]
  cases fresh.hasSeed <;> rfl

/-! ### The merged plan -/

/-- Something is left where a request without fill directives meets a plan that has operations: it
keeps them, or brings a seed. -/
theorem keptFor_append_ne_nil (hsecond : ∀ op ∈ second, op.isFill = false)
    (hplan : ∀ op ∈ plan, op.isFill = false) (hne : plan ≠ []) :
    second.keptFor plan ++ second ≠ [] := by
  cases hseed : second.hasSeed with
  | true =>
    refine List.append_ne_nil_of_right_ne_nil _ ?_
    rintro rfl
    exact Bool.noConfusion hseed
  | false =>
    rw [keptFor_eq_self hsecond hplan fun hboth => Bool.eq_false_iff.mp hseed hboth.2]
    exact List.append_ne_nil_of_left_ne_nil hne _

theorem plan_amend_of_ne_nil {fresh : Plan α}
    (h : fresh.keptFor previous ++ fresh.additions ≠ []) :
    (previous.amend fresh false default).plan = fresh.keptFor previous ++ fresh.additions := by
  rw [plan_amend_false, List.isEmpty_eq_false_iff.mpr h]
  rfl

/-- No merged plan is empty. -/
theorem plan_amend_ne_nil (previous fresh : Plan α) :
    (previous.amend fresh false default).plan ≠ [] := by
  rw [plan_amend_false]
  split_ifs with hempty
  · exact List.cons_ne_nil _ _
  · exact mt List.isEmpty_iff.mpr hempty

/-- A request without fill directives takes no default grid for a plan that has operations. -/
theorem plan_amend_of_noFill (hsecond : ∀ op ∈ second, op.isFill = false)
    (hplan : ∀ op ∈ plan, op.isFill = false) (hne : plan ≠ []) :
    (plan.amend second false default).plan = second.keptFor plan ++ second := by
  have hmerged := keptFor_append_ne_nil hsecond hplan hne
  nth_rewrite 2 [← additions_eq_self hsecond] at hmerged
  rw [plan_amend_of_ne_nil hmerged, additions_eq_self hsecond]

/-- The merged plan of two parts, one after the other, is that of the whole request, if the second
part has no fill directives and the parts do not both bring seeds. -/
theorem plan_amend_amend (hsecond : ∀ op ∈ second, op.isFill = false)
    (hseed : ¬ (first.hasSeed = true ∧ second.hasSeed = true)) (hdefault : default.isFill = false)
    (hcreate : (previous.amend first false default).summary.synthesizedCreate = false) :
    ((previous.amend first false default).plan.amend second false default).plan =
      (previous.amend (first ++ second) false default).plan := by
  have hfill : ∀ op ∈ (previous.amend first false default).plan, op.isFill = false :=
    fun op hop => isFill_of_mem_amend hdefault hop
  have hne : first.keptFor previous ++ first.additions ≠ [] := by
    rw [← filter_reasonToDrop?]
    exact List.isEmpty_eq_false_iff.mp hcreate
  rw [plan_amend_of_ne_nil hne] at hfill ⊢
  have hadded : second.keptFor first.additions = first.additions := by
    refine keptFor_eq_self hsecond (fun op hop => (mem_additions.mp hop).2) ?_
    rwa [hasSeed, any_isSeed_additions]
  have hboth : second.keptFor (first.keptFor previous ++ first.additions) ++ second =
      keptFor (first ++ second) previous ++ additions (first ++ second) := by
    rw [keptFor_append, keptFor_keptFor, hadded, additions_append, additions_eq_self hsecond,
      List.append_assoc]
  have hmerged := keptFor_append_ne_nil hsecond hfill hne
  rw [plan_amend_of_noFill hsecond hfill hne, hboth, plan_amend_of_ne_nil (hboth ▸ hmerged)]

/-! ### Drawn seeds -/

theorem plan_withSeed (plan : Plan α) (draw : SeedDraw) : (plan.withSeed draw).plan =
    if plan.needsSeed then .seed (lineSeed draw.seed) :: plan else plan := by
  rw [withSeed]
  split_ifs <;> rfl

theorem needsSeed_of_hasSeed (h : plan.hasSeed = true) : plan.needsSeed = false := by
  rw [needsSeed, h, Bool.not_true, Bool.and_false]

/-- A seed that is drawn for a plan before a request is appended to it is the one that would be
drawn afterwards, or it makes way for that of the request. -/
theorem plan_withSeed_amend (hsecond : ∀ op ∈ second, op.isFill = false)
    (hplan : ∀ op ∈ plan, op.isFill = false) (hne : plan ≠ []) {draw draw₁ draw₂ : SeedDraw}
    (h₁ : draw₁.seed = draw.seed) (h₂ : draw₂.seed = draw.seed) :
    (((plan.withSeed draw₁).plan.amend second false default).plan.withSeed draw₂).plan =
      ((plan.amend second false default).plan.withSeed draw).plan := by
  simp only [plan_withSeed, h₁, h₂]
  cases hneeds : plan.needsSeed with
  | false => rfl
  | true =>
    generalize hvalue : lineSeed draw.seed = value
    obtain ⟨hrandom, hnone⟩ := Bool.and_eq_true_iff.mp hneeds
    rw [Bool.not_eq_true'] at hnone
    have hseeded : ∀ op ∈ (.seed value :: plan : Plan α), op.isFill = false :=
      List.forall_mem_cons.mpr ⟨rfl, hplan⟩
    rw [if_pos rfl, plan_amend_of_noFill hsecond hseeded (List.cons_ne_nil _ _), keptFor_seed,
      plan_amend_of_noFill hsecond hplan hne]
    cases hseed : second.hasSeed with
    | true => rfl
    | false =>
      -- The request brings no seed, so the drawn one stays, and the plan draws as before.
      have hkept : second.keptFor plan = plan :=
        keptFor_eq_self hsecond hplan fun hboth => Bool.eq_false_iff.mp hseed hboth.2
      have hmerged : needsSeed (plan ++ second) = true := by
        rw [hasSeed] at hnone hseed
        rw [hasRandom] at hrandom
        rw [needsSeed, hasRandom, hasSeed, List.any_append, List.any_append, hrandom, hnone, hseed]
        rfl
      have hdrawn : needsSeed (.seed value :: (plan ++ second) : Plan α) = false :=
        needsSeed_of_hasSeed rfl
      simp only [hkept, hmerged]
      exact if_neg (Bool.eq_false_iff.mp hdrawn)

/-- A request that is appended to a plan in two parts leads to the plan that it leads to as a whole,
if the second part has no fill directives, the parts do not both bring seeds, and the first part
needs no default grid. That stays so with seeds that are drawn behind each part, if they are the
same as the one that is drawn behind the whole request. -/
theorem amend_in_parts {rows cols : UInt32} (hsecond : ∀ op ∈ second, op.isFill = false)
    (hseed : ¬ (first.hasSeed = true ∧ second.hasSeed = true))
    (hcreate :
      (previous.amend first false (.build rows cols)).summary.synthesizedCreate = false) :
    let amended (plan fresh : Plan α) : Plan α := (plan.amend fresh false (.build rows cols)).plan
    amended (amended previous first) second = amended previous (first ++ second) ∧
      ∀ draw draw₁ draw₂ : SeedDraw, draw₁.seed = draw.seed → draw₂.seed = draw.seed →
        ((amended ((amended previous first).withSeed draw₁).plan second).withSeed draw₂).plan =
          ((amended previous (first ++ second)).withSeed draw).plan := by
  intro amended
  have hwhole : amended (amended previous first) second = amended previous (first ++ second) :=
    plan_amend_amend hsecond hseed rfl hcreate
  refine ⟨hwhole, fun draw draw₁ draw₂ h₁ h₂ => ?_⟩
  rw [← hwhole]
  exact plan_withSeed_amend hsecond (fun op hop => isFill_of_mem_amend rfl hop)
    (plan_amend_ne_nil previous first) h₁ h₂

/-- A fill directive and holes, and behind them a curve and a seed. The seed that is drawn for the
holes makes way for that of the second part. -/
theorem amend_in_parts_holes :
    let amended (plan fresh : Plan Float) : Plan Float :=
      (plan.amend fresh false (.build 100 3)).plan
    let previous : Plan Float := [.build 9 3, .deleteRows 2 4, .marginStart 1]
    let first : Plan Float := [.fillRows 3 3, .randomHoles 20]
    let second : Plan Float := [.curve 1 2 .left 5, .seed 8]
    (∀ op ∈ second, op.isFill = false) ∧ ¬ (first.hasSeed = true ∧ second.hasSeed = true) ∧
      (previous.amend first false (.build 100 3)).summary.synthesizedCreate = false ∧
      (amended previous first).needsSeed = true ∧
      amended (amended previous first) second = amended previous (first ++ second) ∧
      ((amended ((amended previous first).withSeed ⟨7, 1⟩).plan second).withSeed ⟨7, 2⟩).plan =
        ((amended previous (first ++ second)).withSeed ⟨7, 0⟩).plan := by
  intro amended previous first second
  have hsecond : ∀ op ∈ second, op.isFill = false :=
    List.forall_mem_cons.mpr ⟨rfl, List.forall_mem_singleton.mpr rfl⟩
  have hseed : ¬ (first.hasSeed = true ∧ second.hasSeed = true) := fun h => Bool.noConfusion h.1
  have hcreate :
      (previous.amend first false (.build 100 3)).summary.synthesizedCreate = false := rfl
  obtain ⟨hwhole, hdrawn⟩ := amend_in_parts hsecond hseed hcreate
  exact ⟨hsecond, hseed, hcreate, rfl, hwhole, hdrawn ⟨7, 0⟩ ⟨7, 1⟩ ⟨7, 2⟩ rfl rfl⟩

end Plan

end Raceway
