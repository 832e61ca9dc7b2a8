import Mathlib
import Raceway.Plan.Amend
/-!
# What becomes of each operation in a merge

Merging a request accounts for every operation of the plan and of the request. A request that is
appended leaves out operations of the plan for one of three reasons, and keeps the others in their
order; what is left out depends on the operation and the request alone, so equal operations share
their fate wherever they stand. A request that replaces the plan leaves out all of it, and has its
first operation that creates a grid moved to the front. The default grid comes in only where there
is none.

## Main definitions

* `Raceway.DropReason.Applies`: a reason to leave out an operation holds.
* `Raceway.Op.isLeftOut`: a request leaves out an operation of the plan it is appended to.
* `Raceway.Op.isSpared`: an operation that no fill directive cancels.
* `Raceway.Plan.CreatesFirst`: how operations are rearranged so that a grid is created first.
* `Raceway.Merge.Balances`, `Raceway.Merge.Appends` and `Raceway.Merge.Replaces`: the account of a
  merge.

## Main results

* `Raceway.Plan.isSome_reasonToDrop?` and `Raceway.Plan.applies_of_reasonToDrop?`: which operations
  are left out, and why.
* `Raceway.Plan.createsFirst_createFirst`: the operations of a request that replaces the plan.
* `Raceway.Plan.mem_amend` and `Raceway.Plan.isFill_of_mem_amend`: where the operations of a merged
  plan come from.
* `Raceway.Plan.amend_accounts`: the account of every merge.
-/

namespace Raceway

variable {α : Type}

/-! ### Which operations are left out -/

namespace Op

/-- The operation creates a grid, shapes or smooths its tiles, or sets a margin or a seed. -/
def isSpared : Op α → Bool
  | build .. | curve .. | sBend .. | slopes .. | smoothColumns .. | smoothHeights ..
  | marginStart .. | marginEnd .. | seed .. => true
  | _ => false

/-- The request leaves out the operation of the plan it is appended to: it is a fill directive, or a
seed where the request brings one, or a fill directive of the request cancels it. -/
def isLeftOut (fresh : Plan α) (op : Op α) : Bool :=
  op.isFill || (fresh.any isSeed && op.isSeed) ||
    fresh.any fun fill => fill.isFill && fill.cancels op

theorem isSpared_of_isCreate {op : Op α} (h : op.isCreate = true) : op.isSpared = true := by
  cases op with
  | build rows cols => rfl
  | _ => exact Bool.noConfusion h

theorem isSpared_of_isSeed {op : Op α} (h : op.isSeed = true) : op.isSpared = true := by
  cases op with
  | seed value => rfl
  | _ => exact Bool.noConfusion h

theorem isFill_eq_false_of_isSpared {op : Op α} (h : op.isSpared = true) : op.isFill = false := by
  cases op with
  | fillAll => exact Bool.noConfusion h
  | fillRows a b => exact Bool.noConfusion h
  | fillTiles cols row => exact Bool.noConfusion h
  | _ => rfl

/-- What a fill directive cancels removes tiles. -/
theorem cancels_eq_false_of_isSpared (fill : Op α) {op : Op α} (h : op.isSpared = true) :
    fill.cancels op = false := by
  cases op with
  | deleteRows a b => exact Bool.noConfusion h
  | deleteTiles cols row => exact Bool.noConfusion h
  | randomHoles percent => exact Bool.noConfusion h
  | jumpGaps count => exact Bool.noConfusion h
  | fork a b gapStart gapEnd => exact Bool.noConfusion h
  | rejoin a b target => exact Bool.noConfusion h
  | _ => cases fill <;> rfl

/-- An operation that no fill directive cancels is left out for a seed alone. -/
theorem isLeftOut_of_isSpared {op : Op α} (h : op.isSpared = true) (fresh : Plan α) :
    op.isLeftOut fresh = (fresh.any isSeed && op.isSeed) := by
  have hcancel : (fresh.any fun fill => fill.isFill && fill.cancels op) = false := by
    refine List.any_eq_false.mpr fun fill _ => ?_
    rw [cancels_eq_false_of_isSpared fill h, Bool.and_false]
    exact Bool.false_ne_true
  rw [isLeftOut, isFill_eq_false_of_isSpared h, hcancel, Bool.false_or, Bool.or_false]

end Op

/-- The reason to leave out an operation of the plan holds, when a request is appended to it. -/
inductive DropReason.Applies (fresh : Plan α) (op : Op α) : DropReason α → Prop
  /-- The operation is a fill directive. -/
  | fillKept (h : op.isFill = true) : Applies fresh op .fillKept
  /-- The operation is a seed, and so is one of the request. -/
  | newSeed {seed : Op α} (hmem : seed ∈ fresh) (hseed : seed.isSeed = true)
    (h : op.isSeed = true) : Applies fresh op .newSeed
  /-- A fill directive of the request cancels the operation. -/
  | overridden {fill : Op α} (hmem : fill ∈ fresh) (hfill : fill.isFill = true)
    (h : fill.cancels op = true) : Applies fresh op (.overridden fill)

namespace Plan

variable {plan previous fresh : Plan α} {op default : Op α}

/-- The operations of a request that are not fill directives. -/
def additions (fresh : Plan α) : Plan α :=
  fresh.filter fun op => !op.isFill

/-- The operations of the plan that the request it is followed by does not leave out. -/
def keptFor (fresh previous : Plan α) : Plan α :=
  previous.filter fun op => !op.isLeftOut fresh

theorem mem_additions : op ∈ fresh.additions ↔ op ∈ fresh ∧ op.isFill = false := by
  rw [additions, List.mem_filter, Bool.not_eq_true']

theorem mem_keptFor : op ∈ fresh.keptFor previous ↔ op ∈ previous ∧ op.isLeftOut fresh = false := by
  rw [keptFor, List.mem_filter, Bool.not_eq_true']

/-- No fill directive of the request cancels what is kept. -/
theorem cancels_eq_false_of_mem_keptFor {fill : Op α} (h : op ∈ fresh.keptFor previous)
    (hmem : fill ∈ fresh) (hfill : fill.isFill = true) : fill.cancels op = false := by
  have hkept := (mem_keptFor.mp h).2
  rw [Op.isLeftOut, Bool.or_eq_false_iff] at hkept
  have hnot := List.any_eq_false.mp hkept.2 fill hmem
  rw [hfill, Bool.true_and] at hnot
  exact Bool.eq_false_iff.mpr hnot

/-- No seed of a request is a fill directive. -/
theorem any_isSeed_additions (fresh : Plan α) :
    fresh.additions.any Op.isSeed = fresh.any Op.isSeed := by
  rw [additions, List.any_filter]
  congr 1
  funext op
  cases op <;> rfl

theorem isSome_reasonToDrop? (fresh : Plan α) (op : Op α) :
    (reasonToDrop? (fresh.filter Op.isFill) (fresh.additions.any Op.isSeed) op).isSome =
      op.isLeftOut fresh := by
  rw [any_isSeed_additions, reasonToDrop?, Op.isLeftOut]
  split_ifs with hfill hseed
  · rw [hfill]
    rfl
  · rw [hseed, Bool.or_true]
    rfl
  · rw [Bool.eq_false_iff.mpr hfill, Bool.eq_false_iff.mpr hseed, Option.isSome_map,
      List.isSome_find?, List.any_filter]
    rfl

/-- The reason that is given holds. -/
theorem applies_of_reasonToDrop? {reason : DropReason α}
    (h : reasonToDrop? (fresh.filter Op.isFill) (fresh.additions.any Op.isSeed) op = some reason) :
    reason.Applies fresh op := by
  rw [any_isSeed_additions, reasonToDrop?] at h
  split_ifs at h with hfill hseed
  · obtain rfl := Option.some.inj h
    exact .fillKept hfill
  · obtain rfl := Option.some.inj h
    obtain ⟨hfresh, hop⟩ := Bool.and_eq_true_iff.mp hseed
    obtain ⟨seed, hmem, hseed⟩ := List.any_eq_true.mp hfresh
    exact .newSeed hmem hseed hop
  · obtain ⟨fill, hfind, rfl⟩ := Option.map_eq_some_iff.mp h
    obtain ⟨hmem, hfill⟩ := List.mem_filter.mp (List.mem_of_find?_eq_some hfind)
    have hcancel := List.find?_some hfind
    exact .overridden hmem hfill hcancel

/-- The fill directives make no difference to an operation that none of them cancels. -/
theorem reasonToDrop?_of_isSpared (h : op.isSpared = true) (fills : List (Op α))
    (freshSeed : Bool) : reasonToDrop? fills freshSeed op = reasonToDrop? [] freshSeed op := by
  have hcancel : fills.find? (·.cancels op) = none :=
    List.find?_eq_none.mpr fun fill _ => by
      rw [Op.cancels_eq_false_of_isSpared fill h]
      exact Bool.false_ne_true
  rw [reasonToDrop?, reasonToDrop?, hcancel]
  rfl

/-! ### Creating a grid first -/

/-- How operations are rearranged so that a grid is created first, and whether a default operation
had to be put in. -/
inductive CreatesFirst (default : Op α) : List (Op α) → Plan α → Bool → Prop
  /-- The first operation that creates a grid is moved to the front. -/
  | moved {create : Op α} {before : List (Op α)} (hbefore : ∀ op ∈ before, op.isCreate = false)
    (hcreate : create.isCreate = true) (after : List (Op α)) :
    CreatesFirst default (before ++ create :: after) (create :: (before ++ after)) false
  /-- Without one, the default operation is put there. -/
  | synthesized {ops : List (Op α)} (hops : ∀ op ∈ ops, op.isCreate = false) :
    CreatesFirst default ops (default :: ops) true

theorem createsFirst_createFirst (default : Op α) (ops : List (Op α)) :
    CreatesFirst default ops (createFirst default ops).1 (createFirst default ops).2 := by
  rw [createFirst]
  cases hfind : ops.find? Op.isCreate with
  | none =>
    rw [List.find?_eq_none] at hfind
    exact .synthesized fun op hop => Bool.eq_false_iff.mpr (hfind op hop)
  | some create =>
    obtain ⟨hcreate, before, after, rfl, hbefore⟩ := List.find?_eq_some_iff_append.mp hfind
    have hnone : ∀ op ∈ before, op.isCreate = false := fun op hop =>
      (Bool.not_eq_true' _).mp (hbefore op hop)
    -- The one that is found is the one that is erased, since none in front of it creates a grid.
    have herase : (before ++ create :: after).eraseP Op.isCreate = before ++ after := by
      rw [List.eraseP_append_right _ fun op hop => Bool.eq_false_iff.mp (hnone op hop),
        List.eraseP_cons_of_pos hcreate]
    dsimp only
    rw [herase]
    exact .moved hnone hcreate after

namespace CreatesFirst

variable {ops : List (Op α)} {synthesized : Bool}

/-- Nothing is lost, and nothing comes in but the default operation. -/
theorem perm (h : CreatesFirst default ops plan synthesized) :
    plan.Perm ((if synthesized then [default] else []) ++ ops) := by
  cases h with
  | moved hbefore hcreate after => exact List.perm_middle.symm
  | synthesized hops => exact List.Perm.refl _

theorem ne_nil (h : CreatesFirst default ops plan synthesized) : plan ≠ [] := by
  cases h with
  | moved hbefore hcreate after => exact List.cons_ne_nil _ _
  | synthesized hops => exact List.cons_ne_nil _ _

end CreatesFirst

/-! ### Where the operations of a merged plan come from -/

/-- What is kept of the plan, when a request is appended to it. -/
theorem filter_reasonToDrop? (fresh previous : Plan α) :
    previous.filter (fun op =>
      (reasonToDrop? (fresh.filter Op.isFill) (fresh.additions.any Op.isSeed) op).isNone) =
      fresh.keptFor previous := by
  refine List.filter_congr fun op _ => ?_
  rw [← Option.not_isSome, isSome_reasonToDrop?]

/-- What is left out of it. -/
theorem map_op_dropped (reason : Op α → Option (DropReason α)) (previous : Plan α) :
    (previous.filterMap fun op => (reason op).map (Dropped.mk op)).map (·.op) =
      previous.filter fun op => (reason op).isSome := by
  rw [List.map_filterMap, ← List.filterMap_eq_filter]
  congr 1
  funext op
  cases hreason : reason op <;> simp [Option.guard, hreason]

/-- The reasons to leave out the operations of one kind decide which of them are left out. -/
theorem filter_dropped_congr {p : Op α → Bool} {reason reason' : Op α → Option (DropReason α)}
    (h : ∀ op, p op = true → reason op = reason' op) (previous : Plan α) :
    (previous.filterMap fun op => (reason op).map (Dropped.mk op)).filter (p ·.op) =
      (previous.filterMap fun op => (reason' op).map (Dropped.mk op)).filter (p ·.op) := by
  rw [List.filter_filterMap, List.filter_filterMap]
  congr 1
  funext op
  cases hop : p op with
  | true => rw [h op hop]
  | false => cases reason op <;> cases reason' op <;> simp [Option.filter, hop]

/-- The plan of a request that is appended: the default operation stands for an empty one. -/
theorem plan_amend_false (previous fresh : Plan α) (default : Op α) :
    (previous.amend fresh false default).plan =
      if (fresh.keptFor previous ++ fresh.additions).isEmpty then [default]
      else fresh.keptFor previous ++ fresh.additions := by
  rw [← filter_reasonToDrop?]
  rfl

/-- The operations of a merged plan come from the kept plan and from the request, except for the
default one. None of the request is a fill directive, and none of the kept plan is left out. -/
theorem mem_amend {creates : Bool} (h : op ∈ (previous.amend fresh creates default).plan) :
    op ∈ fresh.keptFor previous ∨ op ∈ fresh.additions ∨ op = default := by
  cases creates with
  | true =>
    have hperm := (createsFirst_createFirst default fresh.additions).perm
    rcases List.mem_append.mp (hperm.mem_iff.mp h) with h | h
    · split_ifs at h
      · exact .inr (.inr (List.mem_singleton.mp h))
      · cases h
    · exact .inr (.inl h)
  | false =>
    rw [plan_amend_false] at h
    split_ifs at h with hempty
    · exact .inr (.inr (List.mem_singleton.mp h))
    · exact (List.mem_append.mp h).imp_right .inl

/-- A merged plan has no fill directives, whether the request replaces the kept plan or is appended
to it. -/
theorem isFill_of_mem_amend {creates : Bool} (hdefault : default.isFill = false)
    (h : op ∈ (previous.amend fresh creates default).plan) : op.isFill = false := by
  rcases mem_amend h with h | h | rfl
  · have hkept := (mem_keptFor.mp h).2
    rw [Op.isLeftOut, Bool.or_eq_false_iff, Bool.or_eq_false_iff] at hkept
    exact hkept.1.1
  · exact (mem_additions.mp h).2
  · exact hdefault

end Plan

/-! ### The account of a merge -/

namespace Merge

/-- The account of a merge, whether the request replaces the plan or is appended to it. -/
structure Balances (previous fresh : Plan Float) (m : Merge Float) : Prop where
  /-- An operation of the request is added, or is a fill directive. -/
  added : m.summary.added = fresh.additions.length
  fills : m.summary.added + m.summary.fills = fresh.length
  /-- An operation of the plan is kept, or it is left out. -/
  kept : m.summary.kept + m.summary.dropped.length = previous.length
  /-- The merged plan has the operations that are kept, those that are added, and the default one
  where it is put in. -/
  length : m.plan.length = m.summary.kept + m.summary.added + m.summary.synthesizedCreate.toNat
  ne_nil : m.plan ≠ []
  noFill : ∀ op ∈ m.plan, op.isFill = false

/-- The request is appended to what is kept of the plan. -/
structure Appends (previous fresh : Plan Float) (default : Op Float) (m : Merge Float) : Prop where
  mode : m.summary.mode = .append
  /-- The default operation is put in exactly if the plan would have none. -/
  synthesized : m.summary.synthesizedCreate = true ↔
    fresh.keptFor previous ++ fresh.additions = []
  plan : m.plan = if m.summary.synthesizedCreate then [default]
    else fresh.keptFor previous ++ fresh.additions
  kept : m.summary.kept = (fresh.keptFor previous).length
  /-- The operations that are left out are listed in order, with their text. -/
  dropped : m.summary.dropped.map (·.op) = previous.filter (Op.isLeftOut fresh)
  lines : m.summary.dropped.map (·.op.line) = (previous.filter (Op.isLeftOut fresh)).map Op.line
  /-- The reason that is given for each of them holds. -/
  applies : ∀ d ∈ m.summary.dropped, d.reason.Applies fresh d.op

/-- The request replaces the plan. -/
structure Replaces (previous fresh : Plan Float) (default : Op Float) (m : Merge Float) :
    Prop where
  mode : m.summary.mode = .rebuild
  /-- The operations of the request follow the one that creates the grid. -/
  plan : Plan.CreatesFirst default fresh.additions m.plan m.summary.synthesizedCreate
  kept : m.summary.kept = 0
  /-- Every operation of the plan is left out because of that. They are listed in order, with their
  text. -/
  dropped : m.summary.dropped = previous.map (⟨·, .rebuilt⟩)
  lines : m.summary.dropped.map (·.op.line) = previous.map Op.line

variable {previous fresh : Plan Float} {default : Op Float} {m : Merge Float}

namespace Appends

theorem kept_add_dropped (h : m.Appends previous fresh default) :
    m.summary.kept + m.summary.dropped.length = previous.length := by
  have hdropped := congrArg List.length h.dropped
  rw [List.length_map] at hdropped
  rw [h.kept, hdropped, Nat.add_comm]
  exact (previous.length_eq_length_filter_add (Op.isLeftOut fresh)).symm

theorem length_plan (h : m.Appends previous fresh default) :
    m.plan.length =
      m.summary.kept + fresh.additions.length + m.summary.synthesizedCreate.toNat := by
  rw [h.plan, h.kept, ← List.length_append]
  split_ifs with hsynthesized
  · rw [h.synthesized.mp hsynthesized, hsynthesized]
    rfl
  · rw [Bool.eq_false_iff.mpr hsynthesized]
    rfl

theorem plan_ne_nil (h : m.Appends previous fresh default) : m.plan ≠ [] := by
  rw [h.plan]
  split_ifs with hsynthesized
  · exact List.cons_ne_nil _ _
  · exact mt h.synthesized.mpr hsynthesized

end Appends

namespace Replaces

theorem kept_add_dropped (h : m.Replaces previous fresh default) :
    m.summary.kept + m.summary.dropped.length = previous.length := by
  rw [h.kept, h.dropped, List.length_map, Nat.zero_add]

theorem length_plan (h : m.Replaces previous fresh default) :
    m.plan.length =
      m.summary.kept + fresh.additions.length + m.summary.synthesizedCreate.toNat := by
  rw [h.kept, h.plan.perm.length_eq, List.length_append, Nat.zero_add, Nat.add_comm]
  cases m.summary.synthesizedCreate <;> rfl

end Replaces

end Merge

namespace Plan

variable (previous fresh : Plan Float)

theorem appends_amend (default : Op Float) :
    (previous.amend fresh false default).Appends previous fresh default := by
  have hkept := filter_reasonToDrop? fresh previous
  have hsynthesized : (previous.amend fresh false default).summary.synthesizedCreate =
      (fresh.keptFor previous ++ fresh.additions).isEmpty := by
    rw [← hkept]
    rfl
  have hdropped : (previous.amend fresh false default).summary.dropped.map (·.op) =
      previous.filter (Op.isLeftOut fresh) := by
    refine (map_op_dropped _ previous).trans (List.filter_congr fun op _ => ?_)
    exact isSome_reasonToDrop? fresh op
  refine ⟨rfl, ?_, ?_, ?_, hdropped, ?_, fun d hd => ?_⟩
  · rw [hsynthesized, List.isEmpty_iff]
  · rw [hsynthesized, plan_amend_false]
  · rw [← hkept]
    rfl
  · rw [← hdropped, List.map_map]
    rfl
  · obtain ⟨op, -, hop⟩ := List.mem_filterMap.mp hd
    obtain ⟨reason, hreason, rfl⟩ := Option.map_eq_some_iff.mp hop
    exact applies_of_reasonToDrop? hreason

theorem replaces_amend (default : Op Float) :
    (previous.amend fresh true default).Replaces previous fresh default := by
  refine ⟨rfl, createsFirst_createFirst default fresh.additions, rfl, rfl, ?_⟩
  exact List.map_map

theorem balances_amend (creates : Bool) {default : Op Float} (hdefault : default.isFill = false) :
    (previous.amend fresh creates default).Balances previous fresh := by
  have hfresh := fresh.length_eq_length_filter_add Op.isFill
  rw [Nat.add_comm] at hfresh
  have hfill : ∀ op ∈ (previous.amend fresh creates default).plan, op.isFill = false :=
    fun op hop => isFill_of_mem_amend hdefault hop
  cases creates with
  | true =>
    have h := replaces_amend previous fresh default
    exact ⟨rfl, hfresh.symm, h.kept_add_dropped, h.length_plan, h.plan.ne_nil, hfill⟩
  | false =>
    have h := appends_amend previous fresh default
    exact ⟨rfl, hfresh.symm, h.kept_add_dropped, h.length_plan, h.plan_ne_nil, hfill⟩

/-- Without its fill directives, a request leaves out the same of the operations that none of them
cancels. -/
theorem filter_isSpared_dropped (creates : Bool) (default : Op Float) :
    (previous.amend fresh creates default).summary.dropped.filter (·.op.isSpared) =
      (previous.amend fresh.additions creates default).summary.dropped.filter (·.op.isSpared) := by
  cases creates with
  | true => rfl
  | false =>
    -- Both requests give such an operation the reason that a request without fill directives would.
    refine filter_dropped_congr (fun op hop => ?_) previous
    refine (reasonToDrop?_of_isSpared hop _ _).trans ?_
    refine Eq.trans ?_ (reasonToDrop?_of_isSpared hop _ _).symm
    exact congrArg (reasonToDrop? [] · op) (any_isSeed_additions fresh.additions).symm

/-- Nothing is lost silently in a merge, whatever the plan, the request and the default grid are. -/
theorem amend_accounts (rows cols : UInt32) :
    (previous.amend fresh false (.build rows cols)).Appends previous fresh (.build rows cols) ∧
    (previous.amend fresh true (.build rows cols)).Replaces previous fresh (.build rows cols) ∧
    ∀ creates,
      (previous.amend fresh creates (.build rows cols)).Balances previous fresh ∧
      (previous.amend fresh creates (.build rows cols)).summary.dropped.filter (·.op.isSpared) =
        (previous.amend fresh.additions creates (.build rows cols)).summary.dropped.filter
          (·.op.isSpared) :=
  ⟨appends_amend previous fresh _, replaces_amend previous fresh _, fun creates =>
    ⟨balances_amend previous fresh creates rfl, filter_isSpared_dropped previous fresh creates _⟩⟩

/-- Equal operations are left out together; here the fill directive cancels two, and the new seed
stands for the old one. -/
example :
    let m := amend [.build 9 3, .deleteRows 2 4, .seed 1, .deleteRows 2 4, .marginStart 2]
      [.fillRows 3 3, .seed 7] false (.build 100 3 : Op Float)
    m.plan = [.build 9 3, .marginStart 2, .seed 7] ∧
      m.summary.dropped.map (·.op) = [.deleteRows 2 4, .seed 1, .deleteRows 2 4] :=
  ⟨rfl, rfl⟩

end Plan

end Raceway
