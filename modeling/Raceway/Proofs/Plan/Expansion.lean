import Mathlib
import Raceway.Plan.Expand
/-!
# What a plan is expanded to

Each operation of a plan is replaced by a block of operations, which depends on the operations
before it through the layout that they leave. An operation that is not composite is its own block.
The layout behind an operation that builds a grid does not depend on anything before it.

## Main definitions

* `Raceway.Op.StandsFor`: the operations that an operation can be replaced by.
* `Raceway.Plan.layoutAfter`: the layout that the operations of a plan leave.
* `Raceway.Plan.block`: the operations that replace one behind those of a plan.

## Main results

* `Raceway.Plan.standsFor_of_mem_expandOp`: what an operation is replaced by.
* `Raceway.Plan.expand_eq_flatten`: an expanded plan, block by block.
* `Raceway.Plan.expand_laws`: what is left of a plan, once it is expanded, and where it can be cut.
-/

namespace Raceway

variable {α : Type}

/-- The second operation is one of those that the first one is replaced by. -/
inductive Op.StandsFor : Op α → Op α → Prop
  /-- An operation that is not composite is not replaced. -/
  | itself {op : Op α} (h : op.role ≠ .composite) : StandsFor op op
  /-- A fork opens gaps in its rows. -/
  | fork {a b row : UInt32} (gapStart gapEnd : α) (w width : UInt32) (hlow : min a b ≤ row)
    (hhigh : row ≤ max a b) : StandsFor (.fork a b gapStart gapEnd) (Plan.gap w width row)
  /-- So does a rejoin. -/
  | rejoin {a b row : UInt32} (target : α) (w width : UInt32) (hlow : min a b ≤ row)
    (hhigh : row ≤ max a b) : StandsFor (.rejoin a b target) (Plan.gap w width row)
  /-- Heights are smoothed along the columns. -/
  | smoothHeights (passes : UInt32) : StandsFor (.smoothHeights passes) (.smoothColumns passes)

theorem Op.StandsFor.role_ne_composite {op op' : Op α} (h : op.StandsFor op') :
    op'.role ≠ .composite := by
  cases h with
  | itself h => exact h
  | fork => exact OpRole.noConfusion
  | rejoin => exact OpRole.noConfusion
  | smoothHeights => exact OpRole.noConfusion

namespace Plan

/-! ### The rows of a composite operation -/

/-- The rows that a composite operation goes through lie between its ends and in the grid. -/
theorem mem_rowsBetween {a b row : UInt32} {rows : Option UInt32} :
    row ∈ rowsBetween a b rows ↔ min a b ≤ row ∧ row ≤ max a b ∧ ∀ n ∈ rows, row < n := by
  have hmax := (max a b).toNat_lt
  rw [rowsBetween.eq_def, List.mem_map]
  simp only [UInt32.le_iff_toNat_le, UInt32.lt_iff_toNat_lt, List.mem_range'_1]
  constructor
  · rintro ⟨n, ⟨hlow, hhigh⟩, rfl⟩
    have hn : n < UInt32.size := by
      rw [UInt32.size]
      cases rows <;> dsimp only at hhigh <;> omega
    rw [UInt32.toNat_ofNat_of_lt' hn]
    cases rows with
    | none => exact ⟨hlow, by dsimp only at hhigh; omega, fun n hn => nomatch hn⟩
    | some rows =>
      dsimp only at hhigh
      refine ⟨hlow, by omega, fun m hm => ?_⟩
      obtain rfl := Option.some.inj hm
      omega
  · rintro ⟨hlow, hhigh, hrows⟩
    refine ⟨row.toNat, ⟨hlow, ?_⟩, UInt32.ofNat_toNat⟩
    cases rows with
    | none => dsimp only; omega
    | some rows =>
      have hrow := hrows rows rfl
      dsimp only
      omega

variable [Scalar α] {default : UInt32} {layout : Layout α} {plan : Plan α} {op op' : Op α}

/-! ### One operation -/

/-- Every operation that replaces one is one that it stands for. -/
theorem standsFor_of_mem_expandOp (h : op' ∈ (expandOp default layout op).2) :
    op.StandsFor op' := by
  cases op with
  | fork a b gapStart gapEnd =>
    obtain ⟨cut, hcut, rfl⟩ := List.mem_map.mp h
    obtain ⟨row, hrow, rfl⟩ := List.mem_map.mp hcut
    obtain ⟨hlow, hhigh, -⟩ := mem_rowsBetween.mp hrow
    exact .fork gapStart gapEnd _ _ hlow hhigh
  | rejoin a b target =>
    obtain ⟨cut, hcut, rfl⟩ := List.mem_map.mp h
    obtain ⟨row, hrow, rfl⟩ := List.mem_map.mp (List.mem_of_mem_filter hcut)
    obtain ⟨hlow, hhigh, -⟩ := mem_rowsBetween.mp hrow
    exact .rejoin target _ _ hlow hhigh
  | smoothHeights passes =>
    obtain rfl := List.mem_singleton.mp h
    exact .smoothHeights passes
  | _ =>
    obtain rfl := List.mem_singleton.mp h
    exact .itself OpRole.noConfusion

/-- An operation that is not composite is not replaced, and nothing is noticed about it. -/
theorem expandOp_of_role_ne (h : op.role ≠ .composite) (default : UInt32) (layout : Layout α) :
    (expandOp default layout op).2 = [op] ∧ widthNotice default layout op = [] := by
  cases op with
  | fork a b gapStart gapEnd => exact absurd rfl h
  | rejoin a b target => exact absurd rfl h
  | smoothHeights passes => exact absurd rfl h
  | _ => exact ⟨rfl, rfl⟩

/-! ### Operations in order -/

/-- The layout that the operations of a plan leave, from a known layout on. -/
def layoutFrom (default : UInt32) (layout : Layout α) (plan : Plan α) : Layout α :=
  plan.foldl (fun layout op => (expandOp default layout op).1) layout

/-- The layout that the operations of a plan leave. -/
def layoutAfter (default : UInt32) (plan : Plan α) : Layout α :=
  layoutFrom default ⟨none, none, Scalar.ofCount 0⟩ plan

/-- The operations that replace one behind those of a plan. -/
def block (default : UInt32) (before : Plan α) (op : Op α) : Plan α :=
  (expandOp default (before.layoutAfter default) op).2

theorem expandFrom_cons (default : UInt32) (layout : Layout α) (op : Op α) (plan : Plan α) :
    expandFrom default layout (op :: plan) =
      ((expandOp default layout op).2 ++
          (expandFrom default (expandOp default layout op).1 plan).1,
        widthNotice default layout op ++
          (expandFrom default (expandOp default layout op).1 plan).2) :=
  rfl

/-- Operations are expanded from where the ones before them leave the layout. -/
theorem expandFrom_append (default : UInt32) (layout : Layout α) (before after : Plan α) :
    expandFrom default layout (before ++ after) =
      ((expandFrom default layout before).1 ++
          (expandFrom default (layoutFrom default layout before) after).1,
        (expandFrom default layout before).2 ++
          (expandFrom default (layoutFrom default layout before) after).2) := by
  induction before generalizing layout with
  | nil => rfl
  | cons op before ih =>
    have hlayout : layoutFrom default layout (op :: before) =
        layoutFrom default (expandOp default layout op).1 before := rfl
    rw [List.cons_append, expandFrom_cons, ih, hlayout, expandFrom_cons]
    simp only [List.append_assoc]

theorem exists_mem_of_mem_expandFrom (h : op' ∈ (expandFrom default layout plan).1) :
    ∃ op ∈ plan, ∃ layout, op' ∈ (expandOp default layout op).2 := by
  induction plan generalizing layout with
  | nil => exact absurd h List.not_mem_nil
  | cons op plan ih =>
    rw [expandFrom_cons] at h
    rcases List.mem_append.mp h with h | h
    · exact ⟨op, List.mem_cons_self, layout, h⟩
    · obtain ⟨op, hop, hlayout⟩ := ih h
      exact ⟨op, List.mem_cons_of_mem _ hop, hlayout⟩

/-- A plan without composite operations is expanded to itself, and nothing is noticed about it. -/
theorem expandFrom_of_role_ne (h : ∀ op ∈ plan, op.role ≠ .composite) (default : UInt32)
    (layout : Layout α) : expandFrom default layout plan = (plan, []) := by
  induction plan generalizing layout with
  | nil => rfl
  | cons op plan ih =>
    obtain ⟨hop, hplan⟩ := List.forall_mem_cons.mp h
    obtain ⟨hops, hnotice⟩ := expandOp_of_role_ne hop default layout
    rw [expandFrom_cons, ih hplan, hops, hnotice]
    rfl

/-- What is not composite stays, in order. -/
theorem sublist_expandFrom (default : UInt32) (layout : Layout α) (plan : Plan α) :
    (plan.filter fun op => op.role ≠ .composite).Sublist
      (expandFrom default layout plan).1 := by
  induction plan generalizing layout with
  | nil => exact .slnil
  | cons op plan ih =>
    rw [expandFrom_cons, List.filter_cons]
    split_ifs with hop
    · rw [(expandOp_of_role_ne (of_decide_eq_true hop) default layout).1]
      exact (ih _).cons_cons op
    · exact (ih _).trans (List.sublist_append_right _ _)

/-- The layout is forgotten where a grid is built. -/
theorem expandFrom_build (default : UInt32) (layout layout' : Layout α) (rows cols : UInt32)
    (after : Plan α) :
    expandFrom default layout (.build rows cols :: after) =
      expandFrom default layout' (.build rows cols :: after) :=
  rfl

/-- Laws of expanding, for every plan and every assumed width. No operation of an expanded plan is
composite. Expanding it again, for any width, leaves it as it is and notices nothing. The operations
of the plan that are not composite are all still there, in order. And the plan can be cut in front
of any operation that builds a grid: the parts are expanded, with their notices, as if each stood
alone. -/
theorem expand_laws (default : UInt32) (plan : Plan α) :
    (∀ op ∈ (plan.expand default).1, op.role ≠ .composite) ∧
    (∀ width, expand (plan.expand default).1 width = ((plan.expand default).1, [])) ∧
    (plan.filter fun op => op.role ≠ .composite).Sublist (plan.expand default).1 ∧
    ∀ rows cols after, expand (plan ++ .build rows cols :: after) default =
      ((plan.expand default).1 ++ (expand (.build rows cols :: after) default).1,
        (plan.expand default).2 ++ (expand (.build rows cols :: after) default).2) := by
  have hdirect : ∀ op ∈ (plan.expand default).1, op.role ≠ .composite := by
    intro op hop
    obtain ⟨source, -, layout, hmem⟩ := exists_mem_of_mem_expandFrom hop
    exact (standsFor_of_mem_expandOp hmem).role_ne_composite
  refine ⟨hdirect, fun width => expandFrom_of_role_ne hdirect width _,
    sublist_expandFrom default _ plan, fun rows cols after => ?_⟩
  rw [expand, expandFrom_append,
    expandFrom_build default _ ⟨none, none, Scalar.ofCount 0⟩ rows cols after]
  rfl

/-- Heights that are smoothed on the track are smoothed along the columns. -/
theorem expand_laws_smoothHeights :
    .smoothColumns 2 ∈ (expand [.build 4 2, (.smoothHeights 2 : Op Float), .seed 1] 3).1 ∧
      (.smoothColumns 2 : Op Float).role ≠ .composite := by
  have hmem : .smoothColumns 2 ∈
      (expand [.build 4 2, (.smoothHeights 2 : Op Float), .seed 1] 3).1 :=
    List.mem_cons_of_mem _ List.mem_cons_self
  exact ⟨hmem, (expand_laws 3 _).1 _ hmem⟩

end Plan

end Raceway
