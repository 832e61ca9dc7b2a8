import Mathlib
import Raceway.Proofs.Grid.GuardedShape
import Raceway.Proofs.Plan.Accounting
/-!
# Operations that can change places

Removing rows, tiles of a row, or evenly spaced rows takes the tiles out of some slots. Which slots
these are depends on the rows, the columns and the margins of the grid, and not on its tiles. So
removals can be made in any order: the same tiles are gone at the end, and although a single one may
count more or fewer tiles in another place of the order, all of them together count the tiles that
are gone.

Curves, bends and slopes displace each tile by an amount that depends on its slot, and draw random
numbers for rows and not for tiles. So a removal can be made in front of one of them or behind it.

## Main definitions

* `Raceway.Op.deletes` and `Raceway.Op.displaces`: the operations that can change places.
* `Raceway.Grid.without` and `Raceway.Grid.displaced`: a grid without some tiles, and with some
  tiles displaced.
* `Raceway.Grid.deletedSlots`: the slots that a removal takes the tiles from.
* `Raceway.Track.performAll`: operations carried out one after the other.

## Main results

* `Raceway.Grid.without_displaced`: removing tiles and displacing tiles commute.
* `Raceway.Grid.act_of_deletes` and `Raceway.Grid.exists_act_of_displaces`: what the operations do
  to a grid.
* `Raceway.Track.performAll_reordered`: the operations can change places.
-/

namespace Raceway

open Raceway.Random

/-! ### Operations -/

/-- The operation removes tiles that it names by their rows and columns. -/
def Op.deletes {α : Type} : Op α → Bool
  | deleteRows .. | deleteTiles .. | jumpGaps .. => true
  | _ => false

/-- The operation displaces each tile by itself. -/
def Op.displaces {α : Type} : Op α → Bool
  | curve .. | sBend .. | slopes .. => true
  | _ => false

section

variable {α : Type} {op : Op α}

theorem Op.removes_of_deletes (h : op.deletes = true) : op.removes = true := by
  cases op <;> first | rfl | exact Bool.noConfusion h

theorem Op.isCreate_of_deletes (h : op.deletes = true) : op.isCreate = false := by
  cases op <;> first | rfl | exact Bool.noConfusion h

theorem Op.isCreate_of_displaces (h : op.displaces = true) : op.isCreate = false := by
  cases op <;> first | rfl | exact Bool.noConfusion h

end

/-- A removal accepts all arguments. -/
theorem Op.check_of_deletes (params : Params) {op : Op Float} (h : op.deletes = true) :
    op.check params = .ok () := by
  cases op <;> first | rfl | exact Bool.noConfusion h

namespace Grid

variable {g : Grid} {i j : ℕ} {slots : Array (Option Tile)}

/-! ### Slots -/

/-- Two changes of a tile that commute also do so where each is made in a slot of its own. -/
theorem mapSlot_comm {f f' : Tile → Option Tile} (h : ∀ t, (f t).bind f' = (f' t).bind f) :
    mapSlot f i (mapSlot f' j slots) = mapSlot f' j (mapSlot f i slots) := by
  refine Array.ext_getElem? fun k => ?_
  simp only [mapSlot, Array.getElem?_modify]
  split_ifs
  · rcases slots[k]? with _ | _ | t
    · rfl
    · rfl
    · exact congrArg some (h t).symm
  all_goals rfl

theorem removeSlots_displaceSlots (is js : List ℕ) (f : ℕ → Tile → Tile)
    (slots : Array (Option Tile)) :
    removeSlots is (displaceSlots f js slots) = displaceSlots f js (removeSlots is slots) := by
  have hstep (i j : ℕ) (slots : Array (Option Tile)) :
      mapSlot (fun _ => none) i (mapSlot (fun t => some (f j t)) j slots) =
        mapSlot (fun t => some (f j t)) j (mapSlot (fun _ => none) i slots) :=
    mapSlot_comm fun _ => rfl
  have hslot (j : ℕ) (slots : Array (Option Tile)) :
      removeSlots is (mapSlot (fun t => some (f j t)) j slots) =
        mapSlot (fun t => some (f j t)) j (removeSlots is slots) :=
    List.foldl_hom (mapSlot (fun t => some (f j t)) j) fun slots i => hstep i j slots
  exact (List.foldl_hom (removeSlots is) fun slots j => (hslot j slots).symm).symm

/-- The grid without the tiles in some slots. -/
def without (g : Grid) (is : List ℕ) : Grid :=
  { g with slots := removeSlots is g.slots }

/-- The grid with the tiles in some slots displaced. -/
def displaced (g : Grid) (f : ℕ → Tile → Tile) (is : List ℕ) : Grid :=
  { g with slots := displaceSlots f is g.slots }

theorem without_without (g : Grid) (is js : List ℕ) :
    (g.without is).without js = (g.without js).without is := by
  have happend (is js : List ℕ) : (g.without is).without js = g.without (is ++ js) := by
    rw [without, without, without, removeSlots_append]
  have hmem (i : ℕ) : i ∈ is ++ js ↔ i ∈ js ++ is := by
    rw [List.mem_append, List.mem_append, or_comm]
  rw [happend, happend, without, removeSlots_congr hmem, without]

/-- Removing tiles and displacing tiles commute. -/
theorem without_displaced (g : Grid) (is js : List ℕ) (f : ℕ → Tile → Tile) :
    (g.displaced f js).without is = (g.without is).displaced f js := by
  rw [without, displaced, displaced, without, removeSlots_displaceSlots]

/-! ### Removals -/

/-- The slots that an operation takes the tiles from. -/
def deletedSlots (g : Grid) : Op Float → List ℕ
  | .deleteRows a b => (g.rowsSpan a b).slots
  | .deleteTiles cols row =>
    (g.rowSpan row).slots.filter fun i => cols.any fun c => c.toNat == (g.colOf i).toNat + 1
  | .jumpGaps n =>
    ((gapRows Float g.rows n).filter fun row => row < g.rows && !g.isProtected row).flatMap
      fun row => (g.rowSpan row).slots
  | _ => []

theorem deletedSlots_without (g : Grid) (is : List ℕ) (op : Op Float) :
    (g.without is).deletedSlots op = g.deletedSlots op := by
  cases op <;> rfl

theorem deletedSlots_displaced (g : Grid) (f : ℕ → Tile → Tile) (is : List ℕ) (op : Op Float) :
    (g.displaced f is).deletedSlots op = g.deletedSlots op := by
  cases op <;> rfl

theorem removeRow_fst (g : Grid) (row : UInt32) :
    (g.removeRow row).1 = g.without (g.rowSpan row).slots := by
  rw [removeRow, removeWhere_fst, List.filter_true, without]

/-- Cutting gaps takes the tiles of their rows, unless these are protected. -/
theorem foldl_cutGap_fst (rows : List UInt32) (s : Grid × ℕ) :
    (rows.foldl cutGap s).1 = s.1.without
      ((rows.filter fun row => row < s.1.rows && !s.1.isProtected row).flatMap fun row =>
        (s.1.rowSpan row).slots) := by
  induction rows generalizing s with
  | nil => rfl
  | cons row rows ih =>
    rw [List.foldl_cons, ih, List.filter_cons, cutGap]
    split_ifs
    · rw [List.flatMap_cons, without, without, removeSlots_append]
      dsimp only
      rw [removeRow_fst]
      rfl
    · rfl

/-- What a removal does to the grid and the stream. -/
theorem act_of_deletes (params : Params) {op : Op Float} (h : op.deletes = true) (g : Grid)
    (stream : Stream) :
    ∃ n, g.act params op stream = (g.without (g.deletedSlots op), stream, n) := by
  have hkeep {r : Grid × ℕ} {g' : Grid} (hr : r.1 = g') :
      ∃ n, act.keep stream r = (g', stream, n) := ⟨r.2, by rw [act.keep, hr]⟩
  cases op with
  | deleteRows a b =>
    refine hkeep ?_
    rw [deleteRows, removeWhere_fst, List.filter_true]
    rfl
  | deleteTiles cols row => exact hkeep (removeWhere_fst ..)
  | jumpGaps n => exact hkeep (foldl_cutGap_fst _ (g, 0))
  | _ => exact Bool.noConfusion h

/-! ### Displacements -/

/-- What an operation that displaces tiles does in a slot, and what it draws, does not depend on
which tiles are there. -/
theorem exists_act_of_displaces (params : Params) {op : Op Float} (h : op.displaces = true)
    (g : Grid) (stream : Stream) :
    ∃ f is rest, ∀ js, ∃ n,
      (g.without js).act params op stream = ((g.without js).displaced f is, rest, n) := by
  cases op with
  | curve a b side degrees =>
    exact ⟨g.moved a b _, (g.rowsSpan a b).slots, stream, fun _ => ⟨_, rfl⟩⟩
  | sBend a b degrees gain ratio =>
    exact ⟨g.moved a b _, (g.rowsSpan a b).slots, stream, fun _ => ⟨_, rfl⟩⟩
  | slopes low high segment =>
    let lifting := lifts low high segment params.rowPitch.toFloat g.rows.toNat stream
    refine ⟨g.raised lifting.1, g.fullSpan.slots, lifting.2.stream, fun js => ?_⟩
    have hspan : (g.without js).fullSpan = g.fullSpan :=
      congrArg (Span.mk 0) (size_foldl_changes id (fun _ _ => none) js g.slots)
    rw [← hspan]
    exact ⟨_, rfl⟩
  | _ => exact Bool.noConfusion h

end Grid

/-! ### The live track -/

namespace Track

variable (params : Params) {op op' : Op Float}

/-- Carry out operations one after the other. The count is that of all tiles or rows that they
affect. -/
def performAll (params : Params) : Plan Float → Track → Except ArgumentError (Track × ℕ)
  | [], t => return (t, 0)
  | op :: ops, t => do
    let (t, n) ← t.perform params op
    let (t, m) ← performAll params ops t
    return (t, n + m)

/-- Operations that accept their arguments do one after the other what each of them does. -/
theorem performAll_of_check {ops : Plan Float} (hops : ∀ op ∈ ops, op.check params = .ok ())
    (t : Track) :
    t.performAll params ops = .ok (t.actAll params ops, (t.counts params ops).sum) := by
  induction ops generalizing t with
  | nil => rfl
  | cons op ops ih =>
    obtain ⟨hop, hops⟩ := List.forall_mem_cons.mp hops
    rw [performAll, perform_of_check hop, ok_bind]
    dsimp only
    rw [ih hops]
    rfl

theorem fst_act_of_deletes (h : op.deletes = true) (g : Grid) (stream : Stream) :
    (act params op ⟨some g, stream⟩).1 = ⟨some (g.without (g.deletedSlots op)), stream⟩ := by
  obtain ⟨n, hn⟩ := Grid.act_of_deletes params h g stream
  rw [act_of_grid_some (Op.isCreate_of_deletes h) hn]

/-- Operations that build no grid can change places where there is none. -/
theorem act_act_of_grid_none (h : op.isCreate = false) (h' : op'.isCreate = false) {t : Track}
    (ht : t.grid = none) :
    ((t.act params op).1.act params op').1 = ((t.act params op').1.act params op).1 := by
  rw [act_of_grid_none h ht, act_of_grid_none h' ht, act_of_grid_none h ht]

/-- Two removals can change places. -/
theorem act_act_of_deletes (h : op.deletes = true) (h' : op'.deletes = true) (t : Track) :
    ((t.act params op).1.act params op').1 = ((t.act params op').1.act params op).1 := by
  obtain ⟨_ | g, stream⟩ := t
  · exact act_act_of_grid_none params (Op.isCreate_of_deletes h) (Op.isCreate_of_deletes h') rfl
  · have hboth {op op' : Op Float} (h : op.deletes = true) (h' : op'.deletes = true) :
        ((act params op ⟨some g, stream⟩).1.act params op').1 =
          ⟨some ((g.without (g.deletedSlots op)).without (g.deletedSlots op')), stream⟩ := by
      rw [fst_act_of_deletes params h, fst_act_of_deletes params h', Grid.deletedSlots_without]
    rw [hboth h h', hboth h' h, Grid.without_without]

/-- A removal and a displacement can change places. -/
theorem act_act_of_displaces (h : op.deletes = true) (h' : op'.displaces = true) (t : Track) :
    ((t.act params op).1.act params op').1 = ((t.act params op').1.act params op).1 := by
  have hcreate' := Op.isCreate_of_displaces h'
  obtain ⟨_ | g, stream⟩ := t
  · exact act_act_of_grid_none params (Op.isCreate_of_deletes h) hcreate' rfl
  · obtain ⟨f, is, rest, hdisplace⟩ := Grid.exists_act_of_displaces params h' g stream
    have hact (js : List ℕ) : (act params op' ⟨some (g.without js), stream⟩).1 =
        ⟨some ((g.without js).displaced f is), rest⟩ := by
      obtain ⟨n, hn⟩ := hdisplace js
      rw [act_of_grid_some hcreate' hn]
    have hself : (act params op' ⟨some g, stream⟩).1 = ⟨some (g.displaced f is), rest⟩ := hact []
    rw [fst_act_of_deletes params h, hact, hself, fst_act_of_deletes params h,
      Grid.deletedSlots_displaced, Grid.without_displaced]

/-- Removals count, all together, the tiles that are gone. -/
theorem tileCount_actAll_of_deletes {ops : Plan Float} (hops : ∀ op ∈ ops, op.deletes = true)
    (t : Track) :
    (t.actAll params ops).tileCount + (t.counts params ops).sum = t.tileCount := by
  induction ops generalizing t with
  | nil => rfl
  | cons op ops ih =>
    obtain ⟨hop, hops⟩ := List.forall_mem_cons.mp hops
    have hfirst := tileCount_act params (Op.isCreate_of_deletes hop) t
    rw [if_pos (Op.removes_of_deletes hop)] at hfirst
    have hrest := ih hops (t.act params op).1
    rw [actAll_cons, counts, List.sum_cons]
    omega

/-- What a single removal counts depends on its place in the order. -/
example (stream : Stream) :
    let t : Track := ⟨some (Grid.full 2 2), stream⟩
    t.counts {} [.deleteRows 0 0, .deleteTiles [1] 0] = [2, 0] ∧
      t.counts {} [.deleteTiles [1] 0, .deleteRows 0 0] = [1, 1] :=
  ⟨rfl, rfl⟩

/-- Removals lead to the same track in every order, and count as many tiles. -/
theorem performAll_of_perm {ops ops' : Plan Float} (hops : ∀ op ∈ ops, op.deletes = true)
    (h : ops.Perm ops') (t : Track) :
    ∃ r, t.performAll params ops = .ok r ∧ t.performAll params ops' = .ok r := by
  have hops' : ∀ op ∈ ops', op.deletes = true := fun op hop => hops op (h.mem_iff.mpr hop)
  have hact : t.actAll params ops = t.actAll params ops' := h.foldl_eq' (fun op hop op' hop' t =>
    act_act_of_deletes params (hops op hop) (hops op' hop') t) t
  have hcount := tileCount_actAll_of_deletes params hops t
  have hcount' := tileCount_actAll_of_deletes params hops' t
  rw [hact, ← hcount', Nat.add_left_cancel_iff] at hcount
  refine ⟨(t.actAll params ops, (t.counts params ops).sum), ?_, ?_⟩
  · exact performAll_of_check params (fun op hop => Op.check_of_deletes params (hops op hop)) t
  · rw [hact, hcount]
    exact performAll_of_check params (fun op hop => Op.check_of_deletes params (hops' op hop)) t

/-- On every track, and so on every grid that has been built: removals of rows, of tiles in a row
and of evenly spaced rows lead to the same track in every order, and count as many tiles all
together. A removal of this kind and a curve, a bend or slopes with accepted arguments lead to the
same track in both orders, from the same stream. -/
theorem performAll_reordered (params : Params) (t : Track) :
    (∀ {ops ops' : Plan Float}, (∀ op ∈ ops, op.deletes = true) → ops.Perm ops' →
      ∃ r, t.performAll params ops = .ok r ∧ t.performAll params ops' = .ok r) ∧
    ∀ {op op' : Op Float}, op.deletes = true → op'.displaces = true → op'.check params = .ok () →
      ∃ t' n m, t.performAll params [op, op'] = .ok (t', n) ∧
        t.performAll params [op', op] = .ok (t', m) := by
  refine ⟨fun hops h => performAll_of_perm params hops h t, fun {op op'} h h' hcheck' => ?_⟩
  have hcheck := Op.check_of_deletes params h
  have hact : t.actAll params [op', op] = t.actAll params [op, op'] :=
    (act_act_of_displaces params h h' t).symm
  refine ⟨t.actAll params [op, op'], (t.counts params [op, op']).sum,
    (t.counts params [op', op]).sum, ?_, ?_⟩
  · exact performAll_of_check params (by simp [hcheck, hcheck']) t
  · rw [← hact]
    exact performAll_of_check params (by simp [hcheck, hcheck']) t

/-- Rows, tiles and gaps that overlap are removed next to a margin, in two orders, and rows are
removed before and after slopes. -/
theorem performAll_reordered_gaps :
    let t : Track := ⟨some { Grid.full 5 2 with marginStart := 1 }, Stream.ofSeed 7⟩
    (∃ r, t.performAll {} [.deleteRows 1 2, .deleteTiles [1, 9, 1] 2, .jumpGaps 3] = .ok r ∧
      t.performAll {} [.jumpGaps 3, .deleteRows 1 2, .deleteTiles [1, 9, 1] 2] = .ok r) ∧
    ∃ t' n m, t.performAll {} [.deleteRows 4 1, .slopes (-5) 5 2] = .ok (t', n) ∧
      t.performAll {} [.slopes (-5) 5 2, .deleteRows 4 1] = .ok (t', m) := by
  intro t
  have hcheck : (Op.slopes (-5) 5 2).check {} = .ok () := ok_of_toOption (by decide +kernel)
  obtain ⟨horders, hslopes⟩ := performAll_reordered {} t
  refine ⟨horders (by decide) ?_, hslopes rfl rfl hcheck⟩
  exact List.perm_append_singleton (Op.jumpGaps 3) [.deleteRows 1 2, .deleteTiles [1, 9, 1] 2]

end Track

end Raceway
