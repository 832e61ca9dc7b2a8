import Mathlib
import Raceway.Proofs.Execution
import Raceway.Proofs.Grid.Slots
import Raceway.Proofs.Random.Draws
/-!
# Random holes

A random removal goes through the slots and draws one number for each tile outside the margins. It
visits each slot once, so that the tiles it finds are those that were there at the start, and the
numbers drawn belong to them in the order of their places. The tiles whose numbers lie below the
threshold are removed.

What is drawn, and for which tiles, does not depend on the threshold. So a greater threshold removes
all that a smaller one removes, and leaves the stream in the same place.

## Main definitions

* `Raceway.Grid.exposed`: the places of the tiles outside the margins, row by row.
* `Raceway.Grid.drawnBelow`: the entries of a list whose draws lie below a threshold.
* `Raceway.Grid.holes`: the places of the tiles that are removed.

## Main results

* `Raceway.Grid.foldl_drawHole`: what a random removal does, slot by slot.
* `Raceway.Grid.Laid.randomHoles_eq`: what it does, by rows and columns.
* `Raceway.Track.perform_randomHoles`: random holes for a chance in percent.
-/

namespace Raceway

open Raceway.Random Raceway.Decimal

namespace Grid

variable {g : Grid} {row col : UInt32} {percent threshold threshold' : Float} {stream : Stream}

/-! ### Entries and draws -/

section

variable {α β : Type} {l : List α}

/-- The entries of a list whose draws lie below a threshold, with one draw for each entry. -/
def drawnBelow (threshold : Float) (l : List α) (stream : Stream) : List α :=
  ((l.zip (stream.draws l.length)).filter fun x => x.2 < threshold).map Prod.fst

theorem drawnBelow_cons (threshold : Float) (a : α) (l : List α) (stream : Stream) :
    drawnBelow threshold (a :: l) stream =
      if stream.unit.1 < threshold then a :: drawnBelow threshold l stream.unit.2
      else drawnBelow threshold l stream.unit.2 := by
  rw [drawnBelow, List.length_cons, Stream.draws_succ, List.zip_cons_cons, List.filter_cons]
  simp only [decide_eq_true_iff]
  split_ifs <;> rfl

theorem drawnBelow_map (f : α → β) (threshold : Float) (l : List α) (stream : Stream) :
    drawnBelow threshold (l.map f) stream = (drawnBelow threshold l stream).map f := by
  induction l generalizing stream with
  | nil => rfl
  | cons a l ih =>
    rw [List.map_cons, drawnBelow_cons, drawnBelow_cons, ih]
    split_ifs <;> rfl

theorem drawnBelow_sublist (threshold : Float) (l : List α) (stream : Stream) :
    (drawnBelow threshold l stream).Sublist l := by
  induction l generalizing stream with
  | nil => exact .slnil
  | cons a l ih =>
    rw [drawnBelow_cons]
    split_ifs
    · exact (ih _).cons_cons a
    · exact (ih _).cons a

theorem drawnBelow_mono (h : ∀ k, stream.draw k < threshold → stream.draw k < threshold') :
    drawnBelow threshold l stream ⊆ drawnBelow threshold' l stream := by
  intro a ha
  obtain ⟨x, hx, rfl⟩ := List.mem_map.mp ha
  obtain ⟨hx, hlt⟩ := List.mem_filter.mp hx
  obtain ⟨k, -, hk⟩ := List.mem_map.mp (List.of_mem_zip (b := x.2) hx).2
  rw [decide_eq_true_iff, ← hk] at hlt
  refine List.mem_map.mpr ⟨x, List.mem_filter.mpr ⟨hx, ?_⟩, rfl⟩
  rw [decide_eq_true_iff, ← hk]
  exact h k hlt

theorem drawnBelow_eq_self (h : ∀ k, stream.draw k < threshold) :
    drawnBelow threshold l stream = l := by
  induction l generalizing stream with
  | nil => rfl
  | cons a l ih =>
    have hfirst : stream.unit.1 < threshold := h 0
    rw [drawnBelow_cons, if_pos hfirst, ih fun k => h (k + 1)]

theorem drawnBelow_eq_nil (h : ∀ k, ¬ stream.draw k < threshold) :
    drawnBelow threshold l stream = [] := by
  induction l generalizing stream with
  | nil => rfl
  | cons a l ih =>
    have hfirst : ¬ stream.unit.1 < threshold := h 0
    rw [drawnBelow_cons, if_neg hfirst, ih fun k => h (k + 1)]

end

/-! ### Slot by slot -/

/-- The slot holds a tile outside the margins. -/
def isExposed (g : Grid) (slots : Array (Option Tile)) (i : ℕ) : Bool :=
  slots[i]?.join.isSome && !g.isProtected (g.rowOf i)

/-- A random removal that visits each slot once draws for the exposed tiles in turn, and removes
those whose draws lie below the threshold. -/
theorem foldl_drawHole {is : List ℕ} (hnodup : is.Nodup) (s : Holes) :
    is.foldl (g.drawHole threshold) s =
      ⟨removeSlots (drawnBelow threshold (is.filter (g.isExposed s.slots)) s.stream) s.slots,
        s.stream.after (is.filter (g.isExposed s.slots)).length,
        s.removed +
          (drawnBelow threshold (is.filter (g.isExposed s.slots)) s.stream).length⟩ := by
  induction is generalizing s with
  | nil => rfl
  | cons i is ih =>
    obtain ⟨hi, hnodup⟩ := List.nodup_cons.mp hnodup
    have hdraw : g.drawHole threshold s i =
        if g.isExposed s.slots i then
          if s.stream.unit.1 < threshold then
            ⟨mapSlot (fun _ => none) i s.slots, s.stream.unit.2, s.removed + 1⟩
          else ⟨s.slots, s.stream.unit.2, s.removed⟩
        else s := rfl
    -- The slot that is visited first is none of the others.
    have hrest : is.filter (g.isExposed (mapSlot (fun _ => none) i s.slots)) =
        is.filter (g.isExposed s.slots) := by
      refine List.filter_congr fun j hj => ?_
      have hne : i ≠ j := fun heq => hi (heq ▸ hj)
      rw [isExposed, mapSlot, Array.getElem?_modify, if_neg hne, isExposed]
    rw [List.foldl_cons, ih hnodup, hdraw, List.filter_cons]
    split_ifs with hexposed hlt
    · dsimp only
      rw [hrest, drawnBelow_cons, if_pos hlt, List.length_cons, List.length_cons,
        Nat.add_right_comm, Nat.add_assoc]
      rfl
    · rw [drawnBelow_cons, if_neg hlt]
      rfl
    · rfl

/-! ### By rows and columns -/

/-- The places of the tiles outside the margins, row by row. -/
def exposed (g : Grid) : List (UInt32 × UInt32) :=
  ((words 0 g.rows.toNat).product (words 0 g.cols.toNat)).filter fun x =>
    (g.tile? x.1 x.2).isSome && !g.isProtected x.1

/-- The places of the tiles that a random removal removes: those whose draws lie below the chance,
where the tiles outside the margins are given the next draws in turn. -/
def holes (g : Grid) (percent : Float) (stream : Stream) : List (UInt32 × UInt32) :=
  drawnBelow (percent / 100) g.exposed stream

theorem mem_exposed :
    (row, col) ∈ g.exposed ↔ (g.tile? row col).isSome ∧ g.isProtected row = false := by
  rw [exposed, List.mem_filter, List.pair_mem_product, mem_words_zero, mem_words_zero,
    Bool.and_eq_true, Bool.not_eq_true', and_iff_right_of_imp]
  rintro ⟨hsome, -⟩
  obtain ⟨t, ht⟩ := Option.isSome_iff_exists.mp hsome
  exact lt_of_tile?_eq_some ht

theorem nodup_holes (g : Grid) (percent : Float) (stream : Stream) :
    (g.holes percent stream).Nodup := by
  have hwords (n : UInt32) : (words 0 n.toNat).Nodup := nodup_words (by
    rw [Nat.zero_add]
    exact n.toNat_lt.le)
  exact (((hwords _).product (hwords _)).filter _).sublist (drawnBelow_sublist ..)

theorem Laid.filter_isExposed (h : g.Laid) :
    (List.range g.slots.size).filter (g.isExposed g.slots) =
      g.exposed.map fun x => g.index x.1 x.2 := by
  have hslots : List.range g.slots.size =
      ((words 0 g.rows.toNat).product (words 0 g.cols.toNat)).map fun x => g.index x.1 x.2 := by
    rw [List.range_eq_range']
    refine (slots_fullSpan h).trans ?_
    rw [List.product, List.map_flatMap]
    refine List.flatMap_congr fun row hrow => ?_
    rw [slots_rowSpan (mem_words_zero.mp hrow), List.map_map]
    rfl
  rw [hslots, exposed, List.filter_map]
  refine congrArg (List.map _) (List.filter_congr fun x hx => ?_)
  obtain ⟨hrow, hcol⟩ := List.pair_mem_product.mp hx
  rw [mem_words_zero] at hrow hcol
  rw [Function.comp_apply, isExposed, rowOf_index hcol, tile?,
    if_pos (inBounds_iff.mpr ⟨hrow, hcol⟩), slotTile?]

/-- A random removal, by rows and columns. -/
theorem Laid.randomHoles_eq (h : g.Laid) (percent : Float) (stream : Stream) :
    g.randomHoles percent stream =
      ({ g with slots :=
          Grid.removeSlots ((g.holes percent stream).map fun x => g.index x.1 x.2) g.slots },
        stream.after g.exposed.length, (g.holes percent stream).length) := by
  rw [randomHoles, foldl_drawHole List.nodup_range, h.filter_isExposed, drawnBelow_map,
    List.length_map, List.length_map, Nat.zero_add]
  rfl

theorem tile?_randomHoles (h : g.Laid) (percent : Float) (stream : Stream) (row col : UInt32) :
    (g.randomHoles percent stream).1.tile? row col =
      if (row, col) ∈ g.holes percent stream then none else g.tile? row col := by
  have htile : (g.randomHoles percent stream).1.tile? row col =
      if g.inBounds row col then (removeSlots ((g.holes percent stream).map fun x =>
        g.index x.1 x.2) g.slots)[g.index row col]?.join else none := by
    rw [h.randomHoles_eq]
    rfl
  rw [htile, getElem?_removeSlots, tile?]
  by_cases hin : g.inBounds row col = true
  · have hmem : g.index row col ∈ (g.holes percent stream).map (fun x => g.index x.1 x.2) ↔
        (row, col) ∈ g.holes percent stream := by
      refine ⟨fun hmem => ?_, fun hmem => List.mem_map.mpr ⟨_, hmem, rfl⟩⟩
      obtain ⟨x, hx, hindex⟩ := List.mem_map.mp hmem
      have hcol : x.2 < g.cols := by
        obtain ⟨t, ht⟩ := Option.isSome_iff_exists.mp
          (mem_exposed.mp ((drawnBelow_sublist ..).subset hx : (x.1, x.2) ∈ g.exposed)).1
        exact (lt_of_tile?_eq_some ht).2
      rwa [← index_inj hcol (inBounds_iff.mp hin).2 hindex]
    rw [if_pos hin, if_pos hin]
    simp only [hmem]
    split_ifs
    · cases g.slots[g.index row col]? <;> rfl
    · rfl
  · rw [if_neg hin, if_neg hin, ite_self]

end Grid

/-! ### Chances in percent -/

theorem stands_zero : Stands (0 : Float).toModel.unpack 0 :=
  .zero _

theorem stands_hundred : Stands (100 : Float).toModel.unpack 100 := by
  have hhundred : Stands (100 : Float).toModel.unpack ((0x19000000000000 : ℕ) * 2 ^ (-46 : ℤ)) :=
    .positive (by decide) ⟨by decide, by decide, .inr (by decide)⟩
  have hvalue : ((0x19000000000000 : ℕ) * 2 ^ (-46 : ℤ) : ℚ) = 100 := by norm_num
  rwa [hvalue] at hhundred

/-- A chance in percent is a number, and so is the hundredth of it. -/
theorem exists_stands_percent {percent : Float} (hlow : 0 ≤ percent) (hhigh : percent ≤ 100) :
    ∃ v r, Stands percent.toModel.unpack v ∧ 0 ≤ v ∧ v ≤ 100 ∧
      Stands (percent / 100).toModel.unpack r ∧ Rounded (v / 100) r := by
  obtain ⟨v, hv⟩ := exists_stands (isFinite_of_le_of_le rfl rfl hlow hhigh)
  have hv0 : 0 ≤ v := (stands_zero.le_iff hv).mp hlow
  have hv100 : v ≤ 100 := (hv.le_iff stands_hundred).mp hhigh
  have hsmall : v / 100 < 2 ^ 1022 := by
    calc v / 100 ≤ 1 := by linarith
      _ < 2 ^ 1022 := one_lt_pow₀ one_lt_two (by decide)
  obtain ⟨r, hr, hround⟩ := exists_stands_div hv stands_hundred hv0 (by norm_num) hsmall
  exact ⟨v, r, hv, hv0, hv100, hr, hround⟩

/-- A draw below a chance lies below every greater one. -/
theorem draw_lt_of_le {p q : Float} (hp : 0 ≤ p) (hp' : p ≤ 100) (hq : 0 ≤ q) (hq' : q ≤ 100)
    (hpq : p ≤ q) {stream : Stream} {k : ℕ} (h : stream.draw k < p / 100) :
    stream.draw k < q / 100 := by
  obtain ⟨u, hu, -, -⟩ := stream.exists_stands_draw k
  obtain ⟨v, r, hv, -, -, hr, hround⟩ := exists_stands_percent hp hp'
  obtain ⟨v', r', hv', -, -, hr', hround'⟩ := exists_stands_percent hq hq'
  have hle : v / 100 ≤ v' / 100 :=
    div_le_div_of_nonneg_right ((hv.le_iff hv').mp hpq) (by norm_num)
  exact (hu.lt_iff hr').mpr (((hu.lt_iff hr).mp h).trans_le (hround.mono hround' hle))

/-- Every draw lies below a chance of a hundred percent. -/
theorem draw_lt_hundred (stream : Stream) (k : ℕ) : stream.draw k < 100 / 100 := by
  obtain ⟨u, hu, -, hlt⟩ := stream.exists_stands_draw k
  have hsmall : (100 / 100 : ℚ) < 2 ^ 1022 := by
    rw [div_self (by norm_num)]
    exact one_lt_pow₀ one_lt_two (by decide)
  obtain ⟨r, hr, hround⟩ :=
    exists_stands_div stands_hundred stands_hundred (by norm_num) (by norm_num) hsmall
  have hone : Rounded 1 1 := by
    have hself := rounded_self (⟨by decide, by decide, .inr le_rfl⟩ : Fits (2 ^ 52) (-52))
    have hvalue : ((2 ^ 52 : ℕ) * 2 ^ (-52 : ℤ) : ℚ) = 1 := by norm_num
    rwa [hvalue] at hself
  exact (hu.lt_iff hr).mpr (hlt.trans_le (hone.mono hround (by norm_num)))

/-- No draw lies below a chance of zero. -/
theorem not_draw_lt_zero {percent : Float} (hlow : 0 ≤ percent) (hzero : percent ≤ 0)
    (stream : Stream) (k : ℕ) : ¬ stream.draw k < percent / 100 := by
  obtain ⟨u, hu, hnonneg, -⟩ := stream.exists_stands_draw k
  have hhigh : percent ≤ 100 := by
    obtain ⟨v, hv⟩ := exists_stands (isFinite_of_le_of_le rfl rfl hlow hzero)
    have hv0 := (hv.le_iff stands_zero).mp hzero
    exact (hv.le_iff stands_hundred).mpr (by linarith)
  obtain ⟨v, r, hv, -, -, hr, hround⟩ := exists_stands_percent hlow hhigh
  have hv0 := (hv.le_iff stands_zero).mp hzero
  have hr0 : r ≤ 0 := hround.mono rounded_zero (by linarith)
  rw [hu.lt_iff hr]
  exact (hr0.trans hnonneg).not_gt

/-! ### Random holes -/

section

variable (params : Params)

theorem Op.check_randomHoles {percent : Float} (hlow : 0 ≤ percent) (hhigh : percent ≤ 100) :
    (Op.randomHoles percent).check params = .ok () := by
  rw [check, if_pos ⟨hlow, hhigh⟩]

/-- Random holes on a grid that has been built, for a chance in percent and from any stream,
whatever draws are pending there. The next draws are given to the tiles outside the margins, row by
row. Exactly the tiles whose draws lie below the chance are removed, and they are counted; all else
stays as it was, and the stream goes on behind these draws. So a greater chance removes all tiles
that a smaller one removes, a hundred percent leaves no tile outside the margins, and a chance of
zero removes nothing. -/
theorem Track.perform_randomHoles {g : Grid} (hg : g.Laid) (stream : Stream) :
    (∀ percent : Float, 0 ≤ percent → percent ≤ 100 →
      perform params (.randomHoles percent) ⟨some g, stream⟩ =
        .ok (⟨some (g.randomHoles percent stream).1, stream.after g.exposed.length⟩,
          (g.holes percent stream).length) ∧
      (g.randomHoles percent stream).1 =
        { g with slots := (g.randomHoles percent stream).1.slots } ∧
      (g.randomHoles percent stream).1.Laid ∧ (g.holes percent stream).Nodup ∧
      ∀ row col, (g.randomHoles percent stream).1.tile? row col =
        if (row, col) ∈ g.holes percent stream then none else g.tile? row col) ∧
    (∀ p q : Float, 0 ≤ p → p ≤ 100 → 0 ≤ q → q ≤ 100 → p ≤ q →
      g.holes p stream ⊆ g.holes q stream) ∧
    (∀ row col, g.isProtected row = false →
      (g.randomHoles 100 stream).1.tile? row col = none) ∧
    ∀ percent : Float, 0 ≤ percent → percent ≤ 0 → (g.randomHoles percent stream).1 = g := by
  refine ⟨fun percent hlow hhigh =>
      ⟨?_, rfl, ?_, g.nodup_holes percent stream, Grid.tile?_randomHoles hg percent stream⟩,
    fun p q hp hp' hq hq' hpq => ?_, fun row col hrow => ?_, fun percent hlow hzero => ?_⟩
  · rw [perform_of_check (Op.check_randomHoles params hlow hhigh)]
    refine congrArg Except.ok (act_of_grid_some rfl ?_)
    exact (hg.randomHoles_eq percent stream).trans (by rw [hg.randomHoles_eq])
  · rw [hg.randomHoles_eq]
    exact (Grid.size_foldl_changes ..).trans hg
  · exact Grid.drawnBelow_mono fun k => draw_lt_of_le hp hp' hq hq' hpq
  · rw [Grid.tile?_randomHoles hg, Grid.holes, Grid.drawnBelow_eq_self (draw_lt_hundred stream)]
    split_ifs with hmem
    · rfl
    · rw [Grid.mem_exposed, not_and] at hmem
      exact Option.not_isSome_iff_eq_none.mp fun hsome => hmem hsome hrow
  · rw [hg.randomHoles_eq, Grid.holes,
      Grid.drawnBelow_eq_nil (not_draw_lt_zero hlow hzero stream)]
    rfl

/-- Five tiles outside the margin of a grid that has lost two tiles, one of them in the margin: two
of the five are removed at twenty percent, and a third one at seventy. -/
theorem Track.perform_randomHoles_margin :
    let g : Grid := { (((Grid.full 4 2).removeTile 1 0).1.removeTile 0 1).1 with marginStart := 1 }
    g.holes 70 (Stream.ofSeed 7) = [(1, 1), (2, 0), (3, 1)] ∧
      perform {} (.randomHoles 70) ⟨some g, Stream.ofSeed 7⟩ =
        .ok (⟨some (g.randomHoles 70 (Stream.ofSeed 7)).1, (Stream.ofSeed 7).after 5⟩, 3) ∧
      g.holes 20 (Stream.ofSeed 7) ⊆ [(1, 1), (2, 0), (3, 1)] ∧
      ((g.randomHoles 100 (Stream.ofSeed 7)).1.tile? 2 1).isNone = true := by
  intro g
  have hg : g.Laid := by unfold Grid.Laid; decide
  have hexposed : g.exposed.length = 5 := by decide
  have hholes : g.holes 70 (Stream.ofSeed 7) = [(1, 1), (2, 0), (3, 1)] := by decide +kernel
  have hlow : (0 : Float) ≤ 20 ∧ (20 : Float) ≤ 100 ∧ (20 : Float) ≤ 70 := by decide +kernel
  have hhigh : (0 : Float) ≤ 70 ∧ (70 : Float) ≤ 100 := by decide +kernel
  obtain ⟨hperform, hmono, hall, -⟩ := perform_randomHoles {} hg (Stream.ofSeed 7)
  have hseventy := (hperform 70 hhigh.1 hhigh.2).1
  have hsubset := hmono 20 70 hlow.1 hlow.2.1 hhigh.1 hhigh.2 hlow.2.2
  rw [hexposed, hholes] at hseventy
  rw [hholes] at hsubset
  refine ⟨hholes, hseventy, hsubset, ?_⟩
  rw [hall 2 1 (by decide), Option.isNone_none]

end

end Raceway
