import Mathlib
import Raceway.Proofs.Op.Argument
import Raceway.Request.Understanding
/-!
# Operations that calls name

A call is bound by converting its arguments, and conversion accepts only finite numbers and seeds of
signed words. The defaults are of that kind as well. So plan lines can write every operation that a
call names, and with it every operation that a request asks for.

## Main results

* `Raceway.Value.isWritable_of_convert`: conversion gives values that can be written.
* `Raceway.Op.isWritable_of_ofCall`: a call names an operation that can be written.
* `Raceway.isWritable_of_mem_understand`: a request asks for operations that can be written.
-/

namespace Raceway

open Decimal

/-! ### Conversion -/

theorem isFinite_of_number {a : Arg} {x : Float} (h : a.number = .ok x) : x.isFinite = true := by
  have hfinite {y : Float} (h : Arg.number.finite y = .ok x) : x.isFinite = true := by
    rw [Arg.number.finite] at h
    split_ifs at h with hy
    rw [← Except.ok.inj h, hy]
  cases a with
  | float y => exact hfinite h
  | int n => exact hfinite h
  | str s =>
    rw [Arg.number] at h
    split at h
    · exact hfinite h
    · cases h
  | bool b => cases h
  | list items => cases h

theorem le_of_seedOf? {n : ℤ} {seed : UInt64} (h : seedOf? n = some seed) :
    (seed.toNat : ℤ) ≤ maxInt64 := by
  rw [seedOf?] at h
  split_ifs at h with hn
  have hsize : n.toNat < 2 ^ 64 := by
    simp only [maxInt64] at hn
    omega
  rw [← Option.some.inj h, UInt64.toNat_ofNat_of_lt' hsize, Int.toNat_of_nonneg hn.1]
  exact hn.2

/-- Conversion gives values that can be written. -/
theorem Value.isWritable_of_convert {a : Arg} {kind : ValueKind} {v : Value Float}
    (h : a.convert kind = .ok v) : v.IsWritable := by
  have horElse {β : Type} {expected : Expectation} {b? : Option β} {make : β → Value Float}
      (h : @Arg.convert.orElse β expected b? make = .ok v) : ∃ b, b? = some b ∧ make b = v := by
    cases b? with
    | none => cases h
    | some b => exact ⟨b, rfl, Except.ok.inj h⟩
  cases kind with
  | count =>
    obtain ⟨n, -, rfl⟩ := horElse h
    trivial
  | seed =>
    obtain ⟨n, hn, rfl⟩ := horElse h
    obtain ⟨k, -, hk⟩ := Option.bind_eq_some_iff.mp hn
    exact le_of_seedOf? hk
  | number =>
    obtain ⟨x, hx, rfl⟩ := map_eq_ok h
    exact isFinite_of_number hx
  | columns =>
    obtain ⟨cols, -, rfl⟩ := map_eq_ok h
    trivial
  | side =>
    obtain ⟨s, -, rfl⟩ := horElse h
    trivial

/-! ### Binding -/

/-- The defaults can be written. -/
theorem Verb.isWritable_default (v : Verb) : ∀ param ∈ v.params, ∀ value,
    param.default? = some (.value value) → value.IsWritable := by
  cases v <;> simp [params, Param.required, Param.countOr, Param.countLike, Param.keyedNumber,
    Param.keyedCount, Value.IsWritable]
  case sBend => exact ⟨rfl, rfl⟩
  case fork => exact ⟨rfl, rfl⟩
  case rejoin => rfl

theorem isWritable_of_mem_bound {name : String} {params : List Param} {given : Given}
    {bound : List (Option (String × Value Float))}
    (h : params.mapM (Given.convert name given) = .ok bound) {x : String × Value Float}
    (hx : x ∈ bound.reduceOption) : x.2.IsWritable := by
  obtain ⟨param, -, hconvert⟩ := exists_of_mem_mapM h (List.reduceOption_mem_iff.mp hx)
  rw [Given.convert] at hconvert
  split at hconvert
  · cases hconvert
  · split at hconvert
    · rename_i value hvalue
      rw [← Option.some.inj (Except.ok.inj hconvert)]
      exact Value.isWritable_of_convert hvalue
    · cases hconvert

theorem mem_of_lookup {α β : Type} [BEq α] [LawfulBEq α] {l : List (α × β)} {a : α} {b : β}
    (h : l.lookup a = some b) : (a, b) ∈ l := by
  obtain ⟨l₁, l₂, rfl, -⟩ := List.lookup_eq_some_iff.mp h
  exact List.mem_append_right _ List.mem_cons_self

/-- Binding gives values that can be written. -/
theorem Call.isWritable_of_bind {call : Call} {verb : Verb} {values : List (Value Float)}
    (h : call.bind verb.params = .ok values) : ∀ v ∈ values, v.IsWritable := by
  intro v hv
  obtain ⟨given, -, h⟩ := bind_eq_ok h
  obtain ⟨bound, hbound, h⟩ := bind_eq_ok h
  obtain ⟨param, hparam, hvalue⟩ := exists_of_mem_mapM h hv
  rw [Bound.value] at hvalue
  split at hvalue
  · rename_i value hlookup
    rw [← Except.ok.inj hvalue]
    exact isWritable_of_mem_bound hbound (mem_of_lookup hlookup)
  · rename_i value hlookup hdefault
    rw [← Except.ok.inj hvalue]
    exact verb.isWritable_default param hparam _ hdefault
  · split at hvalue
    · rename_i value hlookup
      rw [← Except.ok.inj hvalue]
      exact isWritable_of_mem_bound hbound (mem_of_lookup hlookup)
    · cases hvalue
  · cases hvalue

theorem Op.values_of_ofValues? {verb : Verb} {values : List (Value Float)} {op : Op Float}
    (h : ofValues? verb values = some op) : op.values = values := by
  unfold ofValues? at h
  split at h <;> first | (obtain rfl := Option.some.inj h; rfl) | cases h

/-- A call names an operation that can be written. -/
theorem Op.isWritable_of_ofCall {call : Call} {op : Op Float} (h : Op.ofCall call = .ok op) :
    op.IsWritable := by
  rw [ofCall] at h
  split at h
  · cases h
  · obtain ⟨values, hvalues, h⟩ := bind_eq_ok h
    split at h
    · rename_i hop
      obtain rfl := Except.ok.inj h
      rw [IsWritable, values_of_ofValues? hop]
      exact Call.isWritable_of_bind hvalues
    · cases h

/-! ### Requests -/

theorem Rule.isWritable_of_matchOps {rule : Rule} {m : Match} {ops : List (Op Float)}
    (h : rule.matchOps m = .ok ops) : ∀ op ∈ ops, op.IsWritable := by
  intro op hop
  rw [matchOps] at h
  split at h
  · rename_i ops' hfill
    obtain rfl := Except.ok.inj h
    obtain ⟨template, -, hfill⟩ := exists_of_mem_mapM hfill hop
    rw [Template.fill] at hfill
    split at hfill
    · cases hfill
    · split at hfill
      · rename_i hcall
        obtain rfl := Except.ok.inj hfill
        exact Op.isWritable_of_ofCall hcall
      · cases hfill
  · cases h

theorem Rule.isWritable_of_ops {rule : Rule} {found : List Match} {ops : List (Op Float)}
    (h : rule.ops found = .ok ops) : ∀ op ∈ ops, op.IsWritable := by
  intro op hop
  obtain ⟨blocks, hblocks, rfl⟩ := map_eq_ok h
  obtain ⟨block, hblock, hop⟩ := List.mem_flatten.mp hop
  obtain ⟨m, -, hm⟩ := exists_of_mem_mapM hblocks hblock
  exact isWritable_of_matchOps hm op hop

/-- A request asks for operations that can be written. -/
theorem isWritable_of_mem_understand {book : Rulebook} {text : List Char} {op : Op Float}
    (h : op ∈ (understand book text).ops) : op.IsWritable := by
  obtain ⟨ops, hops, hop⟩ := List.mem_flatten.mp h
  obtain ⟨block, hblock, hok⟩ := List.mem_filterMap.mp hops
  obtain ⟨⟨rule, found⟩, -, rfl⟩ := List.mem_map.mp hblock
  exact Rule.isWritable_of_ops (ok_of_toOption hok : rule.ops found = .ok ops) op hop

/-- A request with an operation that builds a grid asks for a new grid. -/
theorem creates_of_any_isCreate {book : Rulebook} {text : List Char}
    (h : (understand book text).ops.any Op.isCreate = true) :
    (understand book text).creates = true := by
  rw [understand] at h ⊢
  exact Bool.or_eq_true_iff.mpr (.inr h)

end Raceway
