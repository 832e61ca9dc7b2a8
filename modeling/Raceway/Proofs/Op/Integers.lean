import Mathlib
import Raceway.Proofs.Decimal.Integral
import Raceway.Proofs.Op.Bound
/-!
# Integers that are bound

Counts, columns and seeds are given as integers or as floating-point numbers. A number is brought
within 64 bits before its range is checked. For counts this makes no difference, as everything that
it changes is out of their range before and after. The range of seeds ends where that of 64-bit
integers does, so a number beyond it is moved into the range: it is bound as the greatest seed. All
other numbers are bound as they are, or turned down.

## Main definitions

* `Raceway.Arg.IsNumber` and `Raceway.Value.IsInteger`: the number that an argument gives, and the
  integer that is bound.
* `Raceway.ValueKind.greatest?`: the range of the integers of a kind.
* `Raceway.Arg.IsBeyond`: the arguments that are moved.

## Main results

* `Raceway.Arg.integer_of_convert`: what a number is converted to.
* `Raceway.Op.ofCall_integer`: an integer is bound as it is, unless it is moved.
-/

namespace Raceway

open Decimal

/-! ### Numbers and integers -/

/-- The argument gives the number. -/
def Arg.IsNumber : Arg → ℚ → Prop
  | int n, v => v = n
  | float x, v => Stands x.toModel.unpack v
  | _, _ => False

/-- The argument is written as a number. One that is infinite or undefined gives none. -/
def Arg.isNumeric : Arg → Bool
  | int _ | float _ => true
  | _ => false

/-- The integer that a value is. A list of one column is its column. -/
inductive Value.IsInteger : Value Float → ℕ → Prop
  | count (n : UInt32) : IsInteger (.count n) n.toNat
  | seed (n : UInt64) : IsInteger (.seed n) n.toNat
  | column (c : UInt32) : IsInteger (.columns [c]) c.toNat

/-- The greatest integer of a kind. -/
def ValueKind.greatest? : ValueKind → Option ℕ
  | count | columns => some (2 ^ 32 - 1)
  | seed => some (2 ^ 63 - 1)
  | number | side => none

/-- The argument is a floating-point number that is an integer beyond those of 64 bits with sign. -/
def Arg.IsBeyond (a : Arg) : Prop :=
  ∃ x, a = .float x ∧ ∃ n : ℕ, 2 ^ 63 ≤ n ∧ a.IsNumber n

section Conversion

variable {a : Arg} {v w : ℚ} {n : ℤ} {value : Value Float} {kind : ValueKind} {greatest : ℕ}

/-- An argument gives one number at most. -/
theorem Arg.IsNumber.unique (h : a.IsNumber v) (h' : a.IsNumber w) : v = w := by
  cases a with
  | int n => exact Eq.trans h h'.symm
  | float x => exact Stands.unique h h'
  | _ => cases h

/-- What a count is made of. -/
theorem count?_eq_some_iff {c : UInt32} : count? n = some c ↔ n = c.toNat := by
  have hlt := c.toNat_lt
  rw [count?]
  constructor
  · intro h
    split_ifs at h with hn
    obtain ⟨hpos, hsize⟩ := hn
    lift n to ℕ using hpos
    have hsize : n < 2 ^ 32 := by exact_mod_cast hsize
    rw [← Option.some.inj h, Int.toNat_natCast, UInt32.toNat_ofNat_of_lt' hsize]
  · rintro rfl
    have hrange : (0 : ℤ) ≤ c.toNat ∧ (c.toNat : ℤ) < UInt32.size := by
      refine ⟨Int.natCast_nonneg _, ?_⟩
      exact_mod_cast hlt
    rw [if_pos hrange, Int.toNat_natCast, UInt32.ofNat_toNat]

/-- What a seed is made of. -/
theorem seedOf?_eq_some_iff {s : UInt64} :
    seedOf? n = some s ↔ n = s.toNat ∧ s.toNat < 2 ^ 63 := by
  rw [seedOf?]
  constructor
  · intro h
    split_ifs at h with hn
    obtain ⟨hpos, hmax⟩ := hn
    lift n to ℕ using hpos
    rw [maxInt64] at hmax
    have hsize : n < 2 ^ 64 := by omega
    rw [← Option.some.inj h, Int.toNat_natCast, UInt64.toNat_ofNat_of_lt' hsize]
    exact ⟨rfl, by omega⟩
  · rintro ⟨rfl, hlt⟩
    have hrange : (0 : ℤ) ≤ s.toNat ∧ (s.toNat : ℤ) ≤ maxInt64 := by
      rw [maxInt64]
      omega
    rw [if_pos hrange, Int.toNat_natCast, UInt64.ofNat_toNat]

/-- Bringing an integer within 64 bits moves only those that are beyond them. -/
theorem clampInt64_eq_iff {k : ℤ} (hmin : 0 ≤ n) (hmax : n ≤ maxInt64) :
    clampInt64 k = n ↔ k = n ∨ n = maxInt64 ∧ 2 ^ 63 ≤ k := by
  simp only [clampInt64, minInt64, maxInt64] at *
  omega

/-- An argument that is written as a number is read as the integer that it gives, or as the greatest
one of 64 bits if it is beyond them. -/
theorem Arg.integer?_eq_some_iff (hnumeric : a.isNumeric = true) (hmin : 0 ≤ n)
    (hmax : n ≤ maxInt64) :
    a.integer? = some n ↔ a.IsNumber n ∨ n = maxInt64 ∧ a.IsBeyond := by
  cases a with
  | int k =>
    have hbeyond : ¬ (Arg.int k).IsBeyond := by
      rintro ⟨x, hx, -⟩
      cases hx
    rw [integer?, Option.some.injEq, IsNumber, Int.cast_inj, eq_comm]
    exact (or_iff_left fun h => hbeyond h.2).symm
  | float x =>
    simp only [integer?, Option.map_eq_some_iff, Decimal.integer?_eq_some_iff, IsBeyond, IsNumber,
      clampInt64_eq_iff hmin hmax]
    constructor
    · rintro ⟨k, hk, rfl | ⟨hn, hbeyond⟩⟩
      · exact .inl hk
      · lift k to ℕ using by omega
        exact .inr ⟨hn, x, rfl, k, by exact_mod_cast hbeyond, hk⟩
    · rintro (h | ⟨hn, _, -, k, hbeyond, hk⟩)
      · exact ⟨n, h, .inl rfl⟩
      · exact ⟨k, hk, .inr ⟨hn, by exact_mod_cast hbeyond⟩⟩
  | _ => cases hnumeric

/-- A number is converted to the count that it gives. -/
theorem Arg.convert_count_iff (hnumeric : a.isNumeric = true) :
    a.convert .count = .ok value ↔ ∃ c : UInt32, value = .count c ∧ a.IsNumber c.toNat := by
  have hread (c : UInt32) : a.integer?.bind count? = some c ↔ a.IsNumber c.toNat := by
    have hlt := c.toNat_lt
    have hne : ¬ (c.toNat : ℤ) = maxInt64 := by rw [maxInt64]; omega
    simp only [Option.bind_eq_some_iff, count?_eq_some_iff, exists_eq_right]
    rw [integer?_eq_some_iff hnumeric (Int.natCast_nonneg _) (by rw [maxInt64]; omega),
      or_iff_left fun h => hne h.1, Int.cast_natCast]
  rw [convert, convert.orElse_eq_ok_iff]
  exact exists_congr fun c => by rw [hread, and_comm, eq_comm]

/-- A number is converted to the seed that it gives, or to the greatest seed if it is beyond. -/
theorem Arg.convert_seed_iff (hnumeric : a.isNumeric = true) :
    a.convert .seed = .ok value ↔ ∃ s : UInt64, value = .seed s ∧ s.toNat ≤ 2 ^ 63 - 1 ∧
      (a.IsNumber s.toNat ∨ s.toNat = 2 ^ 63 - 1 ∧ a.IsBeyond) := by
  have hread (s : UInt64) : a.integer?.bind seedOf? = some s ↔ s.toNat ≤ 2 ^ 63 - 1 ∧
      (a.IsNumber s.toNat ∨ s.toNat = 2 ^ 63 - 1 ∧ a.IsBeyond) := by
    have hmax : (s.toNat : ℤ) = maxInt64 ↔ s.toNat = 2 ^ 63 - 1 := by rw [maxInt64]; omega
    simp only [Option.bind_eq_some_iff, seedOf?_eq_some_iff]
    constructor
    · rintro ⟨_, hn, rfl, hlt⟩
      rw [integer?_eq_some_iff hnumeric (Int.natCast_nonneg _) (by rw [maxInt64]; omega), hmax,
        Int.cast_natCast] at hn
      exact ⟨by omega, hn⟩
    · rintro ⟨hle, hn⟩
      refine ⟨s.toNat, ?_, rfl, by omega⟩
      rwa [integer?_eq_some_iff hnumeric (Int.natCast_nonneg _) (by rw [maxInt64]; omega), hmax,
        Int.cast_natCast]
  rw [convert, convert.orElse_eq_ok_iff]
  exact exists_congr fun s => by rw [hread, and_comm, eq_comm]

/-- An integer is converted to the column that it gives. Other numbers are no columns. -/
theorem Arg.convert_columns_iff (hnumeric : a.isNumeric = true) :
    a.convert .columns = .ok value ↔
      ∃ c : UInt32, value = .columns [c] ∧ a = .int c.toNat := by
  cases a with
  | int n =>
    cases h : count? n with
    | none =>
      have hcolumns : (int n).columns = .error .columnRange := by
        rw [columns, columns.inRange, List.mapM_cons, h]
        rfl
      rw [convert, hcolumns]
      refine ⟨by rintro ⟨⟩, ?_⟩
      rintro ⟨c, -, hc⟩
      rw [count?_eq_some_iff.mpr (Arg.int.inj hc)] at h
      cases h
    | some c =>
      have hcolumns : (int n).columns = .ok [c] := by
        rw [columns, columns.inRange, List.mapM_cons, h]
        rfl
      obtain rfl := count?_eq_some_iff.mp h
      rw [convert, hcolumns]
      refine ⟨fun hvalue => ⟨c, (Except.ok.inj hvalue).symm, rfl⟩, ?_⟩
      rintro ⟨d, rfl, hd⟩
      rw [UInt32.toNat_inj.mp (Int.natCast_inj.mp (Arg.int.inj hd))]
      rfl
  | float x =>
    constructor
    · intro hvalue
      cases hvalue
    · rintro ⟨c, -, hc⟩
      cases hc
  | _ => cases hnumeric

/-- A number is converted to the integer that it gives, within the range of the kind, or to the
greatest seed if it is beyond. -/
theorem Arg.integer_of_convert (hnumeric : a.isNumeric = true)
    (hkind : kind.greatest? = some greatest) (h : a.convert kind = .ok value) :
    ∃ n : ℕ, value.IsInteger n ∧ n ≤ greatest ∧
      (a.IsNumber n ∨ kind = .seed ∧ n = 2 ^ 63 - 1 ∧ a.IsBeyond) := by
  cases kind with
  | count =>
    obtain rfl := Option.some.inj hkind
    obtain ⟨c, rfl, hc⟩ := (convert_count_iff hnumeric).mp h
    exact ⟨c.toNat, .count c, Nat.le_sub_one_of_lt c.toNat_lt, .inl hc⟩
  | seed =>
    obtain rfl := Option.some.inj hkind
    obtain ⟨s, rfl, hle, hs⟩ := (convert_seed_iff hnumeric).mp h
    exact ⟨s.toNat, .seed s, hle, hs.imp_right fun hbeyond => ⟨rfl, hbeyond⟩⟩
  | columns =>
    obtain rfl := Option.some.inj hkind
    obtain ⟨c, rfl, rfl⟩ := (convert_columns_iff hnumeric).mp h
    exact ⟨c.toNat, .column c, Nat.le_sub_one_of_lt c.toNat_lt, .inl rfl⟩
  | number => cases hkind
  | side => cases hkind

end Conversion

/-! ### Binding -/

section Binding

variable {call : Call} {verb : Verb} {i greatest : ℕ} {param : Param} {a : Arg}

/-- An argument is bound to its parameter as it is converted. -/
theorem Op.convert_of_ofCall {op : Op Float} (hverb : Verb.ofName? call.name = some verb)
    (hparam : verb.params[i]? = some param) (hgiven : (param.name, a) ∈ call.named verb.params)
    (h : Op.ofCall call = .ok op) :
    ∃ value, op.values[i]? = some value ∧ a.convert param.kind = .ok value := by
  rw [ofCall, hverb] at h
  obtain ⟨values, hbind, h⟩ := bind_eq_ok h
  split at h
  swap
  · cases h
  rename_i op' hop
  obtain rfl := Except.ok.inj h
  rw [values_of_ofValues? hop]
  obtain ⟨given, hnamed, hvalues⟩ := Call.exists_of_bind hbind
  obtain ⟨-, -, hnodup, rfl⟩ := (Call.given_eq_ok_iff verb.nodup_params).mp hnamed
  have hlookup := (lookup_eq_some_iff_mem hnodup).mpr hgiven
  obtain ⟨hlen, hvalues⟩ := List.forall₂_iff_get.mp hvalues
  obtain ⟨hi, rfl⟩ := List.getElem?_eq_some_iff.mp hparam
  refine ⟨values[i], List.getElem?_eq_getElem (hlen ▸ hi), ?_⟩
  cases hvalues i hi (hlen ▸ hi) with
  | arg ha hv =>
    obtain rfl := Option.some.inj (hlookup.symm.trans ha)
    exact hv
  | default ha =>
    cases hlookup.symm.trans ha
  | like ha =>
    cases hlookup.symm.trans ha

/-- An integer parameter that is given as a number is bound to that very integer, within its range.
A number that is no integer, or one out of the range, is turned down. Only a seed that is given as a
floating-point number beyond 64 bits is bound to the greatest seed instead. -/
theorem Op.ofCall_integer (hverb : Verb.ofName? call.name = some verb)
    (hparam : verb.params[i]? = some param) (hkind : param.kind.greatest? = some greatest)
    (hgiven : (param.name, a) ∈ call.named verb.params) (hnumeric : a.isNumeric = true) :
    (∀ op, Op.ofCall call = .ok op → ∃ value, ∃ n : ℕ, op.values[i]? = some value ∧
      value.IsInteger n ∧ n ≤ greatest ∧
        (a.IsNumber n ∨ param.kind = .seed ∧ n = 2 ^ 63 - 1 ∧ a.IsBeyond)) ∧
      ((∀ n : ℕ, n ≤ greatest → ¬ a.IsNumber n) → ¬ (param.kind = .seed ∧ a.IsBeyond) →
        ∃ e, Op.ofCall call = .error e) := by
  have hbound (op : Op Float) (h : Op.ofCall call = .ok op) : ∃ value, ∃ n : ℕ,
      op.values[i]? = some value ∧ value.IsInteger n ∧ n ≤ greatest ∧
        (a.IsNumber n ∨ param.kind = .seed ∧ n = 2 ^ 63 - 1 ∧ a.IsBeyond) := by
    obtain ⟨value, hvalue, hconvert⟩ := convert_of_ofCall hverb hparam hgiven h
    obtain ⟨n, hn⟩ := Arg.integer_of_convert hnumeric hkind hconvert
    exact ⟨value, n, hvalue, hn⟩
  refine ⟨hbound, fun hnone hbeyond => ?_⟩
  cases h : Op.ofCall call with
  | error e => exact ⟨e, rfl⟩
  | ok op =>
    obtain ⟨_, n, -, -, hle, hn | ⟨hseed, -, hn⟩⟩ := hbound op h
    · exact absurd hn (hnone n hle)
    · exact absurd ⟨hseed, hn⟩ hbeyond

/-- A seed of 54 bits is bound as it is, and a count of 33 bits is turned down. -/
theorem Op.ofCall_integer_bits :
    (∃ n : ℕ, (Op.ofCall ⟨"seed", [.float 9007199254740992], []⟩).toOption =
        some (.seed 9007199254740992) ∧
      (Value.seed 9007199254740992).IsInteger n ∧ (Arg.float 9007199254740992).IsNumber n) ∧
      ∃ e, Op.ofCall ⟨"buildAbs", [], [("rows", .float 4294967296)]⟩ = .error e := by
  constructor
  · have hseed : (Op.ofCall ⟨"seed", [.float 9007199254740992], []⟩).toOption =
        some (.seed 9007199254740992) := by
      decide +kernel
    have hparam : Verb.seed.params[0]? = some (.required "value" .seed) := rfl
    obtain ⟨value, n, hvalue, hn, -, hnumber⟩ :=
      (ofCall_integer rfl hparam rfl List.mem_cons_self rfl).1 _ (ok_of_toOption hseed)
    obtain rfl := Option.some.inj hvalue
    refine ⟨n, hseed, hn, hnumber.resolve_right fun h => ?_⟩
    cases hn
    exact absurd h.2.1 (by decide)
  · have hrows : (Arg.float 4294967296).IsNumber (4294967296 : ℤ) :=
      Decimal.integer?_eq_some_iff.mp (by decide +kernel)
    have hparam : Verb.build.params[0]? = some (.required "rows" .count) := rfl
    refine (ofCall_integer rfl hparam rfl List.mem_cons_self rfl).2
      (fun n hle hn => ?_) (fun h => by cases h.1)
    have heq : ((4294967296 : ℤ) : ℚ) = n := hrows.unique hn
    have : (4294967296 : ℤ) = n := by exact_mod_cast heq
    omega

/-- A seed that needs 64 bits is moved by one. -/
theorem Op.ofCall_integer_moved :
    (Op.ofCall ⟨"seed", [.float 9223372036854775808], []⟩).toOption =
        some (.seed 9223372036854775807) ∧
      (Arg.float 9223372036854775808).IsNumber (9223372036854775808 : ℕ) ∧
      ∀ n : ℕ, (Value.seed 9223372036854775807).IsInteger n →
        ¬ (Arg.float 9223372036854775808).IsNumber n := by
  have hnumber : (Arg.float 9223372036854775808).IsNumber (9223372036854775808 : ℤ) :=
    Decimal.integer?_eq_some_iff.mp (by decide +kernel)
  refine ⟨by decide +kernel, hnumber, fun n hn h => ?_⟩
  have heq : ((9223372036854775808 : ℤ) : ℚ) = n := hnumber.unique h
  have : (9223372036854775808 : ℤ) = n := by exact_mod_cast heq
  cases hn
  exact absurd this (by decide)

end Binding

end Raceway
