import Raceway.Proofs.Op.Line
/-!
# Binding the arguments of a written call

The arguments of the call that a line writes go back to the parameters that they were written for.
Those left out are defaults, and the default is what the operation had. So binding gives the values
of the operation again, except for the signs of zeros.

## Main definitions

* `Raceway.named`: what a function gives for parameters, by their names.

## Main results

* `Raceway.lookup_named`: each parameter finds what is given for it.
* `Raceway.Op.ofCall_writtenCall`: the written call names the operation.
* `Raceway.Op.ofLine_line`: the line of an operation is read back.
-/

namespace Raceway

open Text Decimal

/-! ### The schema -/

theorem Verb.nodup_params (v : Verb) : (v.params.map Param.name).Nodup := by
  cases v <;> decide

/-- The kinds of the values of an operation are those of its parameters. -/
theorem Op.kind_pairs (op : Op Float) : ∀ x ∈ op.pairs, x.2.kind = x.1.kind := by
  cases op <;> simp [pairs, verb, Verb.params, values, Value.kind, Param.required, Param.countOr,
    Param.countLike, Param.keyedNumber, Param.keyedCount]

/-- Equal values are the same when zeros lose their signs. -/
theorem Value.unsignZero_eq_of_beq {v w : Value Float} (h : (v == w) = true) :
    v.unsignZero = w.unsignZero := by
  change instBEqValue.beq v w = true at h
  cases v <;> cases w <;> simp_all [instBEqValue.beq, unsignZero, mapNumber]
  exact Raceway.unsignZero_eq_of_beq h

/-- A default that lines leave out has no zero with a sign. -/
theorem Verb.unsignZero_default (v : Verb) : ∀ param ∈ v.params, ∀ value,
    param.keyed = true → param.default? = some (.value value) → value.unsignZero = value := by
  cases v <;> simp [params, Param.required, Param.countOr, Param.countLike, Param.keyedNumber,
    Param.keyedCount, Value.unsignZero, Value.mapNumber]
  case sBend => exact ⟨rfl, rfl⟩
  case fork => exact ⟨rfl, rfl⟩
  case rejoin => rfl

/-! ### Named arguments -/

/-- What a function gives for parameters with their values, by the names of the parameters. -/
def named {β : Type} (f : Param × Value Float → Option β) (pairs : List (Param × Value Float)) :
    List (String × β) :=
  pairs.filterMap fun x => (f x).map (x.1.name, ·)

section Named

variable {β : Type} {f : Param × Value Float → Option β} {pairs : List (Param × Value Float)}

theorem named_cons (x : Param × Value Float) (pairs : List (Param × Value Float)) :
    named f (x :: pairs) = ((f x).map (x.1.name, ·)).toList ++ named f pairs := by
  rw [named, List.filterMap_cons]
  cases f x <;> rfl

theorem sublist_named : ((named f pairs).map Prod.fst).Sublist (pairs.map (·.1.name)) := by
  induction pairs with
  | nil => exact List.Sublist.slnil
  | cons x pairs ih =>
    rw [named_cons, List.map_append, List.map_cons]
    cases f x with
    | none => exact ih.cons _
    | some b => exact ih.cons_cons _

theorem exists_of_mem_named {e : String × β} (h : e ∈ named f pairs) :
    ∃ x ∈ pairs, x.1.name = e.1 :=
  List.mem_map.mp (sublist_named.subset (List.mem_map_of_mem h))

/-- A parameter finds what is given for it. -/
theorem lookup_named (hnodup : (pairs.map (·.1.name)).Nodup) {x : Param × Value Float}
    (hx : x ∈ pairs) : (named f pairs).lookup x.1.name = f x := by
  induction pairs with
  | nil => exact absurd hx List.not_mem_nil
  | cons y pairs ih =>
    obtain ⟨hy, hnodup⟩ := List.nodup_cons.mp hnodup
    have hne : ∀ z ∈ pairs, z.1.name ≠ y.1.name := fun z hz heq =>
      hy (List.mem_map.mpr ⟨z, hz, heq⟩)
    rw [named_cons, List.lookup_append]
    rcases List.mem_cons.mp hx with rfl | hx
    · cases hf : f x with
      | none =>
        refine List.lookup_eq_none_iff.mpr fun e he => bne_iff_ne.mpr fun heq => ?_
        obtain ⟨z, hz, hname⟩ := exists_of_mem_named he
        exact hne z hz (hname.trans heq.symm)
      | some b => simp
    · rw [ih hnodup hx]
      cases f y with
      | none => rfl
      | some b =>
        have hlookup : [(y.1.name, b)].lookup x.1.name = none := by
          simp [hne x hx]
        exact congrArg (Option.or · (f x)) hlookup

end Named

/-! ### The arguments of a written call -/

/-- What a call gives for a parameter: the argument, unless the line leaves it out. -/
def givenArg (x : Param × Value Float) : Option Arg :=
  if x.1.omits x.2 then none else some x.2.reread

theorem omits_of_not_keyed {param : Param} (h : param.keyed = false) (value : Value Float) :
    param.omits value = false := by
  rw [Param.omits, h, Bool.false_and]

/-- The positional arguments meet their parameters, and the keyed ones follow. -/
theorem zip_positionalArgs {pairs : List (Param × Value Float)} (hlast : KeyedLast pairs) :
    (pairs.map (·.1.name)).zip (positionalArgs pairs) ++ keyedArgs pairs =
      named givenArg pairs := by
  induction pairs with
  | nil => rfl
  | cons x pairs ih =>
    obtain ⟨param, value⟩ := x
    obtain ⟨hfirst, hlast⟩ := List.pairwise_cons.mp hlast
    rw [named_cons, ← ih hlast]
    cases hkeyed : param.keyed with
    | false =>
      simp [positionalArgs, keyedArgs, givenArg, hkeyed, omits_of_not_keyed hkeyed]
    | true =>
      have hnone : positionalArgs pairs = [] :=
        List.filterMap_eq_nil_iff.mpr fun y hy => if_pos (hfirst y hy hkeyed)
      have hnone' : positionalArgs ((param, value) :: pairs) = [] :=
        List.filterMap_eq_nil_iff.mpr (List.forall_mem_cons.mpr
          ⟨if_pos hkeyed, fun y hy => if_pos (hfirst y hy hkeyed)⟩)
      rw [hnone, hnone', List.zip_nil_right, List.zip_nil_right, keyedArgs, List.filterMap_cons,
        keyedArgs]
      cases homit : param.omits value <;> simp [hkeyed, homit, givenArg]

/-- Arguments for different parameters that are free are added as they are. -/
theorem foldlM_add {op : String} {params : List Param} {given more : Given}
    (hmem : ∀ x ∈ more, ∃ param ∈ params, param.name = x.1)
    (hnodup : ((given ++ more).map Prod.fst).Nodup) :
    more.foldlM (Given.add op params) given = .ok (given ++ more) := by
  induction more generalizing given with
  | nil => rw [List.append_nil]; rfl
  | cons x more ih =>
    obtain ⟨⟨param, hparam, hname⟩, hmem⟩ := List.forall_mem_cons.mp hmem
    have hadd : Given.add op params given x = .ok (given ++ [x]) := by
      have hfree : ¬ given.any (·.1 == x.1) = true := by
        intro hany
        obtain ⟨y, hy, heq⟩ := List.any_eq_true.mp hany
        rw [List.map_append, List.map_cons] at hnodup
        refine (List.nodup_append.mp hnodup).2.2 y.1 (List.mem_map_of_mem hy) x.1
          List.mem_cons_self (beq_iff_eq.mp heq)
      have hknown : ¬ params.all (·.name != x.1) = true := fun hall =>
        bne_iff_ne.mp (List.all_eq_true.mp hall param hparam) hname
      rw [Given.add, if_neg hknown, if_neg hfree]
    rw [foldlM_cons_of_ok hadd, ih hmem (by simpa using hnodup), List.append_assoc,
      List.singleton_append]

theorem Op.map_name_pairs (op : Op Float) :
    op.pairs.map (·.1.name) = op.verb.params.map Param.name := by
  rw [← op.map_fst_pairs, List.map_map]
  rfl

theorem Op.nodup_pairs (op : Op Float) : (op.pairs.map (·.1.name)).Nodup := by
  rw [op.map_name_pairs]
  exact op.verb.nodup_params

theorem Op.given_writtenCall (op : Op Float) :
    op.writtenCall.given op.verb.params = .ok (named givenArg op.pairs) := by
  have hzip := zip_positionalArgs op.keyedLast_pairs
  have hlen : (positionalArgs op.pairs).length ≤ op.verb.params.length := by
    rw [← op.map_fst_pairs, List.length_map]
    exact List.length_filterMap_le ..
  have hmem : ∀ x ∈ keyedArgs op.pairs, ∃ param ∈ op.verb.params, param.name = x.1 := by
    intro x hx
    have hname : x ∈ named givenArg op.pairs := hzip ▸ List.mem_append_right _ hx
    obtain ⟨y, hy, heq⟩ := exists_of_mem_named hname
    exact ⟨y.1, op.map_fst_pairs ▸ List.mem_map_of_mem hy, heq⟩
  have hfold : (keyedArgs op.pairs).foldlM (Given.add op.verb.name op.verb.params)
      ((op.verb.params.map Param.name).zip (positionalArgs op.pairs)) =
        .ok (named givenArg op.pairs) := by
    rw [← op.map_name_pairs, ← hzip]
    refine foldlM_add hmem ?_
    rw [hzip]
    exact op.nodup_pairs.sublist sublist_named
  rw [writtenCall, Call.given]
  exact (if_neg (Nat.not_lt.mpr hlen)).trans hfold

/-! ### The values that are bound -/

/-- What binding converts for a parameter: its value, unless the line leaves it out. -/
def boundValue (x : Param × Value Float) : Option (Value Float) :=
  if x.1.omits x.2 then none else some x.2.unsignZero

theorem Op.convert_named {op : Op Float} (h : op.IsWritable) (name : String) :
    ∀ x ∈ op.pairs, Given.convert name (named givenArg op.pairs) x.1 =
      .ok ((boundValue x).map (x.1.name, ·)) := by
  intro x hx
  rw [Given.convert, lookup_named op.nodup_pairs hx, givenArg, boundValue]
  split_ifs with homit
  · rfl
  · simp only [← op.kind_pairs x hx, Value.convert_reread (isWritable_pairs h x hx)]
    rfl

theorem Op.value_named {op : Op Float} (name : String) :
    ∀ x ∈ op.pairs, Bound.value name (named boundValue op.pairs) x.1 = .ok x.2.unsignZero := by
  intro x hx
  rw [Bound.value, lookup_named op.nodup_pairs hx, boundValue]
  split_ifs with homit
  · -- The default is equal to the value that was left out.
    obtain ⟨hkeyed, hdefault⟩ := Bool.and_eq_true_iff.mp homit
    rw [Param.isDefault] at hdefault
    split at hdefault
    · rename_i value hvalue
      have hsame := op.verb.unsignZero_default x.1 (op.map_fst_pairs ▸ List.mem_map_of_mem hx)
        value hkeyed hvalue
      simp only [hvalue]
      rw [← Value.unsignZero_eq_of_beq hdefault, hsame]
    · exact Bool.noConfusion hdefault
  · rfl

/-- The written call of an operation binds its values, the zeros without signs. -/
theorem Op.bind_writtenCall {op : Op Float} (h : op.IsWritable) :
    op.writtenCall.bind op.verb.params = .ok (op.values.map Value.unsignZero) := by
  have hconvert : op.verb.params.mapM
      (Given.convert op.writtenCall.name (named givenArg op.pairs)) =
      .ok (op.pairs.map fun x => (boundValue x).map (x.1.name, ·)) := by
    rw [← op.map_fst_pairs, List.mapM_map]
    exact mapM_eq_ok (op.convert_named h _)
  have hbound : (op.pairs.map fun x => (boundValue x).map (x.1.name, ·)).reduceOption =
      named boundValue op.pairs := by
    rw [List.reduceOption, List.filterMap_map]
    rfl
  have hvalue : op.verb.params.mapM (Bound.value op.writtenCall.name (named boundValue op.pairs)) =
      .ok (op.values.map Value.unsignZero) := by
    rw [← op.map_fst_pairs, ← op.map_snd_pairs, List.mapM_map, List.map_map]
    exact mapM_eq_ok (op.value_named _)
  rw [Call.bind, op.given_writtenCall, ok_bind, hconvert, ok_bind, hbound, hvalue]

/-- The written call of an operation names it, the zeros without signs. -/
theorem Op.ofCall_writtenCall {op : Op Float} (h : op.IsWritable) :
    Op.ofCall op.writtenCall = .ok op.unsignZeros := by
  have hvalues : ofValues? op.verb (op.values.map Value.unsignZero) = some op.unsignZeros := by
    have := ofValues?_values op.unsignZeros
    rw [unsignZeros, verb_mapNumbers, values_mapNumbers] at this
    exact this
  have hverb : Verb.ofName? op.writtenCall.name = some op.verb := op.verb.ofName?_name
  simp only [ofCall, hverb, bind_writtenCall h, ok_bind, hvalues]

/-- The line of an operation is read back, the zeros without signs. -/
theorem Op.ofLine_line {op : Op Float} (h : op.IsWritable) :
    Op.ofLine op.line.toList = .ok op.unsignZeros := by
  rw [ofLine, Call.ofLine_line h, ok_bind, ofCall_writtenCall h]

end Raceway
