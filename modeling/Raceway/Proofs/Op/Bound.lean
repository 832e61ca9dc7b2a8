import Mathlib
import Raceway.Proofs.Op.ByName
/-!
# What binding gives

Binding gives each parameter its argument, converted to the kind of the parameter, or its default.
Either is of the kind of the parameter, so values that are bound always make an operation. A call is
turned down for its shape, when its arguments cannot be matched with the parameters, or for a value:
one that is not of its kind, or one that is missing.

## Main definitions

* `Raceway.Given.Binds`: the ways in which a parameter gets its value.
* `Raceway.Call.Refused`: the ways in which a call of a verb is turned down.

## Main results

* `Raceway.Call.exists_of_bind`: every parameter gets its value in one of these ways.
* `Raceway.Op.isSome_ofValues?_of_bind`: values that are bound make an operation.
* `Raceway.Op.ofCall_eq_error`: a call of a verb is turned down in one of these ways.
-/

namespace Raceway

/-! ### Converted arguments -/

theorem Arg.convert.orElse_eq_ok_iff {β : Type} {expected : Expectation} {b? : Option β}
    {make : β → Value Float} {v : Value Float} :
    orElse expected b? make = .ok v ↔ ∃ b, b? = some b ∧ make b = v := by
  cases b? with
  | none => simp [orElse]
  | some b => simp [orElse]

/-- A converted argument is of the kind asked for. -/
theorem Arg.kind_of_convert {a : Arg} {kind : ValueKind} {v : Value Float}
    (h : a.convert kind = .ok v) : v.kind = kind := by
  cases kind with
  | count =>
    obtain ⟨n, -, rfl⟩ := convert.orElse_eq_ok_iff.mp h
    rfl
  | seed =>
    obtain ⟨n, -, rfl⟩ := convert.orElse_eq_ok_iff.mp h
    rfl
  | number =>
    obtain ⟨x, -, rfl⟩ := map_eq_ok h
    rfl
  | columns =>
    obtain ⟨cols, -, rfl⟩ := map_eq_ok h
    rfl
  | side =>
    obtain ⟨s, -, rfl⟩ := convert.orElse_eq_ok_iff.mp h
    rfl

section Bound

variable {op : String} {params : List Param} {given : Given} {param : Param}
  {bound : List (Option (String × Value Float))} {name : String} {v : Value Float}

/-- What is bound are the converted arguments. -/
theorem mem_bound_iff (h : params.mapM (given.convert op) = .ok bound) :
    (name, v) ∈ bound.reduceOption ↔ ∃ param ∈ params, param.name = name ∧
      ∃ a, given.lookup param.name = some a ∧ a.convert param.kind = .ok v := by
  have hconvert (param : Param) : given.convert op param = .ok (some (name, v)) ↔
      param.name = name ∧
        ∃ a, given.lookup param.name = some a ∧ a.convert param.kind = .ok v := by
    rw [Given.convert]
    cases given.lookup param.name with
    | none => simp
    | some a => cases ha : a.convert param.kind <;> simp [ha]
  rw [List.reduceOption_mem_iff]
  constructor
  · intro hmem
    obtain ⟨param, hparam, hx⟩ := exists_of_mem_mapM h hmem
    exact ⟨param, hparam, (hconvert param).mp hx⟩
  · rintro ⟨param, hparam, hx⟩
    exact mem_of_mapM h hparam ((hconvert param).mpr hx)

/-- A parameter without a bound value is not given. -/
theorem lookup_eq_none_of_bound (h : params.mapM (given.convert op) = .ok bound)
    (hparam : param ∈ params) (hnone : bound.reduceOption.lookup param.name = none) :
    given.lookup param.name = none := by
  cases ha : given.lookup param.name with
  | none => rfl
  | some a =>
    obtain ⟨b, hb⟩ := exists_of_mapM_eq_ok h hparam
    rw [Given.convert, ha] at hb
    dsimp only at hb
    cases hv : a.convert param.kind with
    | error e =>
      rw [hv] at hb
      cases hb
    | ok v =>
      have hmem := (mem_bound_iff h).mpr ⟨param, hparam, rfl, a, ha, hv⟩
      exact absurd rfl (bne_iff_ne.mp (List.lookup_eq_none_iff.mp hnone _ hmem))

/-- The ways in which a parameter gets its value: from its argument, from its default, or from the
argument of the parameter that it is like. -/
inductive Given.Binds (given : Given) (params : List Param) (param : Param) : Value Float → Prop
  | arg {a : Arg} {v : Value Float} (ha : given.lookup param.name = some a)
      (hv : a.convert param.kind = .ok v) : Binds given params param v
  | default {v : Value Float} (ha : given.lookup param.name = none)
      (hv : param.default? = some (.value v)) : Binds given params param v
  | like {other : Param} {a : Arg} {v : Value Float} (ha : given.lookup param.name = none)
      (hother : other ∈ params) (hlike : param.default? = some (.sameAs other.name))
      (ho : given.lookup other.name = some a) (hv : a.convert other.kind = .ok v) :
      Binds given params param v

theorem binds_of_value (hnodup : (params.map Param.name).Nodup)
    (h : params.mapM (given.convert op) = .ok bound) (hparam : param ∈ params)
    (hvalue : Bound.value op bound.reduceOption param = .ok v) : given.Binds params param v := by
  rw [Bound.value] at hvalue
  split at hvalue
  · rename_i value hlookup
    obtain rfl := Except.ok.inj hvalue
    obtain ⟨other, hother, hname, a, ha, hv⟩ := (mem_bound_iff h).mp (mem_of_lookup hlookup)
    obtain rfl := List.inj_on_of_nodup_map hnodup hother hparam hname
    exact .arg ha hv
  · rename_i value hnone hdefault
    obtain rfl := Except.ok.inj hvalue
    exact .default (lookup_eq_none_of_bound h hparam hnone) hdefault
  · rename_i other hnone hdefault
    split at hvalue
    · rename_i value hlookup
      obtain rfl := Except.ok.inj hvalue
      obtain ⟨other, hother, rfl, a, ha, hv⟩ := (mem_bound_iff h).mp (mem_of_lookup hlookup)
      exact .like (lookup_eq_none_of_bound h hparam hnone) hother hdefault ha hv
    · cases hvalue
  · cases hvalue

end Bound

/-! ### Values of all parameters -/

section Values

variable {call : Call} {verb : Verb} {values : List (Value Float)}

/-- Binding gives every parameter its value. -/
theorem Call.exists_of_bind (h : call.bind verb.params = .ok values) :
    ∃ given, call.given verb.params = .ok given ∧
      List.Forall₂ (given.Binds verb.params) verb.params values := by
  obtain ⟨given, hgiven, h⟩ := bind_eq_ok h
  obtain ⟨bound, hbound, h⟩ := bind_eq_ok h
  have hvalues := (List.forall₂_and_left _ _).mpr ⟨fun _ hparam => hparam, mapM_eq_ok_iff.mp h⟩
  exact ⟨given, hgiven, hvalues.imp fun _ _ ⟨hparam, hv⟩ =>
    binds_of_value verb.nodup_params hbound hparam hv⟩

/-- A default is of the kind of its parameter. -/
theorem Verb.kind_default (v : Verb) : ∀ param ∈ v.params, ∀ value,
    param.default? = some (.value value) → value.kind = param.kind := by
  cases v <;> simp [params, Param.required, Param.countOr, Param.countLike, Param.keyedNumber,
    Param.keyedCount, Value.kind]

/-- A parameter is of the kind of the one that it is like. -/
theorem Verb.kind_like (v : Verb) : ∀ param ∈ v.params, ∀ other ∈ v.params,
    param.default? = some (.sameAs other.name) → other.kind = param.kind := by
  cases v <;> simp [params, Param.required, Param.countOr, Param.countLike, Param.keyedNumber,
    Param.keyedCount]

theorem Given.Binds.kind_eq {given : Given} {param : Param} {v : Value Float}
    (h : given.Binds verb.params param v) (hparam : param ∈ verb.params) :
    v.kind = param.kind := by
  cases h with
  | arg ha hv => exact Arg.kind_of_convert hv
  | default ha hv => exact verb.kind_default param hparam v hv
  | like ha hother hlike ho hv =>
    exact (Arg.kind_of_convert hv).trans (verb.kind_like param hparam _ hother hlike)

/-- A value of a kind is made by the constructor of that kind. -/
theorem map_kind_eq_cons_iff {kind : ValueKind} {kinds : List ValueKind} :
    values.map Value.kind = kind :: kinds ↔
      ∃ v rest, values = v :: rest ∧ rest.map Value.kind = kinds ∧
        match kind with
        | .count => ∃ n, v = .count n
        | .seed => ∃ n, v = .seed n
        | .number => ∃ x, v = .number x
        | .columns => ∃ cols, v = .columns cols
        | .side => ∃ s, v = .side s := by
  rw [List.map_eq_cons_iff]
  refine exists₂_congr fun v rest => and_congr_right fun _ => and_comm.trans (and_congr_right' ?_)
  cases kind <;> cases v <;> simp [Value.kind]

/-- Values of the kinds of the parameters make an operation. -/
theorem Op.isSome_ofValues? (h : values.map Value.kind = verb.params.map Param.kind) :
    (ofValues? verb values).isSome = true := by
  cases verb
  all_goals
    simp only [Verb.params, Param.required, Param.countOr, Param.countLike, Param.keyedNumber,
      Param.keyedCount, List.map_cons, List.map_nil, map_kind_eq_cons_iff] at h
    -- The values are taken off the front one by one.
    repeat obtain ⟨_, _, rfl, h, _, rfl⟩ := h
    obtain rfl := List.map_eq_nil_iff.mp h
    rfl

/-- Values that are bound make an operation. -/
theorem Op.isSome_ofValues?_of_bind (h : call.bind verb.params = .ok values) :
    (ofValues? verb values).isSome = true := by
  obtain ⟨given, -, hbinds⟩ := Call.exists_of_bind h
  have hkinds : List.Forall₂ (fun param v => param.kind = v.kind) verb.params values :=
    ((List.forall₂_and_left _ _).mpr ⟨fun _ hparam => hparam, hbinds⟩).imp
      fun _ _ ⟨hparam, hv⟩ => (hv.kind_eq hparam).symm
  refine isSome_ofValues? (Eq.symm ?_)
  rwa [← List.forall₂_eq_eq_eq, List.forall₂_map_left_iff, List.forall₂_map_right_iff]

end Values

/-! ### Calls that are turned down -/

/-- The ways in which a call of a verb is turned down. The last two are faults of a value. They come
up only once the arguments are matched with the parameters. -/
inductive Call.Refused (call : Call) (verb : Verb) : CallError → Prop
  | tooMany (h : verb.params.length < call.positional.length) :
      Refused call verb (.tooManyArgs call.name verb.params.length)
  | unknown {x : String × Arg} (hx : x ∈ call.keyed)
      (h : ∀ param ∈ verb.params, param.name ≠ x.1) :
      Refused call verb (.unknownParam call.name x.1)
  | twice {name : String} (h : 1 < ((call.named verb.params).map Prod.fst).count name) :
      Refused call verb (.duplicateParam call.name name)
  | bad {param : Param} {a : Arg} {expected : Expectation}
      (hgiven : call.given verb.params = .ok (call.named verb.params))
      (hparam : param ∈ verb.params) (ha : (param.name, a) ∈ call.named verb.params)
      (hconvert : a.convert param.kind = .error expected) :
      Refused call verb (.badValue call.name param.name a expected)
  | missing {name : String} (hgiven : call.given verb.params = .ok (call.named verb.params))
      (h : (call.named verb.params).lookup name = none) :
      Refused call verb (.missingParam call.name name)

section Refused

variable {call : Call} {verb : Verb} {op : String} {params : List Param}
  {given more : Given} {e : CallError}

/-- Adding arguments fails at one for no parameter, or for one that is given before. -/
theorem foldlM_add_eq_error (h : more.foldlM (Given.add op params) given = .error e) :
    (∃ x ∈ more, (∀ param ∈ params, param.name ≠ x.1) ∧ e = .unknownParam op x.1) ∨
      ∃ name, 1 < ((given ++ more).map Prod.fst).count name ∧ e = .duplicateParam op name := by
  induction more generalizing given with
  | nil => cases h
  | cons x more ih =>
    rw [List.foldlM_cons, Given.add] at h
    split_ifs at h with hknown hfree
    · refine .inl ⟨x, List.mem_cons_self, ?_, (Except.error.inj h).symm⟩
      simpa using hknown
    · refine .inr ⟨x.1, ?_, (Except.error.inj h).symm⟩
      obtain ⟨y, hy, heq⟩ := List.any_eq_true.mp hfree
      have hbefore : 0 < (given.map Prod.fst).count x.1 :=
        List.count_pos_iff.mpr (List.mem_map.mpr ⟨y, hy, beq_iff_eq.mp heq⟩)
      rw [List.map_append, List.count_append, List.map_cons, List.count_cons_self]
      omega
    · rcases ih h with ⟨y, hy, herror⟩ | ⟨name, hname, herror⟩
      · exact .inl ⟨y, List.mem_cons_of_mem _ hy, herror⟩
      · rw [List.append_assoc, List.singleton_append] at hname
        exact .inr ⟨name, hname, herror⟩

theorem Given.convert_eq_error {param : Param} (h : given.convert op param = .error e) :
    ∃ a expected, given.lookup param.name = some a ∧ a.convert param.kind = .error expected ∧
      e = .badValue op param.name a expected := by
  rw [Given.convert] at h
  split at h
  · cases h
  · rename_i a ha
    split at h
    · cases h
    · rename_i expected hexpected
      exact ⟨a, expected, ha, hexpected, (Except.error.inj h).symm⟩

theorem Bound.value_eq_error {bound : Bound} {param : Param}
    (h : bound.value op param = .error e) :
    ∃ name, bound.lookup name = none ∧ e = .missingParam op name ∧
      (name = param.name ∨ param.default? = some (.sameAs name)) := by
  rw [Bound.value] at h
  split at h
  · cases h
  · cases h
  · rename_i other _ hdefault
    split at h
    · cases h
    · rename_i hother
      exact ⟨other, hother, (Except.error.inj h).symm, .inr hdefault⟩
  · rename_i hnone _
    exact ⟨param.name, hnone, (Except.error.inj h).symm, .inl rfl⟩

/-- A parameter is like another one of the same operation. -/
theorem Verb.exists_like (v : Verb) : ∀ param ∈ v.params, ∀ name,
    param.default? = some (.sameAs name) → ∃ other ∈ v.params, other.name = name := by
  cases v <;> simp [params, Param.required, Param.countOr, Param.countLike, Param.keyedNumber,
    Param.keyedCount]

/-- A call of a verb is turned down in one of these ways. -/
theorem Op.ofCall_eq_error (hverb : Verb.ofName? call.name = some verb)
    (h : Op.ofCall call = .error e) : call.Refused verb e := by
  have hbind : call.bind verb.params = .error e := by
    rw [ofCall, hverb] at h
    dsimp only at h
    cases hbind : call.bind verb.params with
    | error e' =>
      rw [hbind] at h
      exact congrArg Except.error (Except.error.inj h)
    | ok values =>
      obtain ⟨op, hop⟩ := Option.isSome_iff_exists.mp (isSome_ofValues?_of_bind hbind)
      rw [hbind, ok_bind, hop] at h
      cases h
  rw [Call.bind] at hbind
  cases hgiven : call.given verb.params with
  | error e' =>
    rw [hgiven] at hbind
    obtain rfl := Except.error.inj hbind
    rw [Call.given] at hgiven
    split_ifs at hgiven with hlen
    · exact Except.error.inj hgiven ▸ .tooMany hlen
    · rcases foldlM_add_eq_error hgiven with ⟨x, hx, hname, rfl⟩ | ⟨name, hname, rfl⟩
      · exact .unknown hx hname
      · exact .twice hname
  | ok given =>
    obtain ⟨-, -, -, rfl⟩ := (Call.given_eq_ok_iff verb.nodup_params).mp hgiven
    rw [hgiven, ok_bind] at hbind
    cases hbound : verb.params.mapM ((call.named verb.params).convert call.name) with
    | error e' =>
      rw [hbound] at hbind
      obtain rfl := Except.error.inj hbind
      obtain ⟨_, param, _, hparams, -, hconvert⟩ := exists_of_mapM_eq_error hbound
      obtain ⟨a, expected, ha, hexpected, rfl⟩ := Given.convert_eq_error hconvert
      have hparam : param ∈ verb.params := hparams ▸ List.mem_append_right _ List.mem_cons_self
      exact .bad hgiven hparam (mem_of_lookup ha) hexpected
    | ok bound =>
      rw [hbound, ok_bind] at hbind
      obtain ⟨_, param, _, hparams, -, hvalue⟩ := exists_of_mapM_eq_error hbind
      have hparam : param ∈ verb.params := hparams ▸ List.mem_append_right _ List.mem_cons_self
      obtain ⟨name, hnone, rfl, hname⟩ := Bound.value_eq_error hvalue
      obtain ⟨other, hother, rfl⟩ : ∃ other ∈ verb.params, other.name = name := by
        rcases hname with rfl | hlike
        · exact ⟨param, hparam, rfl⟩
        · exact verb.exists_like param hparam name hlike
      exact .missing hgiven (lookup_eq_none_of_bound hbound hother hnone)

/-- The arguments of a call that names an operation are matched with the parameters. -/
theorem Op.given_of_ofCall {operation : Op Float} (hverb : Verb.ofName? call.name = some verb)
    (h : Op.ofCall call = .ok operation) :
    call.given verb.params = .ok (call.named verb.params) := by
  by_contra hgiven
  have hnone := toOption_ofCall call
  rw [h, hverb, Option.bind_some, Call.toOption_bind_eq_none verb.nodup_params hgiven] at hnone
  cases hnone

end Refused

end Raceway
