import Mathlib
import Raceway.Proofs.Op.Accepted
import Raceway.Proofs.Op.Binding
/-!
# Arguments by position and by name

A positional argument is one that is given by the name of its parameter. The arguments of a call are
matched with its parameters if there are no more of them than parameters, each name is that of a
parameter, and no parameter is given twice. All that counts after that is which argument a parameter
finds, so it makes no difference which arguments go by position and in what order the others stand.

## Main definitions

* `Raceway.Call.Respells`: a call gives the arguments of another one, more of them by name.

## Main results

* `Raceway.Call.given_eq_ok_iff`: which arguments can be matched with parameters.
* `Raceway.Op.ofCall_respelled`: a respelled call names the same operation, or none as well.
-/

namespace Raceway

/-! ### Names that do not repeat -/

section Lookup

variable {α β : Type} [BEq α] [LawfulBEq α] {l l' : List (α × β)} {a : α} {b : β}

/-- Under names that do not repeat, looking up is membership. -/
theorem lookup_eq_some_iff_mem (hnodup : (l.map Prod.fst).Nodup) :
    l.lookup a = some b ↔ (a, b) ∈ l := by
  refine ⟨mem_of_lookup, fun h => ?_⟩
  cases hlookup : l.lookup a with
  | none => exact absurd rfl (bne_iff_ne.mp (List.lookup_eq_none_iff.mp hlookup _ h))
  | some c =>
    have := List.inj_on_of_nodup_map hnodup (mem_of_lookup hlookup) h rfl
    rw [(Prod.mk.inj this).2]

/-- So it does not depend on the order. -/
theorem lookup_eq_of_perm (hnodup : (l.map Prod.fst).Nodup) (hperm : l.Perm l') (a : α) :
    l.lookup a = l'.lookup a := by
  refine Option.ext fun b => ?_
  rw [lookup_eq_some_iff_mem hnodup, lookup_eq_some_iff_mem ((hperm.map _).nodup_iff.mp hnodup),
    hperm.mem_iff]

end Lookup

/-! ### Matching arguments with parameters -/

section Matching

variable {op : String} {params : List Param} {given given' more : Given} {call : Call}

/-- Arguments are added to those for other parameters exactly if each is for a parameter that is
free. -/
theorem foldlM_add_eq_ok_iff (hnodup : (given.map Prod.fst).Nodup) :
    more.foldlM (Given.add op params) given = .ok given' ↔
      (∀ x ∈ more, ∃ param ∈ params, param.name = x.1) ∧
        ((given ++ more).map Prod.fst).Nodup ∧ given' = given ++ more := by
  refine ⟨fun h => ?_, fun ⟨hmem, hfree, heq⟩ => heq ▸ foldlM_add hmem hfree⟩
  induction more generalizing given with
  | nil =>
    obtain rfl := Except.ok.inj h
    exact ⟨List.forall_mem_nil _, by rwa [List.append_nil], (List.append_nil _).symm⟩
  | cons x more ih =>
    rw [List.foldlM_cons] at h
    obtain ⟨given₁, hadd, h⟩ := bind_eq_ok h
    rw [Given.add] at hadd
    split_ifs at hadd with hknown hfree
    obtain rfl := Except.ok.inj hadd
    have hname : ∃ param ∈ params, param.name = x.1 := by
      simpa using hknown
    have hfirst : ((given ++ [x]).map Prod.fst).Nodup := by
      rw [List.map_append, List.map_singleton, List.nodup_append_comm]
      refine List.nodup_cons.mpr ⟨fun hmem => hfree ?_, hnodup⟩
      obtain ⟨y, hy, heq⟩ := List.mem_map.mp hmem
      exact List.any_eq_true.mpr ⟨y, hy, beq_iff_eq.mpr heq⟩
    obtain ⟨hmem, hfree, heq⟩ := ih hfirst h
    rw [List.append_assoc, List.singleton_append] at hfree heq
    exact ⟨List.forall_mem_cons.mpr ⟨hname, hmem⟩, hfree, heq⟩

/-- The arguments of a call by the names of their parameters, whether they fit or not. -/
def Call.named (call : Call) (params : List Param) : Given :=
  (params.map Param.name).zip call.positional ++ call.keyed

/-- Positional arguments are given by different names. -/
theorem nodup_zip {names : List String} (hnodup : names.Nodup) (args : List Arg) :
    ((names.zip args).map Prod.fst).Nodup := by
  induction names generalizing args with
  | nil => exact List.nodup_nil
  | cons name names ih =>
    obtain ⟨hname, hnodup⟩ := List.nodup_cons.mp hnodup
    cases args with
    | nil => exact List.nodup_nil
    | cons arg args =>
      refine List.nodup_cons.mpr ⟨fun hmem => hname ?_, ih hnodup args⟩
      obtain ⟨x, hx, rfl⟩ := List.mem_map.mp hmem
      exact (List.of_mem_zip hx).1

/-- The arguments of a call are matched with the parameters exactly if there are no more positional
ones than parameters, every name is known, and no parameter is given twice. -/
theorem Call.given_eq_ok_iff (hnodup : (params.map Param.name).Nodup) :
    call.given params = .ok given ↔
      call.positional.length ≤ params.length ∧
        (∀ x ∈ call.keyed, ∃ param ∈ params, param.name = x.1) ∧
        ((call.named params).map Prod.fst).Nodup ∧ given = call.named params := by
  rw [Call.given]
  split_ifs with hlen
  · exact ⟨by rintro ⟨⟩, fun h => absurd h.1 (Nat.not_le.mpr hlen)⟩
  · rw [foldlM_add_eq_ok_iff (nodup_zip hnodup _)]
    exact (and_iff_right (Nat.not_lt.mp hlen)).symm

end Matching

/-! ### What binding depends on -/

section Binding

variable {call call' : Call} {params : List Param} {given given' : Given}

/-- Calls of one name whose parameters find the same arguments are bound alike. -/
theorem Call.bind_eq_of_lookup_eq (hname : call'.name = call.name)
    (hgiven : call.given params = .ok given) (hgiven' : call'.given params = .ok given')
    (hlookup : ∀ name, given'.lookup name = given.lookup name) :
    call'.bind params = call.bind params := by
  have hconvert : given'.convert call.name = given.convert call.name := by
    funext param
    rw [Given.convert, Given.convert, hlookup]
  rw [bind, bind, hgiven, hgiven', ok_bind, ok_bind, hname, hconvert]

/-- Arguments that cannot be matched with the parameters are not bound. -/
theorem Call.toOption_bind_eq_none (hnodup : (params.map Param.name).Nodup)
    (h : call.given params ≠ .ok (call.named params)) : (call.bind params).toOption = none := by
  cases hbind : call.bind params with
  | error e => rfl
  | ok values =>
    obtain ⟨given, hgiven, -⟩ := bind_eq_ok hbind
    obtain ⟨-, -, -, rfl⟩ := (given_eq_ok_iff hnodup).mp hgiven
    exact absurd hgiven h

/-- A call names the operation of its verb with the values that are bound. -/
theorem Op.toOption_ofCall (call : Call) :
    (Op.ofCall call).toOption = (Verb.ofName? call.name).bind fun verb =>
      (call.bind verb.params).toOption.bind (ofValues? verb) := by
  rw [ofCall]
  cases Verb.ofName? call.name with
  | none => rfl
  | some verb =>
    rw [Option.bind_some]
    dsimp only
    cases call.bind verb.params with
    | error e => rfl
    | ok values =>
      change _ = ofValues? verb values
      rw [ok_bind]
      cases ofValues? verb values <;> rfl

end Binding

/-! ### Respelled calls -/

/-- The names of the parameters of the operation that a call names. -/
def Call.paramNames (call : Call) : List String :=
  ((Verb.ofName? call.name).elim [] Verb.params).map Param.name

/-- The call gives the arguments of another one. Some of the last positional arguments go by the
names of their parameters, and the arguments that go by name stand in any order. -/
structure Call.Respells (call' call : Call) : Prop where
  name_eq : call'.name = call.name
  exists_moved : ∃ moved, call.positional = call'.positional ++ moved ∧
    call'.keyed.Perm
      (call.keyed ++ (call.paramNames.drop call'.positional.length).zip moved)

section Respelled

variable {call call' : Call} {verb : Verb}

theorem Call.Respells.perm_named (h : call'.Respells call)
    (hverb : Verb.ofName? call.name = some verb)
    (hlen : call.positional.length ≤ verb.params.length) :
    (call'.named verb.params).Perm (call.named verb.params) := by
  obtain ⟨moved, hmoved, hperm⟩ := h.exists_moved
  have hnames : call.paramNames = verb.params.map Param.name := by
    rw [paramNames, hverb]
    rfl
  rw [hnames] at hperm
  rw [named, named, hmoved]
  rw [hmoved, List.length_append] at hlen
  generalize hparams : verb.params.map Param.name = names at hperm
  have htake : (names.take call'.positional.length).length = call'.positional.length := by
    rw [List.length_take, ← hparams, List.length_map]
    omega
  have hsplit (rest : List Arg) : names.zip (call'.positional ++ rest) =
      (names.take call'.positional.length).zip call'.positional ++
        (names.drop call'.positional.length).zip rest := by
    rw [← List.zip_append htake, List.take_append_drop]
  have hfront := hsplit []
  rw [List.append_nil, List.zip_nil_right, List.append_nil] at hfront
  rw [hsplit, ← hfront, List.append_assoc]
  exact (hperm.trans List.perm_append_comm).append_left _

theorem Call.Respells.known_iff (h : call'.Respells call)
    (hverb : Verb.ofName? call.name = some verb) :
    (∀ x ∈ call'.keyed, ∃ param ∈ verb.params, param.name = x.1) ↔
      ∀ x ∈ call.keyed, ∃ param ∈ verb.params, param.name = x.1 := by
  obtain ⟨moved, -, hperm⟩ := h.exists_moved
  have hmoved : ∀ x ∈ (call.paramNames.drop call'.positional.length).zip moved,
      ∃ param ∈ verb.params, param.name = x.1 := by
    intro x hx
    have hname := List.mem_of_mem_drop (List.of_mem_zip hx).1
    rw [paramNames, hverb] at hname
    exact List.mem_map.mp hname
  simp only [hperm.mem_iff, List.forall_mem_append, and_iff_left hmoved]

/-- The arguments of a respelled call are matched with the parameters whenever those of the call
are. -/
theorem Call.Respells.given_eq_iff (h : call'.Respells call)
    (hverb : Verb.ofName? call.name = some verb)
    (hlen : call.positional.length ≤ verb.params.length) :
    call'.given verb.params = .ok (call'.named verb.params) ↔
      call.given verb.params = .ok (call.named verb.params) := by
  have hlen' : call'.positional.length ≤ verb.params.length := by
    obtain ⟨moved, hmoved, -⟩ := h.exists_moved
    rw [hmoved, List.length_append] at hlen
    omega
  rw [given_eq_ok_iff verb.nodup_params, given_eq_ok_iff verb.nodup_params, h.known_iff hverb,
    ((h.perm_named hverb hlen).map Prod.fst).nodup_iff]
  simp only [hlen, hlen', true_and, and_true]

/-- A respelled call names the operation of the call that it respells, or none if that names none,
however many arguments go by name and in whatever order. -/
theorem Op.ofCall_respelled (hlen : ∀ verb, Verb.ofName? call.name = some verb →
      call.positional.length ≤ verb.params.length) (h : call'.Respells call) :
    (Op.ofCall call').toOption = (Op.ofCall call).toOption := by
  rw [toOption_ofCall, toOption_ofCall, h.name_eq]
  refine Option.bind_congr fun verb hverb => congrArg (Option.bind · (ofValues? verb)) ?_
  have hlen := hlen verb hverb
  by_cases hgiven : call.given verb.params = .ok (call.named verb.params)
  · have hgiven' := (h.given_eq_iff hverb hlen).mpr hgiven
    obtain ⟨-, -, hnodup, -⟩ := (Call.given_eq_ok_iff verb.nodup_params).mp hgiven'
    rw [Call.bind_eq_of_lookup_eq h.name_eq hgiven hgiven' fun name =>
      lookup_eq_of_perm hnodup (h.perm_named hverb hlen) name]
  · have hgiven' := mt (h.given_eq_iff hverb hlen).mp hgiven
    rw [Call.toOption_bind_eq_none verb.nodup_params hgiven,
      Call.toOption_bind_eq_none verb.nodup_params hgiven']

/-- A bend with its angle by name, behind its keyed numbers in another order. -/
theorem Op.ofCall_respelled_bend :
    let call : Call :=
      ⟨"sBend", [.int 1, .int 9, .float 12.5], [("gain", .float 2), ("ratio", .float 0.25)]⟩
    let call' : Call := ⟨"sBend", [.int 1, .int 9],
      [("ratio", .float 0.25), ("deg", .float 12.5), ("gain", .float 2)]⟩
    call'.Respells call ∧ (Op.ofCall call').toOption = some (.sBend 1 9 12.5 2 0.25) := by
  intro call call'
  have hrespells : call'.Respells call :=
    ⟨rfl, [.float 12.5], rfl, by
      refine List.Perm.trans ?_ (List.Perm.swap _ _ _)
      exact (List.Perm.swap _ _ _).cons _⟩
  refine ⟨hrespells, ?_⟩
  rw [ofCall_respelled (fun verb hverb => ?_) hrespells]
  · decide +kernel
  · obtain rfl := Option.some.inj hverb
    decide

end Respelled

end Raceway
