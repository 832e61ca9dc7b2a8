import Mathlib
import Raceway.Proofs.Json.Keys
import Raceway.Proofs.Request.RuleByRule
/-!
# Templates of a rulebook

A rulebook is checked when it is read: every template names an operation and gives arguments for its
parameters only. An operation that is written as a whole has its arguments in an object, in which no
parameter stands twice. Patches for one operation that follow one another are collected in one
template, and nothing keeps two of them from setting the same parameter.

## Main definitions

* `Raceway.Template.names`: the parameters that a template gives.
* `Raceway.PatchEntry.target?`: the operation and the parameter that a patch sets.
* `Raceway.SetsTwice`: patches for one operation set a parameter twice.
* `Raceway.Collects`: what patches are collected in.

## Main results

* `Raceway.Collects.map_target?`: the templates give what the patches set, in their order.
* `Raceway.RuleEntry.isKnown_of_rule`: templates give parameters of their operations.
* `Raceway.RuleEntry.exists_template_iff`: where a template gives a parameter twice.
-/

namespace Raceway

open Json

/-! ### Entries that are read -/

/-- Whole operations have no parameter twice. -/
def RuleEntry.IsDistinct (d : RuleEntry) : Prop :=
  ∀ entry ∈ d.kernel, (entry.args.map Prod.fst).Nodup

theorem OpEntry.yields_reader : reader.Yields fun d => (d.args.map Prod.fst).Nodup := by
  refine Reader.yields_record ?_ List.nodup_nil
  simp only [List.mem_cons, List.not_mem_nil, or_false, forall_eq_or_imp, forall_eq]
  refine ⟨fun d hd => ?_, fun d hd => ?_⟩
  · exact Reader.yields_bind fun _ => Reader.yields_pure hd
  · exact (Reader.yields_dict _).bind fun _ hargs => Reader.yields_pure hargs

theorem RuleEntry.yields_reader : reader.Yields IsDistinct := by
  refine Reader.yields_record ?_ (List.forall_mem_nil _)
  simp only [List.mem_cons, List.not_mem_nil, or_false, forall_eq_or_imp, forall_eq]
  refine ⟨fun d hd => ?_, fun d hd => ?_, fun d hd => ?_, fun d hd => ?_⟩
  · exact Reader.yields_bind fun _ => Reader.yields_pure hd
  · exact Reader.yields_bind fun _ => Reader.yields_pure hd
  · exact Reader.yields_bind fun _ => Reader.yields_pure hd
  · exact (Reader.yields_elements OpEntry.yields_reader).bind fun _ hkernel =>
      Reader.yields_pure hkernel

theorem RulebookEntry.yields_reader :
    reader.Yields fun doc => ∀ entry ∈ Rulebook.orderedRules doc, entry.2.IsDistinct := by
  have hlists : reader.Yields fun doc => (∀ d ∈ doc.intents, d.IsDistinct) ∧
      (∀ d ∈ doc.commands, d.IsDistinct) ∧ ∀ d ∈ doc.composites, d.IsDistinct := by
    refine Reader.yields_record ?_
      ⟨List.forall_mem_nil _, List.forall_mem_nil _, List.forall_mem_nil _⟩
    simp only [List.mem_cons, List.not_mem_nil, or_false, forall_eq_or_imp, forall_eq]
    have hrules := Reader.yields_elements RuleEntry.yields_reader
    refine ⟨fun d hd => ?_, fun d hd => ?_, fun d hd => ?_, fun d hd => ?_, fun d hd => ?_⟩
    · exact Reader.yields_bind fun _ => Reader.yields_pure hd
    · exact Reader.yields_bind fun _ => Reader.yields_pure hd
    · exact hrules.bind fun _ h => Reader.yields_pure ⟨h, hd.2⟩
    · exact hrules.bind fun _ h => Reader.yields_pure ⟨hd.1, h, hd.2.2⟩
    · exact hrules.bind fun _ h => Reader.yields_pure ⟨hd.1, hd.2.1, h⟩
  intro p doc p' hrun
  obtain ⟨hintents, hcommands, hcomposites⟩ := hlists p doc p' hrun
  simp only [Rulebook.orderedRules, List.forall_mem_append, List.forall_mem_map]
  exact ⟨⟨hintents, hcommands⟩, hcomposites⟩

/-! ### Checking -/

/-- The parameters that a template gives, in its order. -/
def Template.names (t : Template) : List String :=
  t.args.map Prod.fst

/-- The template gives parameters of its operation only. -/
def Template.IsKnown (t : Template) : Prop :=
  ∀ x ∈ t.args, ∃ param ∈ t.verb.params, param.name = x.1

/-- The operation and the parameter that a patch sets, if it names them. -/
def PatchEntry.target? (d : PatchEntry) : Option (Verb × String) :=
  (splitPath? d.path.toList).bind fun (op, param) => (Verb.ofName? op).map (·, param)

section Checking

variable {groups : ℕ} {verb : Verb} {name : String} {n : Node} {spec : TemplateArg}

theorem ofName?_of_verbNamed {op : String} (h : verbNamed op = .ok verb) :
    Verb.ofName? op = some verb := by
  rw [verbNamed] at h
  split at h
  · rename_i verb' hverb
    exact hverb.trans (congrArg some (Except.ok.inj h))
  · cases h

theorem exists_param_of_checkArg (h : checkArg verb groups name n = .ok spec) :
    ∃ param ∈ verb.params, param.name = name := by
  rw [checkArg] at h
  split at h
  · cases h
  · rename_i hparam
    obtain ⟨param, hfind⟩ := Option.ne_none_iff_exists'.mp (mt Option.isNone_iff_eq_none.mpr hparam)
    have hname := List.find?_some hfind
    exact ⟨param, List.mem_of_find?_eq_some hfind, beq_iff_eq.mp hname⟩

/-- A patch adds the argument that it sets. -/
theorem PatchEntry.exists_of_addTo {d : PatchEntry} {ts ts' : List Template}
    (h : d.addTo groups ts = .ok ts') :
    ∃ verb name spec, d.target? = some (verb, name) ∧
      (∃ param ∈ verb.params, param.name = name) ∧ ts' = addArg ts verb (name, spec) := by
  rw [addTo] at h
  split at h
  · cases h
  split at h
  · cases h
  · rename_i op name hpath
    obtain ⟨verb, hverb, h⟩ := bind_eq_ok h
    obtain ⟨spec, hspec, h⟩ := bind_eq_ok h
    refine ⟨verb, name, spec, ?_, exists_param_of_checkArg hspec, (Except.ok.inj h).symm⟩
    rw [target?, hpath, Option.bind_some]
    exact congrArg (Option.map (·, name)) (ofName?_of_verbNamed hverb)

/-- The template of a whole operation gives its arguments. -/
theorem OpEntry.names_template {d : OpEntry} {t : Template} (h : d.template groups = .ok t) :
    t.names = d.args.map Prod.fst ∧ t.IsKnown := by
  obtain ⟨verb, -, h⟩ := bind_eq_ok h
  obtain ⟨args, hargs, h⟩ := bind_eq_ok h
  obtain rfl := Except.ok.inj h
  have hchecked (x : String × Node) (y : String × TemplateArg)
      (hxy : (do let spec ← checkArg verb groups x.1 x.2; pure (x.1, spec)) = Except.ok y) :
      x.1 = y.1 ∧ ∃ param ∈ verb.params, param.name = y.1 := by
    obtain ⟨spec, hspec, hxy⟩ := bind_eq_ok hxy
    obtain rfl := Except.ok.inj hxy
    exact ⟨rfl, exists_param_of_checkArg hspec⟩
  constructor
  · rw [Template.names, eq_comm, ← List.forall₂_eq_eq_eq, List.forall₂_map_left_iff,
      List.forall₂_map_right_iff]
    exact (mapM_eq_ok_iff.mp hargs).imp fun x y hxy => (hchecked x y hxy).1
  · intro y hy
    obtain ⟨x, -, hxy⟩ := exists_of_mem_mapM hargs hy
    exact (hchecked x y hxy).2

end Checking

/-! ### Patches -/

/-- Two patches set the same parameter of an operation, and those between them set parameters of it,
too. -/
def SetsTwice (patches : List PatchEntry) (verb : Verb) (name : String) : Prop :=
  ∃ before p between q after, patches = before ++ p :: between ++ q :: after ∧
    p.target? = some (verb, name) ∧ q.target? = some (verb, name) ∧
    ∀ r ∈ between, ∃ other, r.target? = some (verb, other)

/-- The templates that patches are collected in, of which the last one comes first. -/
inductive Collects : List PatchEntry → List Template → Prop
  | nil : Collects [] []
  | add {patches : List PatchEntry} {ts : List Template} {d : PatchEntry} {verb : Verb}
      {name : String} {spec : TemplateArg} (h : Collects patches ts)
      (htarget : d.target? = some (verb, name))
      (hknown : ∃ param ∈ verb.params, param.name = name) :
      Collects (patches ++ [d]) (addArg ts verb (name, spec))

theorem collects_of_foldlM {groups : ℕ} {patches : List PatchEntry} {ts : List Template}
    (h : patches.foldlM (PatchEntry.addTo groups) [] = .ok ts) : Collects patches ts := by
  refine foldlM_induction .nil (fun before d c c' hbefore hd => ?_) h
  obtain ⟨verb, name, spec, htarget, hknown, rfl⟩ := PatchEntry.exists_of_addTo hd
  exact .add hbefore htarget hknown

section Patches

variable {patches : List PatchEntry} {ts : List Template} {t : Template} {verb : Verb}
  {name : String} {arg : String × TemplateArg}

/-- An argument goes to the last template, or starts a new one. -/
theorem addArg_cases (ts : List Template) (verb : Verb) (arg : String × TemplateArg) :
    (∃ last before, ts = last :: before ∧ last.verb = verb ∧
        addArg ts verb arg = { last with args := last.args ++ [arg] } :: before) ∨
      addArg ts verb arg = ⟨verb, [arg]⟩ :: ts := by
  cases ts with
  | nil => exact .inr rfl
  | cons last before =>
    rw [addArg]
    split_ifs with hverb
    · exact .inl ⟨last, before, rfl, hverb, rfl⟩
    · exact .inr rfl

theorem addArg_of_verb_eq {before : List Template} (h : t.verb = verb) :
    addArg (t :: before) verb arg = { t with args := t.args ++ [arg] } :: before :=
  if_pos h

/-- The last template gives the argument that was added last. -/
theorem exists_head_addArg (ts : List Template) (verb : Verb) (arg : String × TemplateArg) :
    ∃ last before, addArg ts verb arg = last :: before ∧ last.verb = verb ∧
      arg.1 ∈ last.names := by
  rcases addArg_cases ts verb arg with ⟨last, before, -, hverb, h⟩ | h
  · refine ⟨_, before, h, hverb, ?_⟩
    rw [Template.names, List.map_append]
    exact List.mem_append_right _ List.mem_cons_self
  · exact ⟨_, ts, h, rfl, List.mem_cons_self⟩

/-- Templates that patches are collected in give parameters of their operations only. -/
theorem Collects.isKnown (h : Collects patches ts) : ∀ t ∈ ts, t.IsKnown := by
  induction h with
  | nil => exact List.forall_mem_nil _
  | @add patches ts d verb name spec h htarget hknown ih =>
    rcases addArg_cases ts verb (name, spec) with ⟨last, before, rfl, rfl, heq⟩ | heq
    · obtain ⟨hlast, hbefore⟩ := List.forall_mem_cons.mp ih
      rw [heq]
      refine List.forall_mem_cons.mpr ⟨?_, hbefore⟩
      exact List.forall_mem_append.mpr ⟨hlast, List.forall_mem_singleton.mpr hknown⟩
    · rw [heq]
      exact List.forall_mem_cons.mpr ⟨List.forall_mem_singleton.mpr hknown, ih⟩

/-- The parameters that templates give, with the operations of the templates. -/
def targets (ts : List Template) : List (Verb × String) :=
  ts.reverse.flatMap fun t => t.names.map (t.verb, ·)

theorem targets_cons (t : Template) (ts : List Template) :
    targets (t :: ts) = targets ts ++ t.names.map (t.verb, ·) := by
  simp [targets]

theorem targets_append (later earlier : List Template) :
    targets (later ++ earlier) = targets earlier ++ targets later := by
  simp [targets]

theorem targets_addArg (ts : List Template) (verb : Verb) (arg : String × TemplateArg) :
    targets (addArg ts verb arg) = targets ts ++ [(verb, arg.1)] := by
  rcases addArg_cases ts verb arg with ⟨last, before, rfl, rfl, heq⟩ | heq
  · simp [heq, targets_cons, Template.names]
  · simp [heq, targets_cons, Template.names]

/-- Templates give the parameters that the patches set, in their order. -/
theorem Collects.map_target? (h : Collects patches ts) :
    patches.map PatchEntry.target? = (targets ts).map some := by
  induction h with
  | nil => rfl
  | add h htarget hknown ih =>
    rw [targets_addArg, List.map_append, List.map_append, ih, List.map_singleton, htarget]
    rfl

/-- An element that occurs more than once has two places. -/
theorem exists_of_one_lt_count {α : Type} [BEq α] [LawfulBEq α] {l : List α} {a : α}
    (h : 1 < l.count a) : ∃ before between after, l = before ++ a :: between ++ a :: after := by
  obtain ⟨before, rest, rfl, hbefore⟩ :=
    List.eq_append_cons_of_mem (List.count_pos_iff.mp (Nat.zero_lt_of_lt h))
  rw [List.count_append, List.count_eq_zero_of_not_mem hbefore, List.count_cons_self] at h
  obtain ⟨between, after, rfl, -⟩ :=
    List.eq_append_cons_of_mem (List.count_pos_iff.mp (show 0 < rest.count a by omega))
  exact ⟨before, between, after, by rw [List.append_assoc, List.cons_append]⟩

/-- A template that gives a parameter twice is collected from patches that set it twice. -/
theorem Collects.setsTwice (h : Collects patches ts) (ht : t ∈ ts)
    (hname : 1 < t.names.count name) : SetsTwice patches t.verb name := by
  obtain ⟨later, earlier, rfl⟩ := List.append_of_mem ht
  obtain ⟨front, between, back, hnames⟩ := exists_of_one_lt_count hname
  have htargets := h.map_target?
  rw [targets_append, targets_cons, hnames] at htargets
  simp only [List.map_append, List.map_cons, List.map_map, List.append_assoc, List.cons_append,
    List.map_eq_append_iff, List.map_eq_cons_iff] at htargets
  obtain ⟨l₁, _, rfl, -, l₂, _, rfl, -, p, _, rfl, hp, l₃, _, rfl, hl₃, q, l₄, rfl, hq, -⟩ :=
    htargets
  refine ⟨l₁ ++ l₂, p, l₃, q, l₄, by simp, hp, hq, fun r hr => ?_⟩
  obtain ⟨other, -, hother⟩ := List.mem_map.mp (hl₃ ▸ List.mem_map_of_mem hr)
  exact ⟨other, hother.symm⟩

/-- While patches set parameters of an operation, the last template is one of it. -/
theorem Collects.exists_head (h : Collects patches ts) {before between : List PatchEntry}
    {p : PatchEntry} (hpatches : patches = before ++ p :: between)
    (hp : p.target? = some (verb, name))
    (hbetween : ∀ r ∈ between, ∃ other, r.target? = some (verb, other)) :
    ∃ last earlier, ts = last :: earlier ∧ last.verb = verb ∧ name ∈ last.names := by
  induction h generalizing between with
  | nil => simp at hpatches
  | @add patches ts d verb' name' spec h htarget hknown ih =>
    rcases between.eq_nil_or_concat' with rfl | ⟨between, r, rfl⟩
    · obtain ⟨-, hd⟩ := List.append_inj' hpatches rfl
      obtain rfl := List.singleton_inj.mp hd
      obtain ⟨rfl, rfl⟩ := Prod.mk.inj (Option.some.inj (htarget.symm.trans hp))
      exact exists_head_addArg ts verb' (name', spec)
    · rw [← List.cons_append, ← List.append_assoc] at hpatches
      obtain ⟨rfl, hd⟩ := List.append_inj' hpatches rfl
      obtain rfl := List.singleton_inj.mp hd
      obtain ⟨hbetween, hr⟩ := List.forall_mem_append.mp hbetween
      obtain ⟨last, earlier, rfl, hverb, hname⟩ := ih rfl hbetween
      obtain ⟨other, hother⟩ := hr d List.mem_cons_self
      obtain ⟨rfl, rfl⟩ := Prod.mk.inj (Option.some.inj (htarget.symm.trans hother))
      refine ⟨_, earlier, addArg_of_verb_eq hverb, hverb, ?_⟩
      rw [Template.names, List.map_append]
      exact List.mem_append_left _ hname

/-- Patches that set a parameter twice are collected in a template that gives it twice. -/
theorem Collects.exists_of_setsTwice (h : Collects patches ts)
    (hsets : SetsTwice patches verb name) :
    ∃ t ∈ ts, t.verb = verb ∧ 1 < t.names.count name := by
  obtain ⟨before, p, between, q, after, hpatches, hp, hq, hbetween⟩ := hsets
  induction h generalizing after with
  | nil => simp at hpatches
  | @add patches ts d verb' name' spec h htarget hknown ih =>
    rcases after.eq_nil_or_concat' with rfl | ⟨after, r, rfl⟩
    · obtain ⟨hfront, hd⟩ := List.append_inj' hpatches rfl
      obtain rfl := List.singleton_inj.mp hd
      obtain ⟨rfl, rfl⟩ := Prod.mk.inj (Option.some.inj (htarget.symm.trans hq))
      obtain ⟨last, earlier, rfl, hverb, hname⟩ := h.exists_head hfront hp hbetween
      rw [addArg_of_verb_eq hverb]
      refine ⟨_, List.mem_cons_self, hverb, ?_⟩
      have hcount : 0 < last.names.count name' := List.count_pos_iff.mpr hname
      rw [Template.names, List.map_append, List.count_append, List.map_singleton,
        List.count_singleton_self]
      exact Nat.lt_add_of_pos_left hcount
    · rw [← List.cons_append, ← List.append_assoc] at hpatches
      obtain ⟨hfront, -⟩ := List.append_inj' hpatches rfl
      obtain ⟨t, ht, hverb, hcount⟩ := ih after hfront
      rcases addArg_cases ts verb' (name', spec) with ⟨last, earlier, rfl, -, heq⟩ | heq
      · rw [heq]
        rcases List.mem_cons.mp ht with rfl | ht
        · refine ⟨_, List.mem_cons_self, hverb, hcount.trans_le ?_⟩
          rw [Template.names, Template.names, List.map_append, List.count_append]
          exact Nat.le_add_right _ _
        · exact ⟨t, List.mem_cons_of_mem _ ht, hverb, hcount⟩
      · rw [heq]
        exact ⟨t, List.mem_cons_of_mem _ ht, hverb, hcount⟩

end Patches

/-! ### Rules -/

/-- The templates of a rule are those of its patches and those of its whole operations. -/
theorem RuleEntry.exists_of_rule {d : RuleEntry} {list : RuleList} {rule : Rule}
    (h : d.rule list = .ok rule) :
    rule.list = list ∧ ∃ groups patched whole, Collects d.patches patched ∧
      d.kernel.mapM (OpEntry.template groups) = .ok whole ∧
      rule.templates = patched.reverse ++ whole := by
  obtain ⟨p, -, h⟩ := bind_eq_ok h
  obtain ⟨patched, hpatched, h⟩ := bind_eq_ok h
  obtain ⟨whole, hwhole, h⟩ := bind_eq_ok h
  dsimp only at h
  split at h
  · cases h
  · obtain rfl := Except.ok.inj h
    exact ⟨rfl, p.groupCount, patched, whole, collects_of_foldlM hpatched, hwhole, rfl⟩

section Rules

variable {d : RuleEntry} {list : RuleList} {rule : Rule} {t : Template} {name : String}

theorem RuleEntry.isKnown_of_rule (h : d.rule list = .ok rule) (ht : t ∈ rule.templates) :
    t.IsKnown := by
  obtain ⟨-, groups, patched, whole, hpatched, hwhole, htemplates⟩ := exists_of_rule h
  rw [htemplates] at ht
  rcases List.mem_append.mp ht with ht | ht
  · exact hpatched.isKnown t (List.mem_reverse.mp ht)
  · obtain ⟨entry, -, hentry⟩ := exists_of_mem_mapM hwhole ht
    exact (OpEntry.names_template hentry).2

/-- Where whole operations have no parameter twice, a template that does is one of patches. -/
theorem RuleEntry.setsTwice_of_rule (h : d.rule list = .ok rule) (hd : d.IsDistinct)
    (ht : t ∈ rule.templates) (hname : 1 < t.names.count name) :
    SetsTwice d.patches t.verb name := by
  obtain ⟨-, groups, patched, whole, hpatched, hwhole, htemplates⟩ := exists_of_rule h
  rw [htemplates] at ht
  rcases List.mem_append.mp ht with ht | ht
  · exact hpatched.setsTwice (List.mem_reverse.mp ht) hname
  · obtain ⟨entry, hentry, htemplate⟩ := exists_of_mem_mapM hwhole ht
    rw [(OpEntry.names_template htemplate).1] at hname
    exact absurd hname (Nat.not_lt.mpr (List.nodup_iff_count_le_one.mp (hd entry hentry) name))

/-- A template gives a parameter twice exactly if patches set it twice. -/
theorem RuleEntry.exists_template_iff (h : d.rule list = .ok rule) (hd : d.IsDistinct)
    {verb : Verb} :
    (∃ t ∈ rule.templates, t.verb = verb ∧ 1 < t.names.count name) ↔
      SetsTwice d.patches verb name := by
  constructor
  · rintro ⟨t, ht, rfl, hname⟩
    exact setsTwice_of_rule h hd ht hname
  · intro hsets
    obtain ⟨-, groups, patched, whole, hpatched, -, htemplates⟩ := exists_of_rule h
    obtain ⟨t, ht, hverb, hname⟩ := hpatched.exists_of_setsTwice hsets
    exact ⟨t, htemplates ▸ List.mem_append_left _ (List.mem_reverse.mpr ht), hverb, hname⟩

end Rules

/-! ### Rulebooks -/

namespace Rulebook

variable {text : List Char} {book : Rulebook} {rule : Rule}

/-- The rules of a rulebook are those of a document in which whole operations have no parameter
twice. -/
theorem exists_of_ofText (h : ofText text = .ok book) (hrule : rule ∈ book.rules) :
    ∃ doc entry, Reader.run RulebookEntry.reader text = .ok doc ∧
      (rule.list, entry) ∈ orderedRules doc ∧ entry.rule rule.list = .ok rule ∧
      entry.IsDistinct := by
  rw [ofText] at h
  split at h
  swap
  · cases h
  rename_i doc hdoc
  have hrules := mapM_eq_ok_iff.mpr (inOrderOf_of_ofDoc h)
  obtain ⟨⟨list, entry⟩, hentry, hchecked⟩ := exists_of_mem_mapM hrules hrule
  obtain ⟨rfl, -⟩ := RuleEntry.exists_of_rule hchecked
  exact ⟨doc, entry, hdoc, hentry, hchecked, RulebookEntry.yields_reader.of_run hdoc _ hentry⟩

end Rulebook

end Raceway
