import Mathlib
import Raceway.Proofs.Op.Bound
import Raceway.Proofs.Request.Templates
/-!
# Filling in templates

The templates of a rulebook name operations and give parameters of them. So when a template is not
filled in for a match, this is about a value: a text that cannot be cast, an argument that is not of
its kind, or one that is missing. There is one exception. A template that is collected from patches
may give a parameter twice, and then it is turned down whenever its match leaves both arguments in.

## Main definitions

* `Raceway.FillError.OfValue`: the faults of a value.

## Main results

* `Raceway.Template.fill_eq_error`: why a template is not filled in.
* `Raceway.Rulebook.fill_of_ofText`: why a template of a rulebook is not filled in.
-/

namespace Raceway

open Json

/-! ### Templates -/

/-- The faults of a value: a text that cannot be cast, an argument that is not of its kind, and one
that is missing. -/
inductive FillError.OfValue : FillError → Prop
  | cast (e : CaptureError) : OfValue (.cast e)
  | bad (op param : String) (value : Arg) (expected : Expectation) :
    OfValue (.bind (.badValue op param value expected))
  | missing (op param : String) : OfValue (.bind (.missingParam op param))

section Filling

variable {t : Template} {m : Match} {keyed : List (String × Arg)}

/-- A template gives its arguments under its parameters, those left out apart. -/
theorem Template.sublist_arguments {args : List (String × TemplateArg)}
    (h : Template.arguments m args = .ok keyed) :
    (keyed.map Prod.fst).Sublist (args.map Prod.fst) := by
  induction args generalizing keyed with
  | nil =>
    obtain rfl := Except.ok.inj h
    exact List.Sublist.slnil
  | cons x rest ih =>
    rw [arguments] at h
    split at h
    · cases h
    · exact (ih h).cons _
    · obtain ⟨more, hmore, rfl⟩ := map_eq_ok h
      exact (ih hmore).cons_cons _

/-- The arguments of a template for a match are matched with the parameters only if none stands
twice. -/
theorem nodup_of_given {verb : Verb}
    (h : Call.given ⟨verb.name, [], keyed⟩ verb.params =
      .ok (Call.named ⟨verb.name, [], keyed⟩ verb.params)) : (keyed.map Prod.fst).Nodup := by
  obtain ⟨-, -, hnodup, -⟩ := (Call.given_eq_ok_iff verb.nodup_params).mp h
  rwa [Call.named, List.zip_nil_right, List.nil_append] at hnodup

/-- A template that is not filled in is turned down because its arguments for the match give a
parameter twice, or, where they do not, for a value. -/
theorem Template.fill_eq_error (hknown : t.IsKnown) {e : FillError}
    (h : Template.fill m t = .error e) :
    (e.OfValue ∧ ∀ keyed, Template.arguments m t.args = .ok keyed → (keyed.map Prod.fst).Nodup) ∨
      ∃ keyed name, Template.arguments m t.args = .ok keyed ∧
        1 < (keyed.map Prod.fst).count name ∧ e = .bind (.duplicateParam t.verb.name name) := by
  rw [fill] at h
  cases hkeyed : Template.arguments m t.args with
  | error cause =>
    rw [hkeyed] at h
    obtain rfl := Except.error.inj h
    exact .inl ⟨.cast cause, fun _ h => by cases h⟩
  | ok keyed =>
    rw [hkeyed] at h
    dsimp only at h
    split at h
    · cases h
    rename_i reason hreason
    obtain rfl := Except.error.inj h
    cases Op.ofCall_eq_error t.verb.ofName?_name hreason with
    | tooMany hlen => exact absurd hlen (Nat.not_lt_zero _)
    | @unknown x hx hname =>
      have hmem := (sublist_arguments hkeyed).subset (List.mem_map_of_mem hx)
      obtain ⟨y, hy, heq⟩ := List.mem_map.mp hmem
      obtain ⟨param, hparam, hknown⟩ := hknown y hy
      exact absurd (hknown.trans heq) (hname param hparam)
    | @twice name hname =>
      rw [Call.named, List.zip_nil_right, List.nil_append] at hname
      exact .inr ⟨keyed, name, rfl, hname, rfl⟩
    | bad hgiven =>
      exact .inl ⟨.bad .., fun _ hok => Except.ok.inj hok ▸ nodup_of_given hgiven⟩
    | missing hgiven =>
      exact .inl ⟨.missing .., fun _ hok => Except.ok.inj hok ▸ nodup_of_given hgiven⟩

/-- A template is turned down for a parameter that it gives twice exactly if its arguments for the
match do. -/
theorem Template.fill_duplicate_iff (hknown : t.IsKnown) :
    (∃ name, Template.fill m t = .error (.bind (.duplicateParam t.verb.name name))) ↔
      ∃ keyed, Template.arguments m t.args = .ok keyed ∧ ¬ (keyed.map Prod.fst).Nodup := by
  constructor
  · rintro ⟨name, h⟩
    rcases fill_eq_error hknown h with ⟨hvalue, -⟩ | ⟨keyed, name, hkeyed, hname, -⟩
    · cases hvalue
    · exact ⟨keyed, hkeyed, fun hnodup =>
        Nat.not_lt.mpr (List.nodup_iff_count_le_one.mp hnodup name) hname⟩
  · rintro ⟨keyed, hkeyed, hrepeats⟩
    cases h : Template.fill m t with
    | error e =>
      rcases fill_eq_error hknown h with ⟨-, hnodup⟩ | ⟨_, name, -, -, rfl⟩
      · exact absurd (hnodup keyed hkeyed) hrepeats
      · exact ⟨name, rfl⟩
    | ok op =>
      rw [fill, hkeyed] at h
      dsimp only at h
      split at h
      · rename_i op' hop
        exact absurd (nodup_of_given (Op.given_of_ofCall t.verb.ofName?_name hop)) hrepeats
      · cases h

end Filling

/-! ### Rulebooks -/

namespace Rulebook

variable {text : List Char} {book : Rulebook} {rule : Rule}

/-- Whatever document a rulebook is read from, a template of one of its rules is filled in for a
match, or turned down for a value, or because it gives a parameter twice. The last happens exactly
if the arguments for the match give it twice. A template gives a parameter twice exactly where
patches of the rule set it twice. -/
theorem fill_of_ofText (h : ofText text = .ok book) (hrule : rule ∈ book.rules) :
    ∃ doc entry, Reader.run RulebookEntry.reader text = .ok doc ∧
      (rule.list, entry) ∈ orderedRules doc ∧ entry.rule rule.list = .ok rule ∧
      (∀ verb name, (∃ t ∈ rule.templates, t.verb = verb ∧ 1 < t.names.count name) ↔
        SetsTwice entry.patches verb name) ∧
      ∀ t ∈ rule.templates, ∀ m,
        (∀ e, Template.fill m t = .error e → e.OfValue ∨
          ∃ name, e = .bind (.duplicateParam t.verb.name name) ∧
            SetsTwice entry.patches t.verb name) ∧
        ((∃ name, Template.fill m t = .error (.bind (.duplicateParam t.verb.name name))) ↔
          ∃ keyed, Template.arguments m t.args = .ok keyed ∧ ¬ (keyed.map Prod.fst).Nodup) := by
  obtain ⟨doc, entry, hdoc, hentry, hchecked, hdistinct⟩ := exists_of_ofText h hrule
  refine ⟨doc, entry, hdoc, hentry, hchecked,
    fun verb name => RuleEntry.exists_template_iff hchecked hdistinct, fun t ht m => ?_⟩
  have hknown := RuleEntry.isKnown_of_rule hchecked ht
  refine ⟨fun e he => ?_, Template.fill_duplicate_iff hknown⟩
  rcases Template.fill_eq_error hknown he with ⟨hvalue, -⟩ | ⟨keyed, name, hkeyed, hname, rfl⟩
  · exact .inl hvalue
  · have hcount := hname.trans_le ((Template.sublist_arguments hkeyed).count_le name)
    exact .inr ⟨name, rfl, RuleEntry.setsTwice_of_rule hchecked hdistinct ht hcount⟩

/-- Patches for rows and columns are collected in a template that is turned down for values only. -/
theorem fill_of_ofText_rows_cols :
    let text := "[1, \x7b\x7d, [[\"grid\", \"(\\\\d+)?\", [
      [\"set\", \"/buildAbs/rows\", \"$1:int\"],
      [\"set\", \"/buildAbs/cols\", 5]]]]]".toList
    ∃ book rule, ofText text = .ok book ∧ rule ∈ book.rules ∧ rule.templates.length = 1 ∧
      ∀ t ∈ rule.templates, ∀ m e, Template.fill m t = .error e → e.OfValue := by
  intro text
  have heval : ((ofText text).toOption.any fun book => book.rules.any fun rule =>
      rule.templates.length = 1 ∧ ∀ t ∈ rule.templates, t.names.Nodup) = true := by
    decide +kernel
  obtain ⟨book, hbook, hrules⟩ := (Option.any_eq_true _ _).mp heval
  obtain ⟨rule, hrule, htemplates⟩ := List.any_eq_true.mp hrules
  obtain ⟨hlength, hnodup⟩ := of_decide_eq_true htemplates
  have hbook := ok_of_toOption hbook
  obtain ⟨doc, entry, -, -, -, htwice, hfill⟩ := fill_of_ofText hbook hrule
  refine ⟨book, rule, hbook, hrule, hlength, fun t ht m e he => ?_⟩
  refine ((hfill t ht m).1 e he).resolve_right ?_
  rintro ⟨name, -, hsets⟩
  obtain ⟨u, hu, -, hcount⟩ := (htwice t.verb name).mpr hsets
  exact Nat.not_lt.mpr (List.nodup_iff_count_le_one.mp (hnodup u hu) name) hcount

/-- Two patches for rows are accepted, and the template that they are collected in is turned down
for giving rows twice. -/
theorem exists_fill_eq_error_twice :
    let text := "\x7b\"intents\": [\x7b\"name\": \"b\", \"regex\": \"build (\\\\d+)\", \"ops\": [
      \x7b\"op\": \"set\", \"path\": \"/buildAbs/rows\", \"value\": \"$1:int\"\x7d,
      \x7b\"op\": \"replace\", \"path\": \"/buildAbs/rows\", \"value\": 5\x7d]\x7d]\x7d".toList
    ∃ book rule t m, ofText text = .ok book ∧ rule ∈ book.rules ∧ t ∈ rule.templates ∧
      m ∈ rule.pattern.findAll "build 4".toList ∧
      Template.fill m t = .error (.bind (.duplicateParam "buildAbs" "rows")) := by
  intro text
  have heval : ((ofText text).toOption.any fun book => book.rules.any fun rule =>
      (rule.pattern.findAll "build 4".toList).any fun m => rule.templates.any fun t =>
        match Template.fill m t with
        | .error (.bind (.duplicateParam op name)) => op = "buildAbs" ∧ name = "rows"
        | _ => false) = true := by
    decide +kernel
  obtain ⟨book, hbook, hrules⟩ := (Option.any_eq_true _ _).mp heval
  obtain ⟨rule, hrule, hmatches⟩ := List.any_eq_true.mp hrules
  obtain ⟨m, hm, htemplates⟩ := List.any_eq_true.mp hmatches
  obtain ⟨t, ht, hfill⟩ := List.any_eq_true.mp htemplates
  refine ⟨book, rule, t, m, ok_of_toOption hbook, hrule, ht, hm, ?_⟩
  split at hfill
  · rename_i op name heq
    obtain ⟨rfl, rfl⟩ := of_decide_eq_true hfill
    exact heq
  · cases hfill

end Rulebook

end Raceway
