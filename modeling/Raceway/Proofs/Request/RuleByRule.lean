import Mathlib
import Raceway.Proofs.Results
import Raceway.Request.Document
import Raceway.Session.Finding
/-!
# Requests are understood rule by rule

A rule adds the operations of all of its templates for all of its matches, or none of them and one
warning: about the first template that is not filled in, for the first match for which there is one.
What it adds depends on the rule and the text alone. So the operations of a request are those of one
rule after another, and leaving out a rule that fails makes no difference to them.

Every rulebook is checked from a document, whether the document is read from a text or comes with
the program, and has its rules in the order of the document.

## Main definitions

* `Raceway.Rule.Adds`: the two ways in which a rule adds to what a request asks for.
* `Raceway.Rule.block` and `Raceway.Rule.failures`: what it adds.
* `Raceway.Rulebook.InOrderOf`: the rules of a rulebook stand as in a document.

## Main results

* `Raceway.Rule.adds_block`: all of the operations, or one failure.
* `Raceway.understand_rule_by_rule`: what a request asks for, rule by rule.
-/

namespace Raceway

variable {book : Rulebook}

/-! ### What a rule adds -/

namespace Rule

variable {rule : Rule} {m : Match} {found : List Match}

/-- The rule gives the operations for the match, one for each template. -/
def Gives (rule : Rule) (m : Match) (ops : List (Op Float)) : Prop :=
  List.Forall₂ (fun t op => Template.fill m t = .ok op) rule.templates ops

/-- The operations and the failures that a rule adds for its matches. -/
inductive Adds (rule : Rule) : List Match → List (Op Float) → List RuleFailure → Prop
  /-- All templates are filled in for all matches, and give their operations match by match. -/
  | all {found : List Match} {blocks : List (List (Op Float))}
      (hgives : List.Forall₂ rule.Gives found blocks) : Adds rule found blocks.flatten []
  /-- A template is not filled in for a match. It is the first one, for the first such match. -/
  | none {before after : List Match} {m : Match} {filled rest : List Template} {t : Template}
      {e : FillError} (hbefore : ∀ n ∈ before, ∃ ops, rule.Gives n ops)
      (htemplates : rule.templates = filled ++ t :: rest)
      (hfilled : ∀ u ∈ filled, ∃ op, Template.fill m u = .ok op)
      (hfail : Template.fill m t = .error e) :
      Adds rule (before ++ m :: after) [] [⟨rule.name, String.ofList m.text, e⟩]

/-- The operations that a rule adds. -/
def block (rule : Rule) (found : List Match) : List (Op Float) :=
  (rule.ops found).toOption.getD []

/-- The failures that a rule adds, of which there is at most one. -/
def failures (rule : Rule) (found : List Match) : List RuleFailure :=
  (failure? (rule.ops found)).toList

theorem gives_of_matchOps {ops : List (Op Float)} (h : rule.matchOps m = .ok ops) :
    rule.Gives m ops := by
  rw [matchOps] at h
  split at h
  · rename_i ops' hops
    obtain rfl := Except.ok.inj h
    exact mapM_eq_ok_iff.mp hops
  · cases h

theorem exists_of_matchOps_eq_error {e : RuleFailure} (h : rule.matchOps m = .error e) :
    ∃ filled t rest reason, rule.templates = filled ++ t :: rest ∧
      (∀ u ∈ filled, ∃ op, Template.fill m u = .ok op) ∧ Template.fill m t = .error reason ∧
      e = ⟨rule.name, String.ofList m.text, reason⟩ := by
  rw [matchOps] at h
  split at h
  · cases h
  · rename_i reason hreason
    obtain ⟨filled, t, rest, htemplates, hfilled, hfail⟩ := exists_of_mapM_eq_error hreason
    exact ⟨filled, t, rest, reason, htemplates, hfilled, hfail, (Except.error.inj h).symm⟩

/-- A rule adds all of its operations, or one failure. -/
theorem adds_block (rule : Rule) (found : List Match) :
    rule.Adds found (rule.block found) (rule.failures found) := by
  rw [block, failures, ops]
  cases h : found.mapM rule.matchOps with
  | ok blocks => exact .all ((mapM_eq_ok_iff.mp h).imp fun _ _ => gives_of_matchOps)
  | error e =>
    obtain ⟨before, m, after, rfl, hbefore, hm⟩ := exists_of_mapM_eq_error h
    obtain ⟨filled, t, rest, reason, htemplates, hfilled, hfail, rfl⟩ :=
      exists_of_matchOps_eq_error hm
    refine .none (fun n hn => ?_) htemplates hfilled hfail
    obtain ⟨ops, hops⟩ := hbefore n hn
    exact ⟨ops, gives_of_matchOps hops⟩

/-- A rule adds no operations if one of its templates is not filled in for one of its matches. -/
theorem block_eq_nil {t : Template} {e : FillError} (hm : m ∈ found) (ht : t ∈ rule.templates)
    (hfail : Template.fill m t = .error e) : rule.block found = [] := by
  rw [block, ops]
  cases h : found.mapM rule.matchOps with
  | error _ => rfl
  | ok blocks =>
    obtain ⟨ops, hops⟩ := exists_of_mapM_eq_ok h hm
    obtain ⟨op, hop⟩ := exists_of_mapM_eq_ok (mapM_eq_ok_iff.mpr (gives_of_matchOps hops)) ht
    rw [hfail] at hop
    cases hop

end Rule

/-! ### What a rulebook adds -/

/-- The matches of a rule in a request whose synonyms are replaced. -/
def Rulebook.found (book : Rulebook) (request : List Char) (rule : Rule) : List Match :=
  rule.pattern.findAll (book.replaceSynonyms request)

/-- The operations of a request are those of one rule after another. -/
theorem ops_understand (book : Rulebook) (request : List Char) :
    (understand book request).ops =
      book.rules.flatMap fun rule => rule.block (book.found request rule) := by
  rw [understand]
  simp only [flatten_filterMap_toOption, List.map_map, List.flatMap_map]
  rfl

/-- So are the failures. -/
theorem failures_understand (book : Rulebook) (request : List Char) :
    (understand book request).failures =
      book.rules.flatMap fun rule => rule.failures (book.found request rule) := by
  rw [understand]
  simp only [List.filterMap_eq_flatMap_toList, List.map_map, List.flatMap_map]
  rfl

/-- Of findings about one topic, all or none are about a given one. -/
theorem filter_map_topic {α : Type} {f : α → Finding} {t : Topic} (hf : ∀ a, (f a).topic = t)
    (l : List α) (topic : Topic) :
    (l.map f).filter (·.topic = topic) = if t = topic then l.map f else [] := by
  simp only [List.filter_map, Function.comp_def, hf]
  split_ifs with h <;> simp [h]

/-- What is noticed about rules are the failures. -/
theorem filter_findings (u : Understanding) :
    u.findings.filter (·.topic = .rules) = u.failures.map .ruleFailure := by
  rw [Understanding.findings, List.filter_append, filter_map_topic (t := .rules) fun _ => rfl,
    filter_map_topic (t := .words) fun _ => rfl, if_pos rfl, if_neg (by decide), List.append_nil]

/-- The rules before a place and those from there on add one after another. -/
theorem ops_understand_append (book : Rulebook) (before after : List Rule) (request : List Char) :
    (understand { book with rules := before ++ after } request).ops =
      (understand { book with rules := before } request).ops ++
        (understand { book with rules := after } request).ops := by
  simp only [ops_understand, List.flatMap_append]
  rfl

/-! ### The order of the rules -/

namespace Rulebook

/-- The rules of a rulebook are those of a document, list by list, each list in its order. -/
def InOrderOf (book : Rulebook) (doc : RulebookEntry) : Prop :=
  List.Forall₂ (fun entry rule => entry.2.rule entry.1 = .ok rule)
    (doc.intents.map (RuleList.intents, ·) ++ doc.commands.map (RuleList.commands, ·) ++
      doc.composites.map (RuleList.composites, ·))
    book.rules

theorem forall₂_of_checkRules {taken : List String} {entries : List (RuleList × RuleEntry)}
    {rules : List Rule} (h : checkRules taken entries = .ok rules) :
    List.Forall₂ (fun entry rule => entry.2.rule entry.1 = .ok rule) entries rules := by
  induction entries generalizing taken rules with
  | nil =>
    obtain rfl := Except.ok.inj h
    exact .nil
  | cons entry entries ih =>
    obtain ⟨list, d⟩ := entry
    rw [checkRules] at h
    split at h
    · cases h
    · split at h
      · cases h
      · rename_i rule hrule
        obtain ⟨rules', hrules, rfl⟩ := map_eq_ok h
        exact .cons hrule (ih hrules)

/-- A rulebook has its rules in the order of the document that it is checked from. -/
theorem inOrderOf_of_ofDoc {doc : RulebookEntry} (h : ofDoc doc = .ok book) :
    book.InOrderOf doc := by
  rw [ofDoc] at h
  split at h
  · cases h
  obtain ⟨_, _, h⟩ := bind_eq_ok h
  obtain ⟨rules, hrules, h⟩ := bind_eq_ok h
  obtain rfl := Except.ok.inj h
  exact forall₂_of_checkRules hrules

end Rulebook

/-! ### Rule by rule -/

/-- A request asks for the operations of one rule after another, in the order of the document. A
rule adds all of its operations, or none of them and one warning. The rules before it and those
behind it add what they add on their own, and without a rule that fails the operations are the
same. -/
theorem understand_rule_by_rule {doc : RulebookEntry} (hbook : Rulebook.ofDoc doc = .ok book)
    (request : List Char) :
    book.InOrderOf doc ∧
      (∀ rule ∈ book.rules, rule.Adds (book.found request rule)
        (rule.block (book.found request rule)) (rule.failures (book.found request rule))) ∧
      (understand book request).ops =
        book.rules.flatMap (fun rule => rule.block (book.found request rule)) ∧
      (understand book request).findings.filter (·.topic = .rules) =
        (book.rules.flatMap fun rule => rule.failures (book.found request rule)).map
          .ruleFailure ∧
      (∀ finding ∈ (understand book request).findings,
        finding.topic = .rules → finding.weight = .warning) ∧
      ∀ before rule after, book.rules = before ++ rule :: after →
        (understand book request).ops =
          (understand { book with rules := before } request).ops ++
            rule.block (book.found request rule) ++
            (understand { book with rules := after } request).ops ∧
        ((∃ m ∈ book.found request rule, ∃ t ∈ rule.templates, ∃ e,
            Template.fill m t = .error e) →
          (understand { book with rules := before ++ after } request).ops =
            (understand book request).ops) := by
  refine ⟨Rulebook.inOrderOf_of_ofDoc hbook, fun rule _ => rule.adds_block _,
    ops_understand book request, ?_, fun finding _ htopic => ?_, fun before rule after hrules => ?_⟩
  · rw [filter_findings, failures_understand]
  · cases finding with
    | ruleFailure e => rfl
    | _ => cases htopic
  · have hops : (understand book request).ops =
        (understand { book with rules := before } request).ops ++
          rule.block (book.found request rule) ++
          (understand { book with rules := after } request).ops := by
      simp only [ops_understand, hrules, List.flatMap_append, List.flatMap_cons,
        List.append_assoc]
      rfl
    refine ⟨hops, fun ⟨m, hm, t, ht, e, hfail⟩ => ?_⟩
    rw [ops_understand_append, hops, Rule.block_eq_nil hm ht hfail, List.append_nil]

/-- What follows the second word for rows is no number, so only the holes are left. They are left
without the rule for rows, too. -/
theorem understand_rule_by_rule_rows :
    let doc : RulebookEntry :=
      { commands := [⟨"rows", "rows (\\w+)", [], [⟨"deleteRows", [("a", .str "$1:int")]⟩]⟩,
          ⟨"holes", "holes (\\d+)", [], [⟨"randomHoles", [("pct", .str "$1:float")]⟩]⟩] }
    let request := "rows 4 rows x holes 5".toList
    ∃ book rule after, Rulebook.ofDoc doc = .ok book ∧ book.rules = rule :: after ∧
      (book.rules.flatMap fun rule => rule.failures (book.found request rule)).map
        (fun e => (e.rule, e.matched)) = [("rows", "rows x")] ∧
      (understand book request).ops = [.randomHoles 5] ∧
      (understand { book with rules := after } request).ops = [.randomHoles 5] := by
  intro doc request
  have heval : ((Rulebook.ofDoc doc).toOption.any fun book =>
      (book.rules.flatMap fun rule => rule.failures (book.found request rule)).map
        (fun e => (e.rule, e.matched)) = [("rows", "rows x")] ∧
      (understand book request).ops = [.randomHoles 5] ∧
      book.rules.head?.any fun rule => (book.found request rule).any fun m =>
        rule.templates.any fun t => (failure? (Template.fill m t)).isSome) = true := by
    decide +kernel
  obtain ⟨book, hdoc, hbook⟩ := (Option.any_eq_true _ _).mp heval
  obtain ⟨hfailures, hops, hfirst⟩ := of_decide_eq_true hbook
  obtain ⟨rule, hrule, hfirst⟩ := (Option.any_eq_true _ _).mp hfirst
  obtain ⟨m, hm, hfirst⟩ := List.any_eq_true.mp hfirst
  obtain ⟨t, ht, hfail⟩ := List.any_eq_true.mp hfirst
  obtain ⟨after, hrules⟩ := List.head?_eq_some_iff.mp hrule
  have hbook := ok_of_toOption hdoc
  obtain ⟨-, -, -, -, -, hparts⟩ := understand_rule_by_rule hbook request
  obtain ⟨-, hwithout⟩ := hparts [] rule after hrules
  refine ⟨book, rule, after, hbook, hrules, hfailures, hops, ?_⟩
  refine (hwithout ⟨m, hm, t, ht, ?_⟩).trans hops
  cases h : Template.fill m t with
  | error e => exact ⟨e, rfl⟩
  | ok op => simp [h, failure?] at hfail

end Raceway
