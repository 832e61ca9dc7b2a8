import Mathlib
import Raceway.Proofs.Pattern.Finding
import Raceway.Proofs.Request.RuleByRule
import Raceway.Proofs.Request.Spacing
import Raceway.Proofs.Text.Category
/-!
# Unknown words

A request is cut into tokens: runs of letters and underscores, numbers, and single signs. A run is
cut out as a whole, whatever stands around it, since no other token has a letter in it and a run
goes on as far as it can. So each word of the request is a token by itself, and it is reported
exactly if no match of a rule reaches into it and it is no unit.

## Main definitions

* `Raceway.IsRun`: a part of a text is a maximal run of letters and underscores.
* `Raceway.Rulebook.Covers`: a match of a rule reaches into a part of a request.
* `Raceway.Rulebook.reported`: the tokens that are reported.

## Main results

* `Raceway.Pattern.Walks.exists_run`: each run is a token.
* `Raceway.needsNoExplanation_word_iff`: of the words, only units need no explanation.
* `Raceway.reports_unknown_words`: what is reported of a request.
-/

namespace Raceway

open Pattern Cursor Text

variable {c : Char} {x y w z : List Char} {gs : List (ℕ × List Char)} {m : Match}

/-! ### Runs -/

/-- The character is a letter or an underscore. -/
def inRun (c : Char) : Bool :=
  isLetter c || c == '_'

/-- The part of a text, between what comes before and what comes behind, is a maximal run of letters
and underscores. -/
structure IsRun (x w z : List Char) : Prop where
  /-- It is not empty. -/
  ne_nil : w ≠ []
  /-- It consists of letters and underscores. -/
  letters : ∀ c ∈ w, inRun c = true
  /-- None of them comes before. -/
  before : ∀ c, x.getLast? = some c → inRun c = false
  /-- None of them comes behind. -/
  behind : ∀ c, z.head? = some c → inRun c = false

/-- A run goes from its start as far as there are letters and underscores. -/
theorem IsRun.takeWhile_eq (h : IsRun x w z) : (w ++ z).takeWhile inRun = w := by
  rw [List.takeWhile_append_of_pos h.letters]
  cases z with
  | nil => simp
  | cons d z => simp [h.behind d rfl]

/-- Letters and underscores are no numbers. -/
theorem isNumeric_of_inRun (h : inRun c = true) : isNumeric c = false := by
  rcases Bool.or_eq_true_iff.mp h with hletter | hline
  · exact isNumeric_of_isLetter hletter
  · rw [beq_iff_eq.mp hline]
    rfl

/-! ### Tokens -/

/-- The characters of runs. -/
def runClass : CharClass :=
  .union (.property (.category
    [.uppercaseLetter, .lowercaseLetter, .titlecaseLetter, .modifierLetter, .otherLetter]))
    (.single '_')

/-- The characters of numbers. -/
def numberClass : CharClass :=
  .property (.category [.decimalNumber, .letterNumber, .otherNumber])

/-- A run of letters and underscores. -/
def runToken : Pattern :=
  plus true (one runClass)

/-- A number, which may have a fraction. -/
def numberToken : Pattern :=
  .seq (plus true (one numberClass)) (opt true (.seq (char '.') (plus true (one numberClass))))

/-- A token is a run, a number or a sign. -/
theorem tokenPattern_eq :
    tokenPattern = .alt runToken (.alt numberToken (one (.compl (.property .blank)))) :=
  rfl

theorem has_runClass (c : Char) : runClass.has c = inRun c := by
  have hletter (cat : Category) : [Category.uppercaseLetter, .lowercaseLetter, .titlecaseLetter,
      .modifierLetter, .otherLetter].contains cat = cat.isLetter := by
    cases cat <;> rfl
  rw [inRun, isLetter_eq, ← hletter]
  rfl

theorem has_numberClass (c : Char) : numberClass.has c = isNumeric c := by
  have hnumber (cat : Category) :
      [Category.decimalNumber, .letterNumber, .otherNumber].contains cat = cat.isNumber := by
    cases cat <;> rfl
  rw [isNumeric_eq, ← hnumber]
  rfl

theorem mentions_runToken (c : Char) : runToken.mentions c = inRun c := by
  rw [← has_runClass]
  exact Bool.or_self _

theorem mentions_numberToken (c : Char) : numberToken.mentions c = (isNumeric c || c == '.') := by
  have hparts : numberToken.mentions c =
      (numberClass.has c || numberClass.has c ||
        (c == '.' || (numberClass.has c || numberClass.has c) || false)) := rfl
  rw [hparts, has_numberClass]
  cases isNumeric c <;> simp

/-- What is read as a token consists of letters and underscores, or of numbers and points, or is a
single sign. -/
theorem reads_tokenPattern (h : tokenPattern.Reads x w z gs) :
    (∀ c ∈ w, inRun c = true) ∨ (∀ c ∈ w, (isNumeric c || c == '.') = true) ∨ ∃ c, w = [c] := by
  rw [tokenPattern_eq] at h
  cases h with
  | altLeft hrun =>
    refine .inl fun c hc => ?_
    rw [← mentions_runToken]
    exact hrun.mentions c hc
  | altRight h =>
    cases h with
    | altLeft hnumber =>
      refine .inr (.inl fun c hc => ?_)
      rw [← mentions_numberToken]
      exact hnumber.mentions c hc
    | altRight hsign =>
      cases hsign with
      | one _ => exact .inr (.inr ⟨_, rfl⟩)

/-- A letter or an underscore starts a run that is read. -/
theorem finds_runToken (hc : inRun c = true) (x y : List Char) : runToken.Finds x [c] y :=
  ⟨_, .seq (v := []) (.one ((has_runClass c).trans hc)) .loopStop⟩

/-- Where a letter or an underscore comes next, the token is a run, as far as it goes on. -/
theorem isRun_of_matchAt? (hc : inRun c = true)
    (h : tokenPattern.matchAt? (place x (c :: y)) = some m) :
    ∃ z, c :: y = m.text ++ z ∧ IsRun [] m.text z := by
  have hmatch : runToken.matchAt? (place x (c :: y)) = some m := by
    cases hrun : runToken.matchAt? (place x (c :: y)) with
    | none => exact absurd (finds_runToken hc x y) (not_finds_of_matchAt? hrun)
    | some n =>
      rw [tokenPattern_eq, matchAt?, matchThen, Option.orElse_eq_or, ← matchAt?, hrun,
        Option.some_or] at h
      exact h
  obtain ⟨z, hz, hread⟩ := exists_reads_of_matchAt? hmatch
  refine ⟨z, hz, hread.ne_nil rfl, fun d hd => ?_, by rintro _ ⟨⟩, fun d hd => ?_⟩
  · rw [← mentions_runToken]
    exact hread.mentions d hd
  · rw [← has_runClass]
    exact not_has_of_matchAt?_plus (hz ▸ hmatch) hd

/-- At the start of a run the token is that run. -/
theorem IsRun.text_of_matchAt? (hrun : IsRun x w z)
    (h : tokenPattern.matchAt? (place x (w ++ z)) = some m) : m.text = w := by
  obtain ⟨c, v, rfl⟩ := List.exists_cons_of_ne_nil hrun.ne_nil
  obtain ⟨z', hz, htoken⟩ := isRun_of_matchAt? (hrun.letters c List.mem_cons_self) h
  calc m.text = (m.text ++ z').takeWhile inRun := htoken.takeWhile_eq.symm
    _ = (c :: v ++ z).takeWhile inRun := by rw [← hz]; rfl
    _ = c :: v := hrun.takeWhile_eq

/-- No token that starts in front of a run reaches into it. -/
theorem IsRun.not_reads {u v : List Char} (hrun : IsRun (x ++ u) w z) (hu : u ≠ [])
    (hhead : v.head? = w.head?) : ¬ tokenPattern.Reads x (u ++ v) y gs := by
  obtain ⟨d, w, rfl⟩ := List.exists_cons_of_ne_nil hrun.ne_nil
  obtain ⟨v, rfl⟩ := List.head?_eq_some_iff.mp hhead
  have hd : inRun d = true := hrun.letters d List.mem_cons_self
  intro hread
  rcases reads_tokenPattern hread with hletters | hnumbers | ⟨c, hsingle⟩
  · -- The character in front of the run would belong to it.
    obtain ⟨u, c, rfl⟩ := (List.eq_nil_or_concat u).resolve_left hu
    have hc := hrun.before c (by simp)
    rw [hletters c (by simp)] at hc
    cases hc
  · have hnumber := hnumbers d (by simp)
    rw [isNumeric_of_inRun hd, Bool.false_or, beq_iff_eq] at hnumber
    subst hnumber
    cases hd
  · have hlength := congrArg List.length hsingle
    have hpos := List.length_pos_iff.mpr hu
    simp only [List.length_append, List.length_cons, List.length_nil] at hlength
    omega

/-- So a token that starts in front of a run ends there. -/
theorem IsRun.exists_append_of_reads {t u : List Char} (hrun : IsRun (x ++ u) w z) (hu : u ≠ [])
    (hread : tokenPattern.Reads x t y gs) (hy : t ++ y = u ++ (w ++ z)) :
    ∃ v, u = t ++ v ∧ y = v ++ (w ++ z) := by
  rcases List.append_eq_append_iff.mp hy with hbefore | ⟨v, rfl, hv⟩
  · exact hbefore
  · rcases eq_or_ne v [] with rfl | hne
    · exact ⟨[], by rw [List.append_nil, List.append_nil], hv.symm⟩
    · have hhead : v.head? = w.head? := by
        rw [← List.head?_append_of_ne_nil v hne, ← hv, List.head?_append_of_ne_nil w hrun.ne_nil]
      exact absurd hread (hrun.not_reads hu hhead)

/-- Each run is a token. -/
theorem Pattern.Walks.exists_run {ps : List Piece} (h : tokenPattern.Walks x y ps) {u : List Char}
    (hy : y = u ++ (w ++ z)) (hrun : IsRun (x ++ u) w z) :
    ∃ m ∈ ps.filterMap Piece.match?, m.start = (x ++ u).length ∧ m.text = w := by
  induction h generalizing u with
  | nil =>
    obtain ⟨-, hwz⟩ := List.append_eq_nil_iff.mp hy.symm
    exact absurd (List.append_eq_nil_iff.mp hwz).1 hrun.ne_nil
  | @plain x y c ps hnone _ ih =>
    cases u with
    | nil =>
      -- The run would start with a character that belongs to no token.
      obtain ⟨d, v, rfl⟩ := List.exists_cons_of_ne_nil hrun.ne_nil
      obtain ⟨rfl, -⟩ := List.cons.inj hy
      obtain ⟨gs, hread⟩ := finds_runToken (hrun.letters c List.mem_cons_self) x y
      exact absurd ⟨gs, .altLeft hread⟩ (not_finds_of_matchAt? (w := [c]) hnone)
    | cons d u =>
      obtain ⟨rfl, hrest⟩ := List.cons.inj hy
      rw [List.append_cons] at hrun ⊢
      exact ih hrest hrun
  | @found x y n ps hmatch hread _ ih =>
    rcases eq_or_ne u [] with rfl | hu
    · rw [hy, List.nil_append] at hmatch
      rw [List.append_nil] at hrun ⊢
      exact ⟨n, List.mem_cons_self, start_of_matchAt? hmatch, hrun.text_of_matchAt? hmatch⟩
    · obtain ⟨v, rfl, hrest⟩ := hrun.exists_append_of_reads hu hread hy
      rw [← List.append_assoc] at hrun ⊢
      obtain ⟨m, hm, hplace⟩ := ih hrest hrun
      exact ⟨m, List.mem_cons_of_mem _ hm, hplace⟩

/-! ### What needs no explanation -/

/-- A token needs no explanation if it is a sign, a number, or a unit in any ASCII letter case. -/
theorem needsNoExplanation_iff : needsNoExplanation w = true ↔
    (∃ c, w = [c] ∧ isAlphanumeric c = false) ∨ (∀ c ∈ w, (isNumeric c || c == '.') = true) ∨
      ∃ unit ∈ unitWords, w.map Char.toLower = unit.toList := by
  unfold needsNoExplanation
  rw [Bool.or_eq_true, Bool.or_eq_true, or_assoc, List.all_eq_true, List.any_eq_true]
  refine or_congr ?_ (or_congr Iff.rfl ?_)
  · split <;> simp_all
  · simp only [Decimal.isWord, beq_iff_eq]

/-- Of the words, only the units need no explanation. -/
theorem needsNoExplanation_word_iff (hletter : ∃ c ∈ w, isLetter c = true) :
    needsNoExplanation w = true ↔ ∃ unit ∈ unitWords, w.map Char.toLower = unit.toList := by
  obtain ⟨c, hc, hletter⟩ := hletter
  rw [needsNoExplanation_iff]
  refine ⟨fun h => ?_, fun hunit => .inr (.inr hunit)⟩
  rcases h with ⟨d, rfl, hsign⟩ | hnumber | hunit
  · rw [List.mem_singleton.mp hc] at hletter
    rw [isAlphanumeric, isAlphabetic_of_isLetter hletter] at hsign
    cases hsign
  · have hpoint := hnumber c hc
    rw [isNumeric_of_isLetter hletter, Bool.false_or, beq_iff_eq] at hpoint
    subst hpoint
    cases hletter
  · exact hunit

/-- A token that needs an explanation has no number in it. -/
theorem isNumeric_of_needsNoExplanation (hread : tokenPattern.Reads x w z gs)
    (h : needsNoExplanation w = false) : ∀ c ∈ w, isNumeric c = false := by
  rw [Bool.eq_false_iff, Ne, needsNoExplanation_iff, not_or, not_or] at h
  obtain ⟨-, hnumber, -⟩ := h
  rcases reads_tokenPattern hread with hletters | hnumbers | ⟨d, rfl⟩
  · exact fun c hc => isNumeric_of_inRun (hletters c hc)
  · exact absurd hnumbers hnumber
  · intro c hc
    rw [List.mem_singleton.mp hc]
    by_contra hd
    exact hnumber (by simp [hd])

/-! ### What is reported -/

namespace Rulebook

variable {book : Rulebook} {request : List Char}

/-- A match of a rule that is not empty reaches into the part of the request from one number of
characters to another. It does not matter whether the rule gives operations. -/
def Covers (book : Rulebook) (request : List Char) (start stop : ℕ) : Prop :=
  ∃ rule ∈ book.rules, ∃ m ∈ book.found request rule,
    m.text ≠ [] ∧ m.start < stop ∧ start < m.stop

/-- The matches of the rules that are not empty. -/
def covering (book : Rulebook) (request : List Char) : List Match :=
  (book.rules.flatMap (book.found request)).filter fun m => !m.text.isEmpty

theorem any_overlaps_covering {t : Match} :
    (book.covering request).any t.overlaps = true ↔ book.Covers request t.start t.stop := by
  simp only [covering, Covers, Match.overlaps, List.any_eq_true, List.mem_filter,
    List.mem_flatMap, Bool.and_eq_true, decide_eq_true_eq, Bool.not_eq_true',
    List.isEmpty_eq_false_iff]
  constructor
  · rintro ⟨m, ⟨⟨rule, hrule, hm⟩, hne⟩, hstop, hstart⟩
    exact ⟨rule, hrule, m, hm, hne, hstart, hstop⟩
  · rintro ⟨rule, hrule, m, hm, hne, hstart, hstop⟩
    exact ⟨m, ⟨⟨rule, hrule, hm⟩, hne⟩, hstop, hstart⟩

/-- The tokens of a request that are reported. -/
def reported (book : Rulebook) (request : List Char) : List Match :=
  (tokenPattern.findAll (book.replaceSynonyms request)).filter fun t =>
    !needsNoExplanation t.text && !(book.covering request).any t.overlaps

theorem mem_reported {t : Match} : t ∈ book.reported request ↔
    t ∈ tokenPattern.findAll (book.replaceSynonyms request) ∧
      needsNoExplanation t.text = false ∧ ¬ book.Covers request t.start t.stop := by
  rw [reported, List.mem_filter, Bool.and_eq_true, Bool.not_eq_true', Bool.not_eq_true',
    ← any_overlaps_covering, Bool.not_eq_true]

theorem unknown_understand (book : Rulebook) (request : List Char) :
    (understand book request).unknown = (book.reported request).map Match.text := by
  have hcovering : ((book.rules.map fun rule => (rule, book.found request rule)).flatMap
      Prod.snd).filter (fun m => !m.text.isEmpty) = book.covering request := by
    rw [covering, List.flatMap_map]
  have huncovered : (understand book request).unknown =
      uncovered (book.replaceSynonyms request) (book.covering request) := by
    rw [← hcovering]
    rfl
  rw [huncovered, uncovered, reported, List.filter_map, List.filter_filter]
  rfl

/-- A run is reported as a whole, unless it is covered or needs no explanation. -/
theorem mem_reported_of_isRun (htext : book.replaceSynonyms request = x ++ (w ++ z))
    (hrun : IsRun x w z) :
    (∃ t ∈ book.reported request, t.start = x.length ∧ t.text = w) ↔
      needsNoExplanation w = false ∧ ¬ book.Covers request x.length (x.length + w.length) := by
  constructor
  · rintro ⟨t, ht, hstart, rfl⟩
    rw [← hstart]
    exact (mem_reported.mp ht).2
  · intro h
    obtain ⟨t, ht, hstart, rfl⟩ := (walks_pieces rfl _).exists_run htext hrun
    rw [List.nil_append] at hstart
    rw [← hstart] at h
    exact ⟨t, mem_reported.mpr ⟨ht, h⟩, hstart, rfl⟩

/-- Nothing of a run that is covered is reported. -/
theorem apart_of_covers (htext : book.replaceSynonyms request = x ++ (w ++ z))
    (hrun : IsRun x w z) (hcovers : book.Covers request x.length (x.length + w.length)) {t : Match}
    (ht : t ∈ book.reported request) : t.stop ≤ x.length ∨ x.length + w.length ≤ t.start := by
  obtain ⟨ht, -, hfree⟩ := mem_reported.mp ht
  obtain ⟨n, hn, hstart, rfl⟩ := (walks_pieces rfl _).exists_run htext hrun
  rw [List.nil_append] at hstart
  rw [← hstart] at hcovers ⊢
  refine apart_of_mem_findAll rfl ht hn ?_
  rintro rfl
  exact hfree hcovers

end Rulebook

/-- What is noticed about words are the unknown ones. -/
theorem filter_findings_words (u : Understanding) :
    u.findings.filter (·.topic = .words) = u.unknown.map .unknownWord := by
  rw [Understanding.findings, List.filter_append, filter_map_topic (t := .rules) fun _ => rfl,
    filter_map_topic (t := .words) fun _ => rfl, if_neg (by decide), if_pos rfl, List.nil_append]

/-- The warnings about words are the reported tokens, one for each of them, in the order in which
they stand in the request, and apart from each other. A word is reported if it is no unit and no
match reaches into it. Of a word into which a match reaches, and of numbers, nothing is reported. -/
theorem reports_unknown_words (book : Rulebook) (request : List Char) :
    (understand book request).findings.filter (·.topic = .words) =
        (book.reported request).map (fun t => .unknownWord t.text) ∧
      (∀ finding ∈ (understand book request).findings,
        finding.topic = .words → finding.weight = .warning) ∧
      (book.reported request).Pairwise (fun s t => s.stop ≤ t.start) ∧
      (∀ t ∈ book.reported request,
        (∃ x z, book.replaceSynonyms request = x ++ (t.text ++ z) ∧ t.start = x.length) ∧
          t.text ≠ [] ∧ ¬ book.Covers request t.start t.stop ∧
          ∀ c ∈ t.text, isNumeric c = false) ∧
      ∀ x w z, book.replaceSynonyms request = x ++ (w ++ z) → IsRun x w z →
        ((∃ c ∈ w, isLetter c = true) →
          ((∃ t ∈ book.reported request, t.start = x.length ∧ t.text = w) ↔
            (∀ unit ∈ unitWords, w.map Char.toLower ≠ unit.toList) ∧
              ¬ book.Covers request x.length (x.length + w.length))) ∧
        (book.Covers request x.length (x.length + w.length) →
          ∀ t ∈ book.reported request, t.stop ≤ x.length ∨ x.length + w.length ≤ t.start) := by
  refine ⟨?_, fun finding _ htopic => ?_, ?_, fun t ht => ?_, fun x w z htext hrun =>
    ⟨fun hletter => ?_, fun hcovers t => Rulebook.apart_of_covers htext hrun hcovers⟩⟩
  · rw [filter_findings_words, Rulebook.unknown_understand, List.map_map]
    rfl
  · cases finding with
    | unknownWord word => rfl
    | _ => cases htopic
  · exact (pairwise_findAll rfl _).filter _
  · obtain ⟨ht, hneeds, hfree⟩ := Rulebook.mem_reported.mp ht
    obtain ⟨x, z, htext, hstart, hread⟩ := exists_reads_of_mem_findAll rfl ht
    exact ⟨⟨x, z, htext, hstart⟩, hread.ne_nil rfl, hfree,
      isNumeric_of_needsNoExplanation hread hneeds⟩
  · rw [Rulebook.mem_reported_of_isRun htext hrun, ← Bool.not_eq_true,
      needsNoExplanation_word_iff hletter]
    simp only [not_exists, not_and, ne_eq]

/-- Of a request for three rows that goes on with a hop, the hop is reported, and nothing of the
word that the rule for rows reaches into. -/
theorem reports_unknown_words_hop :
    let doc : RulebookEntry := { commands := [⟨"rows", "rows \\d+", [], [⟨"fillAll", []⟩]⟩] }
    let request := "rows 3 hop".toList
    ∃ book, Rulebook.ofDoc doc = .ok book ∧
      (∃ t ∈ book.reported request, t.start = 7 ∧ t.text = "hop".toList) ∧
      ∀ t ∈ book.reported request, 4 ≤ t.start := by
  intro doc request
  have heval : ((Rulebook.ofDoc doc).toOption.any fun book =>
      book.replaceSynonyms request = request ∧
        (book.rules.flatMap (book.found request)).map (fun m => (m.start, m.text)) =
          [(0, "rows 3".toList)]) = true := by
    decide +kernel
  obtain ⟨book, hdoc, hbook⟩ := (Option.any_eq_true _ _).mp heval
  obtain ⟨hrequest, hfound⟩ := of_decide_eq_true hbook
  obtain ⟨m, hm, hplace⟩ := List.map_eq_singleton_iff.mp hfound
  obtain ⟨hstart, htext⟩ := Prod.mk.inj hplace
  have hstop : m.stop = 6 := by
    rw [Match.stop, hstart, htext]
    rfl
  have hmem (n : Match) : (∃ rule ∈ book.rules, n ∈ book.found request rule) ↔ n = m := by
    rw [← List.mem_flatMap, hm, List.mem_singleton]
  have hcovers (start stop : ℕ) : book.Covers request start stop ↔ 0 < stop ∧ start < 6 := by
    constructor
    · rintro ⟨rule, hrule, n, hn, -, hbefore, hbehind⟩
      obtain rfl := (hmem n).mp ⟨rule, hrule, hn⟩
      exact ⟨hstart ▸ hbefore, hstop ▸ hbehind⟩
    · rintro ⟨hbefore, hbehind⟩
      obtain ⟨rule, hrule, hm⟩ := (hmem m).mpr rfl
      exact ⟨rule, hrule, m, hm, by rw [htext]; decide, hstart ▸ hbefore, hstop ▸ hbehind⟩
  have hrows : IsRun [] ['r', 'o', 'w', 's'] [' ', '3', ' ', 'h', 'o', 'p'] :=
    ⟨by decide, List.all_eq_true.mp rfl, by rintro _ ⟨⟩, by rintro _ ⟨⟩; decide⟩
  have hhop : IsRun ['r', 'o', 'w', 's', ' ', '3', ' '] ['h', 'o', 'p'] [] :=
    ⟨by decide, List.all_eq_true.mp rfl, by rintro _ ⟨⟩; decide, by rintro _ ⟨⟩⟩
  obtain ⟨-, -, -, hparts, hruns⟩ := reports_unknown_words book request
  obtain ⟨hreported, -⟩ := hruns _ _ _ (hrequest.trans (by decide)) hhop
  obtain ⟨-, hapart⟩ := hruns _ _ _ (hrequest.trans (by decide)) hrows
  refine ⟨book, ok_of_toOption hdoc, ?_, fun t ht => ?_⟩
  · refine (hreported ⟨'h', by decide, by decide⟩).mpr ⟨by decide, ?_⟩
    rw [hcovers]
    decide
  · obtain ⟨-, hne, -⟩ := hparts t ht
    have hpos : 0 < t.text.length := List.length_pos_iff.mpr hne
    rcases hapart ((hcovers _ _).mpr (by decide)) t ht with hbefore | hbehind
    · exact absurd hbefore (Nat.not_le.mpr (Nat.add_pos_right t.start hpos))
    · exact hbehind

end Raceway
