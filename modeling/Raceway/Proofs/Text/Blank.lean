import Raceway.Text.Blank
/-!
# Texts that need no trimming, and texts made of lines

A text without blanks is what trimming leaves of it, and so is a text that is trimmed already. A
text that is put together from lines, each of them ended by a line feed, has those lines again. In a
text without carriage returns, each line stands between two line feeds or ends of the text.

## Main definitions

* `Raceway.Text.InFeeds`: a text that line feeds alone cut into lines.

## Main results

* `Raceway.Text.trim_of_not_blank`, `Raceway.Text.trim_trim`: nothing is trimmed.
* `Raceway.Text.exists_append_trim`: only blanks are trimmed.
* `Raceway.Text.lines_flatMap`: the lines of a text made of lines.
* `Raceway.Text.exists_append_of_mem_lines`: where a line stands in a text.
-/

namespace Raceway.Text

/-! ### Trimming -/

theorem dropWhile_of_forall_not {p : Char → Bool} {s : List Char} (h : ∀ c ∈ s, p c = false) :
    s.dropWhile p = s := by
  cases s with
  | nil => rfl
  | cons c rest => exact List.dropWhile_cons_of_neg (by simp [h c List.mem_cons_self])

theorem trimEnd_of_not_blank {s : List Char} (h : ∀ c ∈ s, isBlank c = false) : trimEnd s = s := by
  rw [trimEnd, dropWhile_of_forall_not fun c hc => h c (List.mem_reverse.mp hc),
    List.reverse_reverse]

/-- A text without blanks has nothing to trim. -/
theorem trim_of_not_blank {s : List Char} (h : ∀ c ∈ s, isBlank c = false) : trim s = s := by
  rw [trim, trimStart, dropWhile_of_forall_not h, trimEnd_of_not_blank h]

/-- Blanks are trimmed in front, and nothing else. -/
theorem exists_append_trimStart (s : List Char) :
    ∃ u, s = u ++ trimStart s ∧ ∀ c ∈ u, isBlank c = true :=
  ⟨s.takeWhile isBlank, List.takeWhile_append_dropWhile.symm,
    List.all_eq_true.mp List.all_takeWhile⟩

theorem trimEnd_eq_reverse (s : List Char) : trimEnd s = (trimStart s.reverse).reverse :=
  rfl

/-- Blanks are trimmed at the end, and nothing else. -/
theorem exists_append_trimEnd (s : List Char) :
    ∃ v, s = trimEnd s ++ v ∧ ∀ c ∈ v, isBlank c = true := by
  obtain ⟨u, hu, hblank⟩ := exists_append_trimStart s.reverse
  refine ⟨u.reverse, ?_, fun c hc => hblank c (List.mem_reverse.mp hc)⟩
  rw [trimEnd_eq_reverse, ← List.reverse_append, ← hu, List.reverse_reverse]

/-- Blanks are trimmed at both ends, and nothing else. -/
theorem exists_append_trim (s : List Char) :
    ∃ u v, s = u ++ (trim s ++ v) ∧ (∀ c ∈ u, isBlank c = true) ∧ ∀ c ∈ v, isBlank c = true := by
  obtain ⟨u, hu, hstart⟩ := exists_append_trimStart s
  obtain ⟨v, hv, hend⟩ := exists_append_trimEnd (trimStart s)
  exact ⟨u, v, by rw [trim, ← hv, ← hu], hstart, hend⟩

/-- A text that ends with a character that is not blank has nothing to trim behind. -/
theorem trimEnd_of_last {s : List Char} (h : ∀ c, s.getLast? = some c → isBlank c = false) :
    trimEnd s = s := by
  rw [trimEnd_eq_reverse, trimStart_of_head _ fun c hc => h c (by rwa [← List.head?_reverse]),
    List.reverse_reverse]

/-- Nothing is left to trim. -/
theorem trim_trim (s : List Char) : trim (trim s) = trim s := by
  have hhead : ∀ c, (trim s).head? = some c → isBlank c = false := by
    obtain ⟨v, hv, -⟩ := exists_append_trimEnd (trimStart s)
    intro c hc
    refine head_trimStart s c ?_
    rw [hv, ← trim, List.head?_append, hc]
    rfl
  calc trim (trim s) = trimEnd (trim s) := congrArg trimEnd (trimStart_of_head _ hhead)
    _ = trim s := trimEnd_of_last (last_trimEnd _)

/-- Nothing is left of a text of blanks. -/
theorem trim_eq_nil_iff {s : List Char} : trim s = [] ↔ ∀ c ∈ s, isBlank c = true := by
  constructor
  · intro h
    obtain ⟨u, v, hs, hu, hv⟩ := exists_append_trim s
    rw [h, List.nil_append] at hs
    rw [hs]
    exact List.forall_mem_append.mpr ⟨hu, hv⟩
  · intro h
    have hstart : trimStart s = [] := by
      induction s with
      | nil => rfl
      | cons c s ih =>
        rw [trimStart, List.dropWhile_cons_of_pos (h c List.mem_cons_self)]
        exact ih fun d hd => h d (List.mem_cons_of_mem c hd)
    rw [trim, hstart]
    rfl

theorem trim_ne_nil {s : List Char} {c : Char} (hc : c ∈ s) (hblank : isBlank c = false) :
    trim s ≠ [] := by
  intro htrim
  rw [trim_eq_nil_iff.mp htrim c hc] at hblank
  cases hblank

/-! ### Lines -/

/-- The character ends no line. -/
def isInLine (c : Char) : Bool :=
  c ≠ '\n' && c ≠ '\r'

/-- Characters that end no line are put in front of the first of the lines behind them. -/
theorem foldr_lineStep {line : List Char} (h : ∀ c ∈ line, isInLine c = true) (after : Bool)
    (first : List Char) (rest : List (List Char)) :
    (line.foldr lineStep (after, first :: rest)).2 = (line ++ first) :: rest := by
  induction line with
  | nil => rfl
  | cons c line ih =>
    have hc := h c List.mem_cons_self
    simp only [isInLine, ne_eq, decide_not, Bool.and_eq_true, Bool.not_eq_true',
      decide_eq_false_iff_not] at hc
    have ih := ih fun d hd => h d (List.mem_cons_of_mem c hd)
    rw [List.foldr_cons]
    generalize line.foldr lineStep (after, first :: rest) = state at ih
    obtain ⟨feed, read⟩ := state
    simp only [lineStep, hc.1, hc.2, decide_false, Bool.false_and, Bool.false_eq_true, if_false]
    dsimp only at ih
    rw [ih]
    rfl

theorem lines_cons {line : List Char} (h : ∀ c ∈ line, isInLine c = true) (s : List Char) :
    lines (line ++ '\n' :: s) = line :: lines s := by
  rw [lines, List.foldr_append, List.foldr_cons, lineStep, if_pos rfl, foldr_lineStep h,
    List.append_nil, lines]

/-- A text made of lines has those lines. -/
theorem lines_flatMap {ls : List (List Char)} (h : ∀ l ∈ ls, ∀ c ∈ l, isInLine c = true) :
    lines (ls.flatMap (· ++ ['\n'])) = ls := by
  induction ls with
  | nil => rfl
  | cons l ls ih =>
    rw [List.flatMap_cons, List.append_assoc, List.singleton_append,
      lines_cons (h l List.mem_cons_self), ih fun m hm => h m (List.mem_cons_of_mem l hm)]

theorem lines_of_isInLine {line : List Char} (h : ∀ c ∈ line, isInLine c = true)
    (hne : line ≠ []) : lines line = [line] := by
  obtain ⟨s, c, rfl⟩ := (List.eq_nil_or_concat line).resolve_left hne
  rw [List.concat_eq_append] at h ⊢
  have hc := h c (by simp)
  simp only [isInLine, ne_eq, decide_not, Bool.and_eq_true, Bool.not_eq_true',
    decide_eq_false_iff_not] at hc
  have hlast : lineStep c (false, []) = (false, [[c]]) := by
    simp [lineStep, pushLine, hc.1, hc.2]
  rw [lines, List.foldr_append, List.foldr_cons, List.foldr_nil, hlast,
    foldr_lineStep fun d hd => h d (List.mem_append_left _ hd)]

/-- A text that line feeds alone cut into lines. -/
inductive InFeeds : List Char → Prop
  /-- The empty text. -/
  | nil : InFeeds []
  /-- A last line, which no line feed ends. -/
  | last {line : List Char} (h : ∀ c ∈ line, isInLine c = true) (hne : line ≠ []) : InFeeds line
  /-- A line, its line feed, and what is behind. -/
  | cons {line s : List Char} (h : ∀ c ∈ line, isInLine c = true) (rest : InFeeds s) :
    InFeeds (line ++ '\n' :: s)

/-- A text without carriage returns is cut into lines by line feeds. -/
theorem inFeeds_of_not_mem {s : List Char} (hs : '\r' ∉ s) : InFeeds s := by
  have hinLine {t : List Char} (hfeed : '\n' ∉ t) (hreturn : '\r' ∉ t) :
      ∀ c ∈ t, isInLine c = true := by
    intro c hc
    simp only [isInLine, ne_eq, decide_not, Bool.and_eq_true, Bool.not_eq_true',
      decide_eq_false_iff_not]
    exact ⟨fun hn => hfeed (hn ▸ hc), fun hr => hreturn (hr ▸ hc)⟩
  induction hn : s.length using Nat.strongRecOn generalizing s with
  | ind n ih =>
    by_cases hfeed : '\n' ∈ s
    · -- The text is a line with its line feed, and a shorter text.
      obtain ⟨t, s, rfl, ht⟩ := List.eq_append_cons_of_mem hfeed
      obtain ⟨hreturn, hs⟩ := not_or.mp (fun h => hs (List.mem_append.mpr h))
      have hlength : s.length < n := by
        rw [← hn, List.length_append, List.length_cons]
        omega
      have hrest : InFeeds s := ih _ hlength (fun hc => hs (List.mem_cons_of_mem _ hc)) rfl
      exact .cons (hinLine ht hreturn) hrest
    · cases s with
      | nil => exact .nil
      | cons c s => exact .last (hinLine hfeed hs) (List.cons_ne_nil c s)

/-- In a text without carriage returns, a line stands between line feeds or ends of the text. -/
theorem exists_append_of_mem_lines {s line : List Char} (hs : '\r' ∉ s) (h : line ∈ lines s) :
    (∀ c ∈ line, isInLine c = true) ∧ ∃ u v, s = u ++ (line ++ v) ∧
      (∀ c, u.getLast? = some c → c = '\n') ∧ ∀ c, v.head? = some c → c = '\n' := by
  have hfeeds := inFeeds_of_not_mem hs
  clear hs
  induction hfeeds with
  | nil => exact absurd h List.not_mem_nil
  | @last t ht hne =>
    rw [lines_of_isInLine ht hne, List.mem_singleton] at h
    subst h
    exact ⟨ht, [], [], by simp, by rintro _ ⟨⟩, by rintro _ ⟨⟩⟩
  | @cons t s ht _ ih =>
    rw [lines_cons ht] at h
    rcases List.mem_cons.mp h with rfl | h
    · exact ⟨ht, [], '\n' :: s, rfl, by rintro _ ⟨⟩, by rintro _ ⟨⟩; rfl⟩
    · obtain ⟨hline, u, v, rfl, hu, hv⟩ := ih h
      refine ⟨hline, t ++ '\n' :: u, v, by simp, fun c hc => ?_, hv⟩
      cases hlast : u.getLast? with
      | none => simpa [List.getLast?_append, List.getLast?_cons, hlast, eq_comm] using hc
      | some d =>
        rw [List.getLast?_append, List.getLast?_cons, hlast] at hc
        exact hu c (hlast.trans hc)

end Raceway.Text
