import Mathlib
import Raceway.Text.Blank
/-!
# Lines and what ends them

A line of a text ends with a line feed, with a carriage return and a line feed, or with the text. If
what ends them is kept, the lines of a text can be put together again, and taking away what stands
on some of them leaves all others with their numbers. What is written behind the last line feed of a
text goes on with the line there.

## Main definitions

* `Raceway.Text.Line` and `Raceway.Text.cut`: the lines of a text with what ends them.
* `Raceway.Text.blankOut`: a text without what stands on some of its lines.
* `Raceway.Text.openLine`: what stands behind the last line feed of a text.

## Main results

* `Raceway.Text.flatMap_cut` and `Raceway.Text.map_content_cut`: nothing is lost in cutting, and
  the lines are the lines of the text.
* `Raceway.Text.exists_lines_blankOut`: the lines of a text without what stands on some of them.
* `Raceway.Text.exists_lines_append`: the lines of a text to which a line is added.
-/

namespace Raceway.Text

variable {c : Char} {l s t : List Char}

/-! ### Lines from the front -/

/-- The flag of reading lines tells whether the text starts with a line feed. -/
theorem fst_foldr_lineStep (s : List Char) :
    (s.foldr lineStep (false, [])).1 = decide (s.head? = some '\n') := by
  cases s with
  | nil => rfl
  | cons c s =>
    simp only [List.foldr_cons, lineStep, List.head?_cons, Option.some.injEq]
    split_ifs <;> simp_all

theorem lines_nil : lines [] = [] :=
  rfl

theorem lines_feed (s : List Char) : lines ('\n' :: s) = [] :: lines s := by
  simp [lines, lineStep]

/-- A carriage return in front of a line feed belongs to it. -/
theorem lines_return (hs : s.head? = some '\n') : lines ('\r' :: s) = lines s := by
  have hflag : (s.foldr lineStep (false, [])).1 = true := by
    rw [fst_foldr_lineStep, decide_eq_true hs]
  simp [lines, lineStep, hflag]

theorem lines_return_feed (s : List Char) : lines ('\r' :: '\n' :: s) = [] :: lines s := by
  rw [lines_return rfl, lines_feed]

/-- A character that does not belong to the end of a line is put in front of the first line. -/
theorem lines_push (hc : c ≠ '\n') (hs : c = '\r' → s.head? ≠ some '\n') :
    lines (c :: s) = pushLine c (lines s) := by
  have hflag : ¬ (c = '\r' ∧ (s.foldr lineStep (false, [])).1 = true) := by
    rw [fst_foldr_lineStep, decide_eq_true_iff]
    exact fun h => hs h.1 h.2
  simp only [lines, List.foldr_cons, lineStep, if_neg hc, Bool.and_eq_true, decide_eq_true_iff,
    if_neg hflag]

theorem pushLine_ne_nil (c : Char) (ls : List (List Char)) : pushLine c ls ≠ [] := by
  cases ls <;> exact List.cons_ne_nil _ _

theorem lines_ne_nil (hs : s ≠ []) : lines s ≠ [] := by
  obtain ⟨c, s, rfl⟩ := List.exists_cons_of_ne_nil hs
  by_cases hc : c = '\n'
  · rw [hc, lines_feed]
    exact List.cons_ne_nil _ _
  by_cases hreturn : c = '\r' ∧ s.head? = some '\n'
  · obtain ⟨t, rfl⟩ := List.head?_eq_some_iff.mp hreturn.2
    rw [hreturn.1, lines_return_feed]
    exact List.cons_ne_nil _ _
  · rw [lines_push hc fun h h' => hreturn ⟨h, h'⟩]
    exact pushLine_ne_nil _ _

theorem pushLine_append {ls : List (List Char)} (h : ls ≠ []) (ms : List (List Char)) :
    pushLine c (ls ++ ms) = pushLine c ls ++ ms := by
  cases ls with
  | nil => exact absurd rfl h
  | cons l ls => rfl

/-- A line that the text ends. -/
theorem lines_last (hl : '\n' ∉ l) (hne : l ≠ []) : lines l = [l] := by
  induction l with
  | nil => exact absurd rfl hne
  | cons c l ih =>
    rw [List.mem_cons, not_or] at hl
    have hhead : l.head? ≠ some '\n' := fun h => hl.2 (List.mem_of_head? h)
    rw [lines_push (Ne.symm hl.1) fun _ => hhead]
    by_cases hempty : l = []
    · subst hempty
      rfl
    · rw [ih hl.2 hempty]
      rfl

/-! ### Cutting a text into lines -/

/-- What can end a line before its text ends, given what stands on the line. -/
inductive Ends (content : List Char) : List Char → Prop
  /-- A line feed. A carriage return in front of it would belong to it. -/
  | feed (h : content.getLast? ≠ some '\r') : Ends content ['\n']
  /-- A carriage return and a line feed. -/
  | returnFeed : Ends content ['\r', '\n']

theorem Ends.push {ending : List Char} (h : Ends l ending)
    (hc : l = [] → ending = ['\n'] → c ≠ '\r') : Ends (c :: l) ending := by
  cases h with
  | returnFeed => exact .returnFeed
  | feed h =>
    refine .feed ?_
    cases l with
    | nil => simpa using hc rfl rfl
    | cons d l => simpa using h

theorem Ends.nil_feed : Ends [] ['\n'] :=
  .feed (by simp)

/-- A line, what ends it, and what follows. -/
theorem lines_ended {ending : List Char} (hl : '\n' ∉ l) (h : Ends l ending) (s : List Char) :
    lines (l ++ (ending ++ s)) = l :: lines s := by
  induction l with
  | nil =>
    cases h with
    | feed => exact lines_feed s
    | returnFeed => exact lines_return_feed s
  | cons c l ih =>
    rw [List.mem_cons, not_or] at hl
    have hrest : Ends l ending := by
      cases h with
      | returnFeed => exact .returnFeed
      | feed h =>
        refine .feed fun hlast => h ?_
        rw [List.getLast?_cons, hlast]
        rfl
    -- A carriage return at the end of the line has another one behind it, and no line feed.
    have hhead : c = '\r' → (l ++ (ending ++ s)).head? ≠ some '\n' := by
      rintro rfl
      cases l with
      | cons d l => simpa using fun hd : d = '\n' => hl.2 (hd ▸ List.mem_cons_self)
      | nil =>
        cases h with
        | feed h => exact absurd rfl h
        | returnFeed => simp
    rw [List.cons_append, lines_push (Ne.symm hl.1) hhead, ih hl.2 hrest]
    rfl

/-- A line of a text. -/
structure Line where
  /-- What stands on it. -/
  content : List Char
  /-- What ends it: nothing where the text ends. -/
  ending : List Char

/-- The line with a character in front. -/
def Line.push (c : Char) (line : Line) : Line :=
  { line with content := c :: line.content }

/-- The text of a line. -/
def Line.text (line : Line) : List Char :=
  line.content ++ line.ending

/-- The lines of a text with what ends them. -/
def cut : List Char → List Line
  | [] => []
  | '\n' :: s => ⟨[], ['\n']⟩ :: cut s
  | '\r' :: '\n' :: s => ⟨[], ['\r', '\n']⟩ :: cut s
  | c :: s =>
    match cut s with
    | [] => [⟨[c], []⟩]
    | line :: rest => line.push c :: rest

/-- Lines into which a text is cut: only the last one of them may end with the text. -/
inductive IsCut : List Line → Prop
  | nil : IsCut []
  | last {line : Line} (hl : '\n' ∉ line.content) (hne : line.content ≠ [])
      (hend : line.ending = []) : IsCut [line]
  | cons {line : Line} {rest : List Line} (hl : '\n' ∉ line.content)
      (hend : Ends line.content line.ending) (hrest : IsCut rest) : IsCut (line :: rest)

/-- Cutting loses nothing. -/
theorem flatMap_cut (s : List Char) : (cut s).flatMap Line.text = s := by
  fun_induction cut s with
  | case1 => rfl
  | case2 s ih => simp [Line.text, ih]
  | case3 s ih => simp [Line.text, ih]
  | case4 c s _ _ hcut ih =>
    rw [hcut] at ih
    rw [← ih]
    rfl
  | case5 c s _ _ line rest hcut ih =>
    rw [hcut] at ih
    rw [← ih]
    rfl

theorem isCut_cut (s : List Char) : IsCut (cut s) := by
  fun_induction cut s with
  | case1 => exact .nil
  | case2 s ih => exact .cons List.not_mem_nil .nil_feed ih
  | case3 s ih => exact .cons List.not_mem_nil .returnFeed ih
  | case4 c s hfeed _ hcut ih =>
    exact .last (by simpa using fun h : '\n' = c => hfeed h.symm) (List.cons_ne_nil c []) rfl
  | case5 c s hfeed hreturn line rest hcut ih =>
    have hs := flatMap_cut s
    rw [hcut] at ih hs
    have hmem {content : List Char} (h : '\n' ∉ content) : '\n' ∉ c :: content := by
      simpa [h] using fun h : '\n' = c => hfeed h.symm
    cases ih with
    | last hl hne hend => exact .last (hmem hl) (List.cons_ne_nil _ _) hend
    | cons hl hend hrest =>
      refine .cons (hmem hl) (hend.push fun hcontent hending hc => ?_) hrest
      -- A carriage return in front of a line feed is part of what ends the line.
      refine hreturn (rest.flatMap Line.text) hc ?_
      simpa [Line.text, hcontent, hending] using hs.symm

/-- The lines of a text that is put together from lines. -/
theorem lines_flatMap_text {ls : List Line} (h : IsCut ls) :
    lines (ls.flatMap Line.text) = ls.map Line.content := by
  induction h with
  | nil => rfl
  | last hl hne hend => simp [Line.text, hend, lines_last hl hne]
  | cons hl hend _ ih =>
    rw [List.flatMap_cons, Line.text, List.append_assoc, lines_ended hl hend, ih, List.map_cons]

/-- The lines that a text is cut into are its lines. -/
theorem map_content_cut (s : List Char) : (cut s).map Line.content = lines s := by
  rw [← lines_flatMap_text (isCut_cut s), flatMap_cut]

/-! ### Taking away what stands on lines -/

section Blank

variable (p : List Char → Bool)

/-- What is left of a line: nothing where it is taken away. -/
def blank (content : List Char) : List Char :=
  if p content then [] else content

/-- The line with what is left of it. What ends it stays. -/
def Line.blank (line : Line) : Line :=
  { line with content := Text.blank p line.content }

/-- The text without what stands on the lines that are taken away. What ends them stays. -/
def blankOut (s : List Char) : List Char :=
  ((cut s).map (Line.blank p)).flatMap Line.text

variable {p}

theorem not_mem_blank (h : '\n' ∉ l) : '\n' ∉ blank p l := by
  rw [blank]
  split_ifs
  · exact List.not_mem_nil
  · exact h

theorem Ends.blank {ending : List Char} (h : Ends l ending) : Ends (blank p l) ending := by
  rw [Text.blank]
  split_ifs
  · cases h with
    | feed => exact .nil_feed
    | returnFeed => exact .returnFeed
  · exact h

/-- The lines of a text without what stands on some of its lines are what is left of its lines. Only
an empty line at the end is missing, where the text ended the line. -/
theorem exists_lines_blankOut (p : List Char → Bool) (s : List Char) :
    ∃ rest : List (List Char), (lines s).map (blank p) = lines (blankOut p s) ++ rest ∧
      ∀ l ∈ rest, l = [] := by
  rw [← map_content_cut, blankOut]
  have hcut := isCut_cut s
  generalize cut s = ls at hcut
  induction hcut with
  | nil => exact ⟨[], rfl, List.forall_mem_nil _⟩
  | @last line hl hne hend =>
    by_cases hempty : blank p line.content = []
    · refine ⟨[[]], ?_, by simp⟩
      simp [Line.blank, Line.text, hend, hempty, lines_nil]
    · refine ⟨[], ?_, List.forall_mem_nil _⟩
      simp [Line.blank, Line.text, hend, lines_last (not_mem_blank hl) hempty]
  | @cons line others hl hend _ ih =>
    obtain ⟨rest, hrest, hempty⟩ := ih
    refine ⟨rest, ?_, hempty⟩
    rw [List.map_cons, List.map_cons, hrest, List.map_cons, List.flatMap_cons, Line.text,
      Line.blank, List.append_assoc, lines_ended (not_mem_blank hl) hend.blank, List.cons_append]

end Blank

/-! ### Adding a line -/

/-- A text that is cut behind a line feed has the lines of its two parts. -/
theorem lines_append_feed (s t : List Char) :
    lines (s ++ '\n' :: t) = lines (s ++ ['\n']) ++ lines t := by
  induction s with
  | nil => simp [lines_feed, lines_nil]
  | cons c s ih =>
    have hhead : (s ++ '\n' :: t).head? = (s ++ ['\n']).head? := by cases s <;> rfl
    rw [List.cons_append, List.cons_append]
    by_cases hc : c = '\n'
    · rw [hc, lines_feed, lines_feed, ih, List.cons_append]
    by_cases hreturn : c = '\r' ∧ (s ++ ['\n']).head? = some '\n'
    · rw [hreturn.1, lines_return hreturn.2, lines_return (hhead.trans hreturn.2), ih]
    · have hpush : c = '\r' → (s ++ ['\n']).head? ≠ some '\n' := fun h h' => hreturn ⟨h, h'⟩
      have hne : lines (s ++ ['\n']) ≠ [] := lines_ne_nil (by simp)
      rw [lines_push hc (hhead ▸ hpush), lines_push hc hpush, ih, pushLine_append hne]

/-- What stands behind the last line feed of a text: a line that nothing ends yet. -/
def openLine (s : List Char) : List Char :=
  (s.reverse.takeWhile (· != '\n')).reverse

theorem not_mem_openLine (s : List Char) : '\n' ∉ openLine s := by
  intro h
  simpa using List.mem_takeWhile_imp (List.mem_reverse.mp h)

/-- Nothing stands behind a line feed at the end. -/
theorem openLine_append_feed (s : List Char) : openLine (s ++ ['\n']) = [] := by
  simp [openLine]

/-- In front of the open line there is nothing, or a line feed. -/
theorem exists_append_openLine (s : List Char) :
    ∃ front, s = front ++ openLine s ∧ (front = [] ∨ ∃ before, front = before ++ ['\n']) := by
  refine ⟨(s.reverse.dropWhile (· != '\n')).reverse, ?_, ?_⟩
  · rw [openLine, ← List.reverse_append, List.takeWhile_append_dropWhile, List.reverse_reverse]
  · cases hrest : s.reverse.dropWhile (· != '\n') with
    | nil => exact .inl rfl
    | cons c rest =>
      have hc : c = '\n' := by
        have hhead := List.head?_dropWhile_not (· != '\n') s.reverse
        rw [hrest] at hhead
        simpa using hhead
      exact .inr ⟨rest.reverse, by simp [hc]⟩

/-- The lines of a text are those in front of its open line and, if anything stands there, the open
line. A line that is added goes on with the open line. -/
theorem exists_lines_append (s : List Char) :
    ∃ front, lines s = front ++ (if openLine s = [] then [] else [openLine s]) ∧
      ∀ l, '\n' ∉ l → l.getLast?.any (· ≠ '\r') →
        lines (s ++ (l ++ ['\n'])) = front ++ [openLine s ++ l] := by
  obtain ⟨front, hfront, hends⟩ := exists_append_openLine s
  have happend (t : List Char) : lines (front ++ t) = lines front ++ lines t := by
    obtain rfl | ⟨before, rfl⟩ := hends
    · rfl
    · rw [List.append_assoc, List.singleton_append, lines_append_feed]
  have hopen : lines (openLine s) = if openLine s = [] then [] else [openLine s] := by
    split_ifs with h
    · rw [h, lines_nil]
    · exact lines_last (not_mem_openLine s) h
  refine ⟨lines front, ?_, fun l hl hlast => ?_⟩
  · rw [← hopen, ← happend, ← hfront]
  · have hmem : '\n' ∉ openLine s ++ l := by simp [not_mem_openLine s, hl]
    have hreturn : (openLine s ++ l).getLast? ≠ some '\r' := by
      cases h : l.getLast? with
      | none => simp [h] at hlast
      | some c => simpa [List.getLast?_append, h] using hlast
    conv_lhs => rw [hfront]
    rw [List.append_assoc, happend, ← List.append_assoc (openLine s), ← lines_nil,
      ← lines_ended hmem (.feed hreturn) []]
    rfl

end Raceway.Text
