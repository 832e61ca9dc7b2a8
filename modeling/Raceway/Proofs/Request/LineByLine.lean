import Mathlib
import Raceway.Proofs.Pattern.Surroundings
import Raceway.Proofs.Request.Wording
/-!
# Requests are worded line by line

No phrase that is replaced goes on in the next line, and a line feed at its end is to its edges what
the end of the text is. So each replacement does to two texts with a line feed between them what it
does to each of the two, however often it is repeated, and what is left of the lines of such a text
is what is left of the lines of both.

## Main definitions

* `Raceway.Wording.LineWise`: a function on texts that works on both sides of a line feed.

## Main results

* `Raceway.Wording.lineWise_replaceFully`: each replacement works line by line.
* `Raceway.Wording.normalize_line_feed`: so does bringing a request into its wording.
-/

namespace Raceway.Wording

open Pattern Text

variable {p : Pattern} {f : Match → List Char}

/-- The function works on both sides of a line feed, as on two texts. -/
def LineWise (step : List Char → List Char) : Prop :=
  ∀ s t, step (s ++ '\n' :: t) = step s ++ '\n' :: step t

theorem LineWise.comp {step next : List Char → List Char} (hnext : LineWise next)
    (hstep : LineWise step) : LineWise fun text => next (step text) :=
  fun s t => (congrArg next (hstep s t)).trans (hnext (step s) (step t))

theorem LineWise.iterate {step : List Char → List Char} (h : LineWise step) (n : ℕ) :
    LineWise step^[n] := by
  induction n with
  | zero => exact fun _ _ => rfl
  | succ n ih =>
    intro s t
    rw [Function.iterate_succ_apply, Function.iterate_succ_apply, Function.iterate_succ_apply, h,
      ih]

/-! ### Replacements -/

/-- The pattern reads within a line, and its conditions are edges of words. -/
structure WithinLines (p : Pattern) : Prop where
  /-- No part that is read is empty. -/
  not_nullable : p.nullable = false
  /-- No part that is read goes on in the next line. -/
  lacks : p.mentions '\n' = false
  /-- The conditions are edges. -/
  edges : ∀ a ∈ p.assertions, a = .wordEdge .word

theorem WithinLines.seesOnly (h : WithinLines p) : p.SeesOnly inWord := by
  intro a ha b b' c c' hb hc
  rw [h.edges a ha]
  change (inWord b != inWord c) = (inWord b' != inWord c')
  rw [hb, hc]

/-- A line feed is to the pattern what the end of the text is. -/
theorem WithinLines.stopsAt (h : WithinLines p) (t : List Char) :
    p.StopsAt inWord ('\n' :: t) where
  sees := rfl
  lacks := by
    rintro _ ⟨⟩
    exact h.lacks

/-- A replacement works line by line, if what is put in depends on the groups alone. -/
theorem WithinLines.lineWise (h : WithinLines p) (hf : ∀ m m', m.texts = m'.texts → f m = f m') :
    LineWise (p.replaceAll f) := by
  intro s t
  have hf (m m' : Match) (hsame : SameMatch m m') : f m = f m' := hf m m' hsame.2
  have hlast : p.Rewrites f (s ++ ['\n']) t (p.replaceAll f t) := by
    have hsees : inWord (none : Option Char) = inWord (s ++ ['\n']).getLast? := by
      rw [List.getLast?_concat]
      rfl
    have hwalk := (rewrites_replaceAll h.not_nullable f t).append h.seesOnly
      (stopsAt_nil p inWord) hf hsees (.nil _)
    rwa [List.append_nil, List.append_nil] at hwalk
  have hnone : p.matchAt? (Cursor.place s ('\n' :: t)) = none := by
    refine Option.eq_none_iff_forall_ne_some.mpr fun m hm => ?_
    obtain ⟨z, hz, hread⟩ := exists_reads_of_matchAt? hm
    obtain ⟨c, v, hv⟩ := List.exists_cons_of_ne_nil (hread.ne_nil h.not_nullable)
    rw [hv] at hz
    obtain ⟨rfl, -⟩ := List.cons.inj hz
    exact hread.not_mem h.lacks (hv ▸ List.mem_cons_self)
  have hboth := (rewrites_replaceAll h.not_nullable f s).append h.seesOnly (h.stopsAt t) hf rfl
    (.plain hnone hlast)
  exact (rewrites_replaceAll h.not_nullable f _).unique h.not_nullable hboth

/-- The patterns of the replacements read within lines. -/
theorem Stage.withinLines (h : Stage p f) : WithinLines p := by
  have hedges {p : Pattern} (hp : p.assertions.all (· = .wordEdge .word) = true) :
      ∀ a ∈ p.assertions, a = .wordEdge .word :=
    fun a ha => of_decide_eq_true (List.all_eq_true.mp hp a ha)
  cases h with
  | spacing => exact ⟨rfl, rfl, hedges rfl⟩
  | units => exact ⟨rfl, rfl, hedges rfl⟩
  | both => exact ⟨rfl, rfl, hedges rfl⟩
  | one hside => rcases hside with rfl | rfl <;> exact ⟨rfl, rfl, hedges rfl⟩
  | rows => exact ⟨rfl, rfl, hedges rfl⟩

/-- What is put in depends on the groups alone. -/
theorem Stage.congr (h : Stage p f) {m m' : Match} (htexts : m.texts = m'.texts) : f m = f m' := by
  have hgroup {index : ℕ} (hindex : index ≠ 0) : m.groupText index = m'.groupText index := by
    rw [m.groupText_eq hindex, m'.groupText_eq hindex, htexts]
  cases h with
  | spacing => rfl
  | units => exact hgroup one_ne_zero
  | both =>
    exact congrArg₂ (fun n k => marginWords "start" n ++ [' '] ++ marginWords "end" k)
      (hgroup one_ne_zero) (hgroup two_ne_zero)
  | one => exact congrArg (marginWords _) (hgroup one_ne_zero)
  | rows =>
    exact congrArg₂ (fun n k => "rows ".toList ++ n ++ ['-'] ++ k)
      (hgroup one_ne_zero) (hgroup two_ne_zero)

/-- A replacement is done as often as it takes, and may be tried more often. -/
theorem replaceFully_eq_iterate (h : Stage p f) {text : List Char} {n : ℕ}
    (hn : text.length + 2 ≤ n) : replaceFully p f text = (p.replaceAll f)^[n] text := by
  have hdone := replaceAll_replaceFully h text
  obtain ⟨k, rfl⟩ := Nat.exists_eq_add_of_le' hn
  rw [Function.iterate_add_apply, ← settle_eq_iterate _ (text.length + 2)]
  exact (Function.iterate_fixed hdone k).symm

/-- Each replacement works line by line, however often it is repeated. -/
theorem lineWise_replaceFully (h : Stage p f) : LineWise (replaceFully p f) := by
  intro s t
  -- Both parts are settled by the time that is tried for the whole.
  have hfully {text : List Char} (hle : text.length ≤ (s ++ '\n' :: t).length) :
      replaceFully p f text = (p.replaceAll f)^[(s ++ '\n' :: t).length + 2] text :=
    replaceFully_eq_iterate h (Nat.add_le_add_right hle 2)
  have hs : s.length ≤ (s ++ '\n' :: t).length := (List.sublist_append_left ..).length_le
  have ht : t.length ≤ (s ++ '\n' :: t).length :=
    ((List.sublist_cons_self ..).trans (List.sublist_append_right ..)).length_le
  rw [hfully le_rfl, hfully hs, hfully ht]
  exact (h.withinLines.lineWise fun _ _ => h.congr).iterate _ s t

/-- All replacements together work line by line. -/
theorem lineWise_respell : LineWise respell :=
  (lineWise_replaceFully .rows).comp <| (lineWise_replaceFully (.one (.inr rfl))).comp <|
    (lineWise_replaceFully (.one (.inl rfl))).comp <| (lineWise_replaceFully .both).comp <|
      (lineWise_replaceFully .units).comp (lineWise_replaceFully .spacing)

/-! ### Line ends and dashes -/

/-- A line feed is a line end by itself, or ends one with the carriage return in front of it. -/
theorem exists_unifyLineEnds (x y : List Char) :
    ∃ u, unifyLineEnds (x ++ '\n' :: y) = u ++ '\n' :: unifyLineEnds y ∧
      (unifyLineEnds x = u ∨ unifyLineEnds x = u ++ ['\n']) := by
  fun_induction unifyLineEnds x with
  | case1 => exact ⟨[], rfl, .inl rfl⟩
  | case2 rest ih =>
    obtain ⟨u, hu, heq⟩ := ih
    refine ⟨'\n' :: u, ?_, heq.imp (congrArg _) (congrArg _)⟩
    rw [List.cons_append, List.cons_append, unifyLineEnds, hu]
    rfl
  | case3 c rest hpair ih =>
    obtain ⟨u, hu, heq⟩ := ih
    by_cases hreturn : c = '\r' ∧ rest = []
    · -- The carriage return at the end makes one line end with the line feed.
      obtain ⟨rfl, rfl⟩ := hreturn
      exact ⟨[], rfl, .inr rfl⟩
    · refine ⟨(if c = '\r' then '\n' else c) :: u, ?_, heq.imp (congrArg _) (congrArg _)⟩
      rw [List.cons_append, unifyLineEnds, hu]
      · rfl
      · rintro rest' rfl hrest
        cases rest with
        | nil => exact hreturn ⟨rfl, rfl⟩
        | cons d rest =>
          obtain ⟨rfl, -⟩ := List.cons.inj hrest
          exact hpair _ rfl rfl

/-! ### Lines -/

/-- The lines of two texts with a line feed between them. -/
theorem tidyLines_line_feed {s : List Char} (hs : '\r' ∉ s) (t : List Char) :
    tidyLines (s ++ '\n' :: t) = tidyLines s ++ tidyLines t := by
  have hcons {line : List Char} (h : ∀ c ∈ line, isInLine c = true) (s : List Char) :
      tidyLines (line ++ '\n' :: s) =
        [tidyLine line].filter (fun line => !line.isEmpty) ++ tidyLines s := by
    rw [tidyLines, lines_cons h, List.map_cons, ← List.singleton_append, List.filter_append]
    rfl
  have hfeeds := inFeeds_of_not_mem hs
  clear hs
  induction hfeeds with
  | nil => exact hcons (List.forall_mem_nil (isInLine · = true)) t
  | last h hne =>
    rw [hcons h]
    conv_rhs => rw [tidyLines, lines_of_isInLine h hne]
    rfl
  | cons h _ ih => rw [List.append_assoc, List.cons_append, hcons h, hcons h, ih, List.append_assoc]

theorem ne_nil_of_mem_tidyLines {text line : List Char} (h : line ∈ tidyLines text) :
    line ≠ [] := by
  rintro rfl
  exact absurd (List.mem_filter.mp h).2 Bool.false_ne_true

theorem joinLines_append {a b : List (List Char)} (ha : a ≠ []) (hb : b ≠ []) :
    joinLines (a ++ b) = joinLines a ++ '\n' :: joinLines b := by
  obtain ⟨line, a, rfl⟩ := List.exists_cons_of_ne_nil ha
  induction a generalizing line with
  | nil =>
    obtain ⟨line', b, rfl⟩ := List.exists_cons_of_ne_nil hb
    simp [joinLines, List.intercalate_cons_cons]
  | cons line' a ih =>
    have hrest := ih line' (List.cons_ne_nil _ _)
    simp only [joinLines, List.cons_append, List.intercalate_cons_cons] at hrest ⊢
    rw [hrest]
    simp

theorem joinLines_eq_nil_iff {ls : List (List Char)} (h : ∀ line ∈ ls, line ≠ []) :
    joinLines ls = [] ↔ ls = [] := by
  refine ⟨fun hjoin => ?_, fun hls => by rw [hls]; rfl⟩
  cases ls with
  | nil => rfl
  | cons line ls =>
    have hne := h line List.mem_cons_self
    cases ls with
    | nil => exact absurd (by simpa [joinLines] using hjoin) hne
    | cons line' ls => simp [joinLines, List.intercalate_cons_cons] at hjoin

/-- The lines of two texts are put together as two lines, of which the empty ones are dropped. -/
theorem joinLines_append_eq_filter {a b : List (List Char)} (ha : ∀ line ∈ a, line ≠ [])
    (hb : ∀ line ∈ b, line ≠ []) : joinLines (a ++ b) =
      joinLines ([joinLines a, joinLines b].filter fun line => !line.isEmpty) := by
  have hempty {ls : List (List Char)} (h : ∀ line ∈ ls, line ≠ []) (hne : ls ≠ []) :
      (!(joinLines ls).isEmpty) = true := by
    rw [List.isEmpty_eq_false_iff.mpr (mt (joinLines_eq_nil_iff h).mp hne)]
    rfl
  have hsingle (line : List Char) : joinLines [line] = line := List.intercalate_singleton ..
  have hnil : joinLines [] = [] := rfl
  rcases eq_or_ne a [] with rfl | hane <;> rcases eq_or_ne b [] with rfl | hbne
  · rfl
  · simp [hnil, hsingle, hempty hb hbne]
  · simp [hnil, hsingle, hempty ha hane]
  · have hkept : [joinLines a, joinLines b].filter (fun line => !line.isEmpty) =
        [joinLines a] ++ [joinLines b] := by simp [hempty ha hane, hempty hb hbne]
    rw [hkept, joinLines_append hane hbne, joinLines_append (List.cons_ne_nil _ _)
      (List.cons_ne_nil _ _), hsingle, hsingle]

/-! ### The wording of a request -/

/-- The lines that are left of a request. -/
theorem tidyLines_respell_line_feed (x y : List Char) :
    tidyLines (respell ((unifyLineEnds (x ++ '\n' :: y)).map unifyDash)) =
      tidyLines (respell ((unifyLineEnds x).map unifyDash)) ++
        tidyLines (respell ((unifyLineEnds y).map unifyDash)) := by
  obtain ⟨u, hu, hx⟩ := exists_unifyLineEnds x y
  have hreturn : '\r' ∉ respell (u.map unifyDash) := by
    have hunified := all_isUnified_unify x
    refine (settled_respell ?_).not_mem_return
    rcases hx with hx | hx
    · rwa [hx] at hunified
    · rw [hx, List.map_append, List.all_append, Bool.and_eq_true] at hunified
      exact hunified.1
  have hsplit (y : List Char) : tidyLines (respell ((u ++ '\n' :: y).map unifyDash)) =
      tidyLines (respell (u.map unifyDash)) ++ tidyLines (respell (y.map unifyDash)) := by
    have hfeed : (u ++ '\n' :: y).map unifyDash = u.map unifyDash ++ '\n' :: y.map unifyDash := by
      rw [List.map_append, List.map_cons]
      rfl
    rw [hfeed, lineWise_respell (u.map unifyDash), tidyLines_line_feed hreturn]
  rw [hu, hsplit]
  rcases hx with hx | hx
  · rw [hx]
  · have hnothing : tidyLines (respell (([] : List Char).map unifyDash)) = [] := rfl
    rw [hx, hsplit, hnothing, List.append_nil]

/-- The wording of a request is found line by line: that of two texts with a line feed between them
is made of the wordings of both, without those that are empty. -/
theorem normalize_line_feed (x y : List Char) : normalize (x ++ '\n' :: y) =
    joinLines ([normalize x, normalize y].filter fun line => !line.isEmpty) := by
  rw [normalize_eq, tidyLines_respell_line_feed]
  exact joinLines_append_eq_filter (fun _ => ne_nil_of_mem_tidyLines)
    (fun _ => ne_nil_of_mem_tidyLines)

end Raceway.Wording
