import Mathlib
import Raceway.Proofs.Request.Phrases
/-!
# Single spaces

Spaces and tabs that stand together are read as far as they go, and one space is put for them. After
that spaces stand alone, and a text in which they do is left as it is.

## Main definitions

* `Raceway.Wording.SingleSpaced`: spaces stand alone, and there are no tabs.

## Main results

* `Raceway.Pattern.not_has_of_matchAt?_plus`: a greedy repetition of one class goes on to its end.
* `Raceway.Wording.singleSpaced_replaceAll_spacing`: one space is put for all that stand together.
* `Raceway.Wording.replaceAll_spacing`: single spaces are left as they are.
* `Raceway.Wording.SingleSpaced.rewrites`: other replacements keep a text single spaced, too.
-/

namespace Raceway

/-! ### Greedy repetitions -/

namespace Pattern

open Cursor

variable {β : Type} {chars : CharClass} {x y : List Char}

/-- A greedy repetition of one class stops only where the class does, if it can go on anywhere. -/
theorem exists_between_of_iterate_one {k : Cursor → Option β} (hk : ∀ t, (k t).isSome = true)
    {n : ℕ} {s : Cursor} {r : β} (h : iterate (one chars).matchThen true k n s = some r)
    (hs : s.Between x y) (hn : y.length ≤ n) :
    ∃ w z t, y = w ++ z ∧ t.Between (x ++ w) z ∧ k t = some r ∧
      ∀ c, z.head? = some c → chars.has c = false := by
  induction n generalizing s x y with
  | zero =>
    obtain rfl := List.eq_nil_of_length_eq_zero (Nat.le_zero.mp hn)
    exact ⟨[], [], s, rfl, by rwa [List.append_nil], h, by rintro _ ⟨⟩⟩
  | succ n ih =>
    rw [iterate, if_pos rfl, matchThen, Option.orElse_eq_or] at h
    have hstop (hnone : s.take? chars = none) : k s = some r := by
      rwa [hnone, Option.bind_none, Option.none_or] at h
    cases y with
    | nil =>
      have hnone : s.take? chars = none := hs.take?_eq_none (by rintro _ ⟨⟩)
      exact ⟨[], [], s, rfl, by rwa [List.append_nil], hstop hnone, by rintro _ ⟨⟩⟩
    | cons c y =>
      cases hc : chars.has c with
      | false =>
        have hnone := hs.take?_eq_none (by rintro _ ⟨⟩; exact hc)
        refine ⟨[], c :: y, s, rfl, by rwa [List.append_nil], hstop hnone, ?_⟩
        rintro _ ⟨⟩
        exact hc
      | true =>
        obtain ⟨t, ht, hbetween⟩ := hs.exists_take? hc
        have hlt : t.rest.length < s.rest.length := by
          rw [hs.rest, hbetween.rest]
          exact Nat.lt_succ_self _
        have hread : (loop true (one chars)).Reads (x ++ [c]) [] y [] := .loopStop
        have hsome := isSome_iterate (fun h => h.isSome_matchThen) hread hbetween (Nat.zero_le n)
          (k := k) fun t _ => hk t
        obtain ⟨r', hr'⟩ := Option.isSome_iff_exists.mp hsome
        rw [ht, Option.bind_some, if_pos hlt, hr', Option.some_or] at h
        obtain ⟨w, z, t', rfl, ht', hkt, hstop⟩ :=
          ih (hr'.trans h) hbetween (Nat.le_of_succ_le_succ hn)
        exact ⟨c :: w, z, t', rfl, by rwa [List.append_cons], hkt, hstop⟩

/-- A greedy repetition of one class goes on to the end of what is in the class. -/
theorem not_has_of_matchAt?_plus {m : Match}
    (h : (plus true (one chars)).matchAt? (place x (m.text ++ y)) = some m) {c : Char}
    (hc : y.head? = some c) : chars.has c = false := by
  obtain ⟨t, ht, h⟩ := Option.bind_eq_some_iff.mp h
  obtain ⟨d, v, hv, -, ht, -⟩ := (between_place x (m.text ++ y)).take? ht
  obtain ⟨w, z, t', rfl, ht', hm, hstop⟩ :=
    exists_between_of_iterate_one (fun _ => rfl) h ht (by rw [ht.rest])
  have hoffset : t'.offset - x.length = (d :: w).length := by
    rw [ht'.offset, List.append_assoc, List.length_append, Nat.add_sub_cancel_left]
    rfl
  have htext : (m.text ++ y).take (t'.offset - x.length) = m.text :=
    congrArg Match.text (Option.some.inj hm)
  rw [hoffset, hv, ← List.cons_append, List.take_left] at htext
  rw [← htext] at hv
  exact hstop c (List.append_cancel_left hv ▸ hc)

end Pattern

/-! ### Texts in which spaces stand alone -/

namespace Wording

open Pattern Text

variable {x y w z : List Char}

/-- Spaces stand alone, and there are no tabs. -/
structure SingleSpaced (s : List Char) : Prop where
  /-- There are no tabs. -/
  no_tab : '\t' ∉ s
  /-- No space follows another one. -/
  alone : s.IsChain fun c d => ¬ (c = ' ' ∧ d = ' ')

namespace SingleSpaced

theorem append {s t : List Char} (hs : SingleSpaced s) (ht : SingleSpaced t)
    (hborder : s.getLast? = some ' ' → t.head? ≠ some ' ') : SingleSpaced (s ++ t) where
  no_tab := fun h => (List.mem_append.mp h).elim hs.no_tab ht.no_tab
  alone := by
    refine List.isChain_append.mpr ⟨hs.alone, ht.alone, fun c hc d hd hspaces => ?_⟩
    obtain ⟨rfl, rfl⟩ := hspaces
    exact hborder hc hd

theorem of_append {s t : List Char} (h : SingleSpaced (s ++ t)) :
    SingleSpaced s ∧ SingleSpaced t ∧ (s.getLast? = some ' ' → t.head? ≠ some ' ') := by
  obtain ⟨hs, ht, hborder⟩ := List.isChain_append.mp h.alone
  exact ⟨⟨fun hc => h.no_tab (List.mem_append_left _ hc), hs⟩,
    ⟨fun hc => h.no_tab (List.mem_append_right _ hc), ht⟩,
    fun hlast hhead => hborder _ hlast _ hhead ⟨rfl, rfl⟩⟩

/-- A text without spaces and tabs. -/
theorem of_forall {s : List Char} (h : ∀ c ∈ s, c ≠ ' ' ∧ c ≠ '\t') : SingleSpaced s where
  no_tab := fun hc => (h _ hc).2 rfl
  alone := by
    induction s with
    | nil => exact .nil
    | cons c s ih =>
      refine List.isChain_cons.mpr ⟨fun d _ hspaces => ?_, ih fun d hd => ?_⟩
      · exact (h c List.mem_cons_self).1 hspaces.1
      · exact h d (List.mem_cons_of_mem c hd)

end SingleSpaced

/-- A replacement keeps a text single spaced, if it puts single spaced texts in it that start and
end with something else than a space. -/
theorem SingleSpaced.rewrites {p : Pattern} {f : Match → List Char}
    (hf : ∀ x z m, p.Reads x m.text z m.texts → SingleSpaced (f m) ∧ f m ≠ [] ∧
      (f m).head? ≠ some ' ' ∧ (f m).getLast? ≠ some ' ')
    {out : List Char} (h : p.Rewrites f x y out) (hy : SingleSpaced y) :
    SingleSpaced out ∧ (out.head? = some ' ' → y.head? = some ' ') := by
  induction h with
  | nil => exact ⟨hy, id⟩
  | @plain x y out c _ _ ih =>
    obtain ⟨hc, hy, hborder⟩ := SingleSpaced.of_append (s := [c]) hy
    obtain ⟨hout, hhead⟩ := ih hy
    exact ⟨hc.append hout fun hlast hspace => hborder hlast (hhead hspace), id⟩
  | @found x y out m _ hread _ ih =>
    obtain ⟨hwords, hne, hstart, hend⟩ := hf _ _ _ hread
    obtain ⟨-, hy, -⟩ := hy.of_append
    refine ⟨hwords.append (ih hy).1 fun hlast => absurd hlast hend, fun hhead => ?_⟩
    rw [List.head?_append_of_ne_nil _ hne] at hhead
    exact absurd hhead hstart

/-! ### One space for spaces and tabs -/

/-- The walk that puts one space for spaces and tabs. -/
theorem singleSpaced_of_rewrites {out : List Char} (h : spacing.Rewrites oneSpace x y out) :
    SingleSpaced out ∧ (out.head? = some ' ' → ∃ c, y.head? = some c ∧ (c = ' ' ∨ c = '\t')) := by
  induction h with
  | nil => exact ⟨.of_forall fun c hc => absurd hc List.not_mem_nil, by rintro ⟨⟩⟩
  | @plain x y out c hnone _ ih =>
    have hc : ¬ (c = ' ' ∨ c = '\t') := by
      intro hc
      refine not_finds_of_matchAt? (w := [c]) hnone ⟨_, .seq (v := []) (.one ?_) .loopStop⟩
      exact (has_spaceOrTab c).mpr hc
    have hsingle : SingleSpaced [c] := .of_forall fun d hd => by
      rw [List.mem_singleton.mp hd]
      exact not_or.mp hc
    refine ⟨hsingle.append ih.1 fun hlast => ?_, fun hhead => ?_⟩
    · exact absurd (.inl (Option.some.inj hlast)) hc
    · exact absurd (.inl (Option.some.inj hhead)) hc
  | @found x y out m h hread _ ih =>
    have hsingle : SingleSpaced [' '] := ⟨by decide, .singleton _⟩
    refine ⟨hsingle.append ih.1 fun _ hhead => ?_, fun _ => ?_⟩
    · obtain ⟨c, hc, hspace⟩ := ih.2 hhead
      have hnot := not_has_of_matchAt?_plus h hc
      rw [(has_spaceOrTab c).mpr hspace] at hnot
      exact Bool.noConfusion hnot
    · obtain ⟨c, v, hv⟩ := List.exists_cons_of_ne_nil (hread.ne_nil rfl)
      exact ⟨c, by rw [hv]; rfl, eq_space_or_tab_of_reads hread c (hv ▸ List.mem_cons_self)⟩

/-- Once one space is put for spaces and tabs, spaces stand alone. -/
theorem singleSpaced_replaceAll_spacing (text : List Char) :
    SingleSpaced (spacing.replaceAll oneSpace text) :=
  (singleSpaced_of_rewrites (rewrites_replaceAll rfl oneSpace text)).1

/-- Where spaces stand alone they are left as they are. -/
theorem replaceAll_spacing {text : List Char} (h : SingleSpaced text) :
    spacing.replaceAll oneSpace text = text := by
  refine replaceAll_eq_self rfl ?_
  rintro x w z rfl ⟨m, -, hread, hne⟩
  have hspaces := eq_space_or_tab_of_reads hread
  obtain ⟨-, hwz, -⟩ := h.of_append
  obtain ⟨hw, -, -⟩ := hwz.of_append
  have hspace : ∀ c ∈ w, c = ' ' :=
    fun c hc => (hspaces c hc).resolve_right fun htab => hw.no_tab (htab ▸ hc)
  match w, hread.ne_nil rfl with
  | [c], _ => exact hne (congrArg ([·]) (hspace c List.mem_cons_self).symm)
  | c :: d :: v, _ =>
    have hcd := (List.isChain_cons_cons.mp hw.alone).1
    exact hcd ⟨hspace c (by simp), hspace d (by simp)⟩

/-- A line in which spaces stand alone only loses the blanks around it. -/
theorem tidyLine_eq_trim {line : List Char} (h : SingleSpaced (trim line)) :
    tidyLine line = trim line :=
  replaceAll_spacing h

end Wording

end Raceway
