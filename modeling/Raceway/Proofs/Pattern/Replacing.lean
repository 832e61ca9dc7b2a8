import Mathlib
import Raceway.Proofs.Pattern.Reading
/-!
# Replacing what a pattern finds

A replacement walks through a text. A character at which the pattern finds nothing stays, and a part
that it finds is replaced as a whole. A text is left alone when every part of it that the pattern
reads would be replaced by itself, in particular when there is no such part.

## Main definitions

* `Raceway.Pattern.Walks`: a walk along the rest of a text, and its pieces.
* `Raceway.Pattern.Rewrites`: what a replacement does to the rest of a text.
* `Raceway.Avoids`: no part of a text is of a certain kind.
* `Raceway.Pattern.Alters`: a replacement alters a part of a text.

## Main results

* `Raceway.Pattern.walks_pieces`: the pieces of a text are those of a walk.
* `Raceway.Pattern.rewrites_replaceAll`: a replacement is such a walk.
* `Raceway.Pattern.replaceAll_eq_self`: a text with nothing to alter is left alone.
* `Raceway.Pattern.Rewrites.avoids_of_length_eq`: where a replacement that shortens what it replaces
  keeps the length of a text, there was nothing to replace.
-/

namespace Raceway

/-- A kind of parts of texts, by what comes before, the part, and what comes behind. -/
abbrev PartKind : Type :=
  List Char → List Char → List Char → Prop

/-- No part of the text is of the kind. -/
def Avoids (kind : PartKind) (text : List Char) : Prop :=
  ∀ x w z, text = x ++ (w ++ z) → ¬ kind x w z

/-! ### Matches -/

theorem lookup_map_snd {α β : Type} (f : α → β) (l : List (ℕ × α)) (i : ℕ) :
    (l.map fun a => (a.1, f a.2)).lookup i = (l.lookup i).map f := by
  induction l with
  | nil => rfl
  | cons a l ih =>
    rw [List.map_cons, List.lookup_cons, List.lookup_cons, ih]
    cases i == a.1 <;> rfl

namespace Match

/-- The texts of the groups, the last one marked first. -/
def texts (m : Match) : List (ℕ × List Char) :=
  m.groups.map fun g => (g.1, g.2.text)

theorem groupText_eq (m : Match) {index : ℕ} (h : index ≠ 0) :
    m.groupText index = (m.texts.lookup index).getD [] := by
  rw [groupText, group?, if_neg h, texts, lookup_map_snd]

end Match

namespace Cursor

/-- The place between two parts of a text, where no group is marked. -/
def place (x y : List Char) : Cursor :=
  ⟨x.length, x.getLast?, y, []⟩

theorem between_place (x y : List Char) : (place x y).Between x y :=
  ⟨rfl, rfl, rfl⟩

end Cursor

namespace Pattern

open Cursor

variable {p : Pattern} {f : Match → List Char} {x y w z out : List Char} {m : Match}

/-- What the matcher finds at a place is read there. -/
theorem exists_reads_of_matchAt? (h : p.matchAt? (place x y) = some m) :
    ∃ z, y = m.text ++ z ∧ p.Reads x m.text z m.texts := by
  obtain ⟨w, z, t, rfl, ⟨ht, gs, hread, htexts⟩, hm⟩ :=
    exists_passes_of_matchThen h (between_place x y)
  obtain rfl := Option.some.inj hm
  have htext : (place x (w ++ z)).rest.take (t.offset - (place x (w ++ z)).offset) = w := by
    rw [ht.offset, place, List.length_append, Nat.add_sub_cancel_left, List.take_left]
  have hgroups : t.groups.map (fun g => (g.1, g.2.text)) = gs := htexts.trans (List.append_nil gs)
  refine ⟨z, by rw [htext], ?_⟩
  rw [Match.texts, hgroups, htext]
  exact hread

/-- Where the matcher finds nothing, nothing is read. -/
theorem not_finds_of_matchAt? (h : p.matchAt? (place x (w ++ z)) = none) : ¬ p.Finds x w z := by
  rintro ⟨gs, hread⟩
  have hsome := hread.isSome_matchThen (between_place x (w ++ z))
    (k := fun t => some (⟨x.length, (w ++ z).take (t.offset - x.length), t.groups⟩ : Match))
    fun _ _ => rfl
  rw [matchAt?] at h
  exact absurd h (Option.ne_none_iff_isSome.mpr hsome)

/-! ### The walk -/

/-- A walk along the rest of a text, behind a part of it that is passed, and the pieces that it cuts
the rest into. -/
inductive Walks (p : Pattern) : List Char → List Char → List Piece → Prop
  | nil (x : List Char) : Walks p x [] []
  | plain {x y : List Char} {c : Char} {ps : List Piece} (h : p.matchAt? (place x (c :: y)) = none)
    (rest : Walks p (x ++ [c]) y ps) : Walks p x (c :: y) (.plain c :: ps)
  | found {x y : List Char} {m : Match} {ps : List Piece}
    (h : p.matchAt? (place x (m.text ++ y)) = some m) (hread : p.Reads x m.text y m.texts)
    (rest : Walks p (x ++ m.text) y ps) : Walks p x (m.text ++ y) (.found m :: ps)

/-- The pieces of the rest of a text, where some characters are skipped. -/
theorem walks_piecesFrom (hp : p.nullable = false) {skip : ℕ} (hskip : skip ≤ y.length)
    (adjacent : Bool) :
    p.Walks (x ++ y.take skip) (y.drop skip)
      (p.piecesFrom skip adjacent x.length x.getLast? y) := by
  have hcounted {x y : List Char} {m : Match} (h : p.matchAt? (place x y) = some m) :
      m.text ≠ [] := by
    obtain ⟨z, -, hread⟩ := exists_reads_of_matchAt? h
    exact hread.ne_nil hp
  induction y generalizing skip adjacent x with
  | nil =>
    have hnone : p.counted? adjacent (place x []) = none := by
      rw [counted?, Option.filter_eq_none_iff]
      intro m hm
      obtain ⟨z, hz, -⟩ := exists_reads_of_matchAt? hm
      exact absurd (List.append_eq_nil_iff.mp hz.symm).1 (hcounted hm)
    rw [place] at hnone
    rw [piecesFrom, hnone, List.take_nil, List.drop_nil]
    exact .nil _
  | cons c y ih =>
    have hih {skip : ℕ} (hskip : skip ≤ y.length) (adjacent : Bool) :=
      ih hskip (x := x ++ [c]) adjacent
    simp only [List.length_append, List.length_singleton, List.getLast?_concat] at hih
    cases skip with
    | succ skip =>
      rw [piecesFrom, List.take_succ_cons, List.drop_succ_cons, List.append_cons]
      exact hih (Nat.le_of_succ_le_succ hskip) true
    | zero =>
      rw [piecesFrom, counted?, ← place, List.take_zero, List.append_nil, List.drop_zero]
      cases hmatch : p.matchAt? (place x (c :: y)) with
      | none =>
        refine .plain hmatch ?_
        have hrest := hih (Nat.zero_le _) false
        rwa [List.take_zero, List.append_nil] at hrest
      | some m =>
        obtain ⟨z, hz, hread⟩ := exists_reads_of_matchAt? hmatch
        obtain ⟨d, v, hv⟩ := List.exists_cons_of_ne_nil (hcounted hmatch)
        have hempty : m.text.isEmpty = false := by
          rw [hv]
          rfl
        rw [hv, List.cons_append, List.cons.injEq] at hz
        obtain ⟨rfl, rfl⟩ := hz
        have hrest := hih (List.length_append ▸ Nat.le_add_right v.length z.length) true
        rw [List.take_left, List.drop_left, List.append_assoc, List.singleton_append, ← hv] at hrest
        have hfound : p.Walks x (m.text ++ z) (.found m :: _) :=
          .found (by rwa [hv]) hread hrest
        rw [hv] at hfound
        simpa [Option.filter, hempty, hv] using hfound

/-- The pieces of a text are those of a walk along it. -/
theorem walks_pieces (hp : p.nullable = false) (text : List Char) :
    p.Walks [] text (p.pieces text) :=
  walks_piecesFrom hp (x := []) (Nat.zero_le text.length) false

/-- What a replacement does to the rest of a text, behind a part of it that it has passed. -/
inductive Rewrites (p : Pattern) (f : Match → List Char) :
    List Char → List Char → List Char → Prop
  | nil (x : List Char) : Rewrites p f x [] []
  | plain {x y out : List Char} {c : Char} (h : p.matchAt? (place x (c :: y)) = none)
    (rest : Rewrites p f (x ++ [c]) y out) : Rewrites p f x (c :: y) (c :: out)
  | found {x y out : List Char} {m : Match} (h : p.matchAt? (place x (m.text ++ y)) = some m)
    (hread : p.Reads x m.text y m.texts) (rest : Rewrites p f (x ++ m.text) y out) :
    Rewrites p f x (m.text ++ y) (f m ++ out)

/-- A replacement puts something in for the pieces. -/
theorem Walks.rewrites {ps : List Piece} (h : p.Walks x y ps) (f : Match → List Char) :
    p.Rewrites f x y (ps.flatMap (Piece.replace f)) := by
  induction h with
  | nil x => exact .nil x
  | plain hnone _ ih => exact .plain hnone ih
  | found hmatch hread _ ih => exact .found hmatch hread ih

/-- A replacement is a walk along the whole text. -/
theorem rewrites_replaceAll (hp : p.nullable = false) (f : Match → List Char) (text : List Char) :
    p.Rewrites f [] text (p.replaceAll f text) :=
  (walks_pieces hp text).rewrites f

/-- A replacement keeps what all characters have in common, if its texts do. -/
theorem Rewrites.all {q : Char → Bool} (h : p.Rewrites f x y out)
    (hf : ∀ x z m, p.Reads x m.text z m.texts → m.text.all q = true → (f m).all q = true)
    (hy : y.all q = true) : out.all q = true := by
  induction h with
  | nil => exact hy
  | plain _ _ ih =>
    rw [List.all_cons, Bool.and_eq_true] at hy ⊢
    exact ⟨hy.1, ih hy.2⟩
  | found _ hread _ ih =>
    rw [List.all_append, Bool.and_eq_true] at hy ⊢
    exact ⟨hf _ _ _ hread hy.1, ih hy.2⟩

/-! ### Nothing to replace -/

/-- The replacement alters the part of a text, which the pattern reads. -/
def Alters (p : Pattern) (f : Match → List Char) : PartKind := fun x w z =>
  ∃ m : Match, m.text = w ∧ p.Reads x w z m.texts ∧ f m ≠ w

theorem Alters.finds (h : p.Alters f x w z) : p.Finds x w z :=
  let ⟨_, _, hread, _⟩ := h
  ⟨_, hread⟩

theorem Rewrites.eq_self (h : p.Rewrites f x y out)
    (hself : ∀ u w z, y = u ++ (w ++ z) → ¬ p.Alters f (x ++ u) w z) : out = y := by
  induction h with
  | nil => rfl
  | @plain x y out c _ _ ih =>
    rw [ih fun u w z hy => ?_]
    rw [List.append_assoc]
    exact hself (c :: u) w z (congrArg (c :: ·) hy)
  | @found x y out m _ hread _ ih =>
    have hm : f m = m.text := not_not.mp fun hne =>
      hself [] m.text y rfl ⟨m, rfl, by rwa [List.append_nil], hne⟩
    rw [hm, ih fun u w z hy => ?_]
    rw [List.append_assoc]
    exact hself (m.text ++ u) w z (by rw [hy, List.append_assoc])

/-- A text with nothing to alter is left alone. -/
theorem replaceAll_eq_self (hp : p.nullable = false) {text : List Char}
    (h : Avoids (p.Alters f) text) : p.replaceAll f text = text :=
  (rewrites_replaceAll hp f text).eq_self h

/-- A replacement of longer parts by shorter ones keeps no text from being shorter, unless there is
nothing to replace. -/
theorem Rewrites.length_le (h : p.Rewrites f x y out)
    (hf : ∀ x z m, p.Reads x m.text z m.texts → (f m).length < m.text.length) :
    out.length ≤ y.length := by
  induction h with
  | nil => exact le_rfl
  | plain _ _ ih => exact Nat.succ_le_succ ih
  | found _ hread _ ih =>
    rw [List.length_append, List.length_append]
    exact Nat.add_le_add (hf _ _ _ hread).le ih

/-- Where a replacement that shortens what it replaces keeps the length, there is nothing to
replace. -/
theorem Rewrites.avoids_of_length_eq (hp : p.nullable = false) (h : p.Rewrites f x y out)
    (hf : ∀ x z m, p.Reads x m.text z m.texts → (f m).length < m.text.length)
    (hlength : out.length = y.length) (u w z : List Char) (hy : y = u ++ (w ++ z)) :
    ¬ p.Finds (x ++ u) w z := by
  induction h generalizing u with
  | nil =>
    rintro ⟨gs, hread⟩
    obtain ⟨-, hwz⟩ := List.append_eq_nil_iff.mp hy.symm
    exact hread.ne_nil hp (List.append_eq_nil_iff.mp hwz).1
  | @plain x y out c hnone _ ih =>
    cases u with
    | nil =>
      rw [List.append_nil]
      exact not_finds_of_matchAt? (by rwa [← List.nil_append (w ++ z), ← hy])
    | cons d u =>
      obtain ⟨rfl, hrest⟩ := List.cons.inj hy
      rw [List.append_cons]
      exact ih (Nat.succ.inj hlength) u hrest
  | @found x y out m _ hread hrest ih =>
    -- Something was replaced, and so the text has become shorter.
    have hshort := hf _ _ _ hread
    have hle := hrest.length_le hf
    rw [List.length_append, List.length_append] at hlength
    omega

end Pattern

end Raceway
