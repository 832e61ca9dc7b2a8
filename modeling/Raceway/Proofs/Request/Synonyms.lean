import Mathlib
import Raceway.Proofs.Pattern.Finding
import Raceway.Proofs.Request.Phrases
import Raceway.Proofs.Results
import Raceway.Proofs.Text.Blank
import Raceway.Request.Document
/-!
# The order of synonyms

The synonyms of a rulebook are applied one after the other, the one with the longest phrase first.
The blanks around a phrase count for its length, though they are no part of the words that are
replaced. So shorter words come before longer ones only if there are blanks around them. Unless
there are, they are not replaced inside longer words, which would break these up.

## Main definitions

* `Raceway.Synonym.width`: the length of the words that are replaced.
* `Raceway.Synonym.BreaksUp`: a synonym replaces a part of the words of another one.

## Main results

* `Raceway.Synonym.width_le_of_before`: trimmed words come before shorter words only.
* `Raceway.Synonym.not_breaksUp`: so they do not break up the words of a synonym behind them.
* `Raceway.Rulebook.replaceSynonyms_longest_first`: the order of the synonyms of a document.
-/

namespace Raceway

open Pattern Text

namespace Synonym

variable {a b : Synonym} {x w z text : List Char}

/-! ### Lengths -/

/-- The length, in bytes, of the words that are replaced. -/
def width (s : Synonym) : ℕ :=
  (String.ofList s.words).utf8ByteSize

/-- There are no blanks around the words. -/
def IsTrimmed (s : Synonym) : Prop :=
  s.words = s.phrase.toList

theorem width_le (s : Synonym) : s.width ≤ s.phrase.utf8ByteSize := by
  obtain ⟨u, v, hphrase, -, -⟩ := exists_append_trim s.phrase.toList
  have hsize : s.phrase.utf8ByteSize = (String.ofList u).utf8ByteSize +
      (s.width + (String.ofList v).utf8ByteSize) := by
    rw [width, words, ← String.utf8ByteSize_append, ← String.utf8ByteSize_append,
      ← String.ofList_append, ← String.ofList_append, ← hphrase, String.ofList_toList]
  omega

theorem IsTrimmed.width_eq (h : a.IsTrimmed) : a.width = a.phrase.utf8ByteSize := by
  rw [width, h, String.ofList_toList]

/-! ### The order -/

theorem before_iff : before a b = true ↔ b.phrase.utf8ByteSize < a.phrase.utf8ByteSize ∨
    a.phrase.utf8ByteSize = b.phrase.utf8ByteSize ∧ a.phrase ≤ b.phrase := by
  rw [before, Bool.or_eq_true, Bool.and_eq_true, decide_eq_true_eq, beq_iff_eq,
    Bool.not_eq_true', decide_eq_false_iff_not, String.not_lt, gt_iff_lt]

theorem before_trans (a b c : Synonym) (hab : before a b = true) (hbc : before b c = true) :
    before a c = true := by
  rw [before_iff] at *
  rcases hab with hab | ⟨hab, hle⟩
  · left
    omega
  · rcases hbc with hbc | ⟨hbc, hle'⟩
    · left
      omega
    · exact .inr ⟨hab.trans hbc, hle.trans hle'⟩

theorem before_total (a b : Synonym) : (before a b || before b a) = true := by
  rw [Bool.or_eq_true, before_iff, before_iff]
  rcases lt_trichotomy a.phrase.utf8ByteSize b.phrase.utf8ByteSize with h | h | h
  · exact .inr (.inl h)
  · exact (le_total a.phrase b.phrase).imp (fun hle => .inr ⟨h, hle⟩) fun hle => .inr ⟨h.symm, hle⟩
  · exact .inl (.inl h)

/-- Words without blanks around them come before words that are not longer. -/
theorem width_le_of_before (hab : before a b = true) (htrimmed : a.IsTrimmed) :
    b.width ≤ a.width := by
  have hsize : b.phrase.utf8ByteSize ≤ a.phrase.utf8ByteSize := by
    rcases before_iff.mp hab with h | ⟨h, -⟩
    · exact h.le
    · exact h.ge
  rw [htrimmed.width_eq]
  exact b.width_le.trans hsize

/-! ### Words in a text -/

theorem nullable_pattern (h : a.words ≠ []) : a.pattern.nullable = false := by
  obtain ⟨c, cs, hwords⟩ := List.exists_cons_of_ne_nil h
  rw [pattern, hwords]
  cases cs <;> rfl

/-- A synonym replaces as many characters as there are in its words. -/
theorem length_of_finds (h : a.pattern.Finds x w z) : w.length = a.words.length := by
  obtain ⟨gs, hread⟩ := h
  obtain ⟨u, v, _, _, rfl, -, hstart, hrest⟩ := Reads.exists_of_seq hread
  obtain ⟨w, e, _, _, rfl, -, hwords, hend⟩ := Reads.exists_of_seq hrest
  obtain ⟨rfl, -, -⟩ := Wording.edge_iff.mp hstart
  obtain ⟨rfl, -, -⟩ := Wording.edge_iff.mp hend
  rw [List.nil_append, List.append_nil]
  exact (Wording.forall₂_of_reads_anyCase hwords).length_eq.symm

/-- A match of the first synonym lies inside words of the second one, and is not all of them. -/
def BreaksUp (a b : Synonym) (text : List Char) : Prop :=
  ∃ x w z, text = x ++ (w ++ z) ∧ b.pattern.Finds x w z ∧
    ∃ m ∈ a.pattern.findAll text, x.length ≤ m.start ∧ m.stop ≤ x.length + w.length ∧ m.text ≠ w

/-- Only shorter words break up other words. -/
theorem BreaksUp.length_lt (h : a.BreaksUp b text) (ha : a.words ≠ []) :
    a.words.length < b.words.length := by
  obtain ⟨x, w, z, htext, hfinds, m, hm, hstart, hstop, hne⟩ := h
  obtain ⟨u, v, htext', hplace, hread⟩ := exists_reads_of_mem_findAll (nullable_pattern ha) hm
  rw [← length_of_finds ⟨_, hread⟩, ← length_of_finds hfinds]
  by_contra hle
  -- The match is as long as the words, so it starts where they start.
  rw [Match.stop] at hstop
  have hx : x.length = u.length := by omega
  have hw : w.length = m.text.length := by omega
  obtain ⟨-, hparts⟩ := List.append_inj (htext.symm.trans htext') hx
  exact hne (List.append_inj hparts hw).1.symm

/-- Words without blanks around them do not break up the words of a synonym behind them. -/
theorem not_breaksUp (hab : before a b = true) (htrimmed : a.IsTrimmed) (ha : a.words ≠ [])
    (hwidth : a.words.length < b.words.length → a.width < b.width) : ¬ a.BreaksUp b text := by
  intro h
  exact absurd (width_le_of_before hab htrimmed) (not_le.mpr (hwidth (h.length_lt ha)))

end Synonym

namespace Rulebook

variable {doc : RulebookEntry} {book : Rulebook}

/-! ### The synonyms of a rulebook -/

/-- The synonyms of a rulebook are those of its document, each with some words, and in order. -/
theorem synonyms_of_ofDoc (h : ofDoc doc = .ok book) :
    book.synonyms.Perm (doc.synonyms.map fun entry => ⟨entry.1, entry.2⟩) ∧
      (∀ s ∈ book.synonyms, s.words ≠ []) ∧
      book.synonyms.Pairwise fun a b => Synonym.before a b = true := by
  rw [ofDoc] at h
  split at h
  · cases h
  obtain ⟨synonyms, hsynonyms, h⟩ := bind_eq_ok h
  obtain ⟨rules, -, h⟩ := bind_eq_ok h
  obtain rfl := Except.ok.inj h
  have hchecked {entry : String × String} {s : Synonym} (hs : synonym entry = .ok s) :
      s = ⟨entry.1, entry.2⟩ ∧ s.words ≠ [] := by
    rw [synonym] at hs
    split at hs
    · cases hs
    · rename_i hwords
      obtain rfl := Except.ok.inj hs
      exact ⟨rfl, by rwa [List.isEmpty_iff] at hwords⟩
  have hentries : synonyms = doc.synonyms.map fun entry => ⟨entry.1, entry.2⟩ := by
    have hpairs := (mapM_eq_ok_iff.mp hsynonyms).imp fun _ _ hs => (hchecked hs).1.symm
    rwa [← List.forall₂_map_left_iff (R := Eq), List.forall₂_eq_eq_eq, eq_comm] at hpairs
  refine ⟨hentries ▸ List.mergeSort_perm _ _, fun s hs => ?_,
    List.pairwise_mergeSort Synonym.before_trans Synonym.before_total _⟩
  obtain ⟨entry, -, hentry⟩ := exists_of_mem_mapM hsynonyms (List.mem_mergeSort.mp hs)
  exact (hchecked hentry).2

/-- The synonyms up to a place are applied first, then the one there, and then those behind it. -/
theorem replaceSynonyms_append {before after : List Synonym} {a : Synonym}
    (h : book.synonyms = before ++ a :: after) (text : List Char) :
    book.replaceSynonyms text = { book with synonyms := after }.replaceSynonyms
      (a.apply ({ book with synonyms := before }.replaceSynonyms text)) := by
  simp only [replaceSynonyms, h, List.foldl_append, List.foldl_cons]

/-- The synonyms of a rulebook are those of its document, and each is applied to what the ones
before it make of a text. A longer phrase comes before a shorter one, and of two phrases of one
length the first in the order of characters. So words come before longer ones only if there are
blanks around them. Unless there are, they do not break up the words of a synonym behind them. Words
are compared by their bytes, so this takes it that fewer characters are fewer bytes. -/
theorem replaceSynonyms_longest_first (hbook : ofDoc doc = .ok book) :
    book.synonyms.Perm (doc.synonyms.map fun entry => ⟨entry.1, entry.2⟩) ∧
      book.synonyms.Pairwise (fun a b => b.phrase.utf8ByteSize < a.phrase.utf8ByteSize ∨
        a.phrase.utf8ByteSize = b.phrase.utf8ByteSize ∧ a.phrase ≤ b.phrase) ∧
      book.synonyms.Pairwise (fun a b => a.width < b.width → ¬ a.IsTrimmed) ∧
      ∀ before a after, book.synonyms = before ++ a :: after → ∀ text,
        book.replaceSynonyms text = { book with synonyms := after }.replaceSynonyms
          (a.apply ({ book with synonyms := before }.replaceSynonyms text)) ∧
        (a.IsTrimmed → ∀ b ∈ after, (a.words.length < b.words.length → a.width < b.width) →
          ¬ a.BreaksUp b ({ book with synonyms := before }.replaceSynonyms text)) := by
  obtain ⟨hperm, hwords, horder⟩ := synonyms_of_ofDoc hbook
  refine ⟨hperm, horder.imp Synonym.before_iff.mp, horder.imp fun hab hwidth htrimmed => ?_,
    fun before a after hsynonyms text => ⟨replaceSynonyms_append hsynonyms text,
      fun htrimmed b hb hwidth => ?_⟩⟩
  · exact absurd (Synonym.width_le_of_before hab htrimmed) (not_le.mpr hwidth)
  · rw [hsynonyms] at hwords horder
    have hab := (List.pairwise_cons.mp (List.pairwise_append.mp horder).2.1).1 b hb
    have ha := hwords a (List.mem_append_right _ List.mem_cons_self)
    exact Synonym.not_breaksUp hab htrimmed ha hwidth

/-- A hard curve is replaced before a curve is, whose words are among those of the hard one. -/
theorem replaceSynonyms_longest_first_curve :
    let doc : RulebookEntry :=
      { synonyms := [("curve", "bend"), ("hard curve", "sharp curve")] }
    let request := "hard curve left".toList
    ∃ book, ofDoc doc = .ok book ∧
      book.synonyms = [⟨"hard curve", "sharp curve"⟩, ⟨"curve", "bend"⟩] ∧
      book.replaceSynonyms request = "sharp bend left".toList := by
  intro doc request
  have hloads : (ofDoc doc).toOption.isSome = true := rfl
  obtain ⟨book, hdoc⟩ := Option.isSome_iff_exists.mp hloads
  have hbook := ok_of_toOption hdoc
  obtain ⟨hperm, hsizes, -, hsteps⟩ := replaceSynonyms_longest_first hbook
  have hsynonyms : book.synonyms = [⟨"hard curve", "sharp curve"⟩, ⟨"curve", "bend"⟩] := by
    refine (List.perm_pair.mp hperm).resolve_left fun h => ?_
    rw [h, List.pairwise_pair] at hsizes
    revert hsizes
    decide
  have htext : book.replaceSynonyms request = Synonym.apply ⟨"curve", "bend"⟩
      (Synonym.apply ⟨"hard curve", "sharp curve"⟩ request) :=
    (hsteps [] _ _ hsynonyms request).1
  refine ⟨book, hbook, hsynonyms, htext.trans ?_⟩
  decide +kernel

/-- A curve with blanks around it is replaced before a hard curve is, and breaks this up. -/
theorem exists_breaksUp :
    let text := "\x7b\"synonyms\": \x7b\"     curve     \": \"bend\",
      \"hard curve\": \"sharp curve\"\x7d\x7d".toList
    let request := "hard curve left".toList
    ∃ book a b, ofText text = .ok book ∧ book.synonyms = [a, b] ∧ a.width < b.width ∧
      a.BreaksUp b request ∧ book.replaceSynonyms request = "hard bend left".toList := by
  intro text request
  let a : Synonym := ⟨"     curve     ", "bend"⟩
  let b : Synonym := ⟨"hard curve", "sharp curve"⟩
  have hdoc : ((Json.Reader.run RulebookEntry.reader text).toOption.any fun doc =>
      doc.synonyms = [(a.phrase, a.canonical), (b.phrase, b.canonical)] ∧
        (ofDoc doc).toOption.isSome) = true := by
    decide +kernel
  obtain ⟨doc, hread, hdoc⟩ := (Option.any_eq_true _ _).mp hdoc
  obtain ⟨hentries, hloads⟩ := of_decide_eq_true hdoc
  obtain ⟨book, hload⟩ := Option.isSome_iff_exists.mp hloads
  have hload := ok_of_toOption hload
  have hbook : ofText text = .ok book := by
    rw [ofText, ok_of_toOption hread]
    exact hload
  obtain ⟨hperm, -, horder⟩ := synonyms_of_ofDoc hload
  have hsynonyms : book.synonyms = [a, b] := by
    rw [hentries] at hperm
    refine (List.perm_pair.mp hperm).resolve_right fun h => ?_
    rw [h, List.pairwise_pair] at horder
    revert horder
    decide
  have hfound : (b.pattern.matchAt? (Cursor.place [] request)).any
        (fun m => m.text = "hard curve".toList) = true ∧
      (a.pattern.findAll request).any (fun m => m.start = 5 ∧ m.text = "curve".toList) = true := by
    decide +kernel
  obtain ⟨m, hm, htext⟩ := (Option.any_eq_true _ _).mp hfound.1
  obtain ⟨n, hn, hplace⟩ := List.any_eq_true.mp hfound.2
  obtain ⟨hstart, hcurve⟩ := of_decide_eq_true hplace
  obtain ⟨z, hz, hread⟩ := exists_reads_of_matchAt? hm
  rw [of_decide_eq_true htext] at hz hread
  have hbreaks : a.BreaksUp b request := by
    refine ⟨[], "hard curve".toList, z, ?_, ⟨_, hread⟩, n, hn, Nat.zero_le _, ?_, ?_⟩
    · rw [List.nil_append]
      exact hz
    · rw [Match.stop, hstart, hcurve]
      decide
    · rw [hcurve]
      decide
  have hreplaced : b.apply (a.apply request) = "hard bend left".toList := by decide +kernel
  have hsteps : book.replaceSynonyms request = b.apply (a.apply request) := by
    rw [replaceSynonyms, hsynonyms, List.foldl_cons, List.foldl_cons, List.foldl_nil]
  exact ⟨book, a, b, hbook, hsynonyms, by decide, hbreaks, hsteps.trans hreplaced⟩

end Rulebook

end Raceway
