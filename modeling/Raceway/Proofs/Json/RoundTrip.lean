import Mathlib
import Raceway.Proofs.Decimal.Numerals
import Raceway.Proofs.Json.Keys
import Raceway.Proofs.Results
/-!
# Reading what was written

A reader that starts in front of a written value takes that value off the front of the text and
stops behind it. Lines and columns only matter for errors, so they are left out here. Natural
numbers of 64 bits and strings of any characters are read back, and so are the members of an object
that is written without spacing.

## Main definitions

* `Raceway.Json.Reader.Takes`: a reader takes a value off the front of a text.

## Main results

* `Raceway.Json.Reader.takes_word` and `Raceway.Json.Reader.takes_str`: numbers and strings.
* `Raceway.Json.Reader.takes_recordMembers_cons`: a member of a record.
* `Raceway.Json.Reader.run_eq_ok`: reading a whole text.
* `Raceway.Json.Reader.head_of_run_record`: what a record starts with.
-/

namespace Raceway.Json.Reader

open Decimal

variable {α β : Type} {r : Reader α} {f : α → Reader β} {a : α} {b : β} {c : Char}
  {s t u : List Char}

/-- From a place in front of the first text, the reader gives the value, and it stops in front of
the second text. -/
def Takes (r : Reader α) (s : List Char) (a : α) (t : List Char) : Prop :=
  ∀ p : Place, p.rest = s → ∃ p', StateT.run r p = .ok (a, p') ∧ p'.rest = t

/-! ### Steps -/

theorem takes_pure (a : α) (s : List Char) : (pure a : Reader α).Takes s a s :=
  fun p hp => ⟨p, rfl, hp⟩

theorem Takes.bind (h : r.Takes s a t) (hf : (f a).Takes t b u) : (r >>= f).Takes s b u := by
  intro p hp
  obtain ⟨p₁, hr, hp₁⟩ := h p hp
  obtain ⟨p₂, hrun, hp₂⟩ := hf p₁ hp₁
  refine ⟨p₂, ?_, hp₂⟩
  rw [StateT.run_bind, hr]
  exact hrun

theorem takes_peek (s : List Char) : peek.Takes s s.head? s :=
  fun p hp => ⟨p, hp ▸ rfl, hp⟩

/-- A reader may go on with the place reached, of which only the text in front matters. -/
theorem takes_get_bind {g : Place → Reader α} (h : ∀ p, p.rest = s → (g p).Takes s a t) :
    (get >>= g : Reader α).Takes s a t :=
  fun p hp => h p hp p hp

theorem takes_fuel (s : List Char) : fuel.Takes s (s.length + 1) s :=
  fun p hp => ⟨p, hp ▸ rfl, hp⟩

theorem takes_modify {g : Place → Place} (h : ∀ p, p.rest = s → (g p).rest = t) :
    (modify g : Reader Unit).Takes s () t :=
  fun p hp => ⟨g p, rfl, h p hp⟩

theorem rest_advance (p : Place) : p.advance.rest = p.rest.tail := by
  unfold Place.advance
  split <;> simp_all

theorem takes_advance (c : Char) (s : List Char) : advance.Takes (c :: s) () s :=
  takes_modify fun p hp => by rw [rest_advance, hp, List.tail_cons]

theorem takes_next (c : Char) (s : List Char) : next.Takes (c :: s) (some c) s :=
  (takes_peek (c :: s)).bind ((takes_advance c s).bind (takes_pure _ _))

theorem rest_repeat_advance (n : ℕ) (p : Place) :
    (n.repeat Place.advance p).rest = p.rest.drop n := by
  induction n with
  | zero => rfl
  | succ n ih => rw [Nat.repeat, rest_advance, ih, List.tail_drop]

theorem takes_advanceBy (s t : List Char) : (advanceBy s.length).Takes (s ++ t) () t :=
  takes_modify fun p hp => by rw [rest_repeat_advance, hp, List.drop_left]

/-! ### Spacing -/

theorem rest_foldl_advance (l : List Char) (p : Place) :
    (l.foldl (fun p _ => p.advance) p).rest = p.rest.drop l.length := by
  induction l generalizing p with
  | nil => rfl
  | cons c l ih => rw [List.foldl_cons, ih, rest_advance, List.drop_tail, List.length_cons]

theorem rest_skipSpacing (p : Place) : (skipSpacing p).rest = p.rest.dropWhile isSpacing := by
  rw [skipSpacing, rest_foldl_advance]
  nth_rewrite 2 [← List.takeWhile_append_dropWhile (p := isSpacing) (l := p.rest)]
  exact List.drop_left

theorem takes_token (s : List Char) :
    token.Takes s (s.dropWhile isSpacing).head? (s.dropWhile isSpacing) :=
  (takes_modify fun p hp => by rw [rest_skipSpacing, hp]).bind (takes_peek _)

/-- In front of a token there is nothing to pass over. -/
theorem takes_token_cons (hc : isSpacing c = false) (s : List Char) :
    token.Takes (c :: s) (some c) (c :: s) := by
  have htoken := takes_token (c :: s)
  rwa [List.dropWhile_cons_of_neg (by simp [hc])] at htoken

theorem takes_valueToken (h : s.dropWhile isSpacing = c :: t) : valueToken.Takes s c (c :: t) := by
  have htoken := takes_token s
  rw [h] at htoken
  exact htoken.bind (takes_pure c (c :: t))

theorem takes_valueToken_cons (hc : isSpacing c = false) (s : List Char) :
    valueToken.Takes (c :: s) c (c :: s) :=
  takes_valueToken (List.dropWhile_cons_of_neg (by simp [hc]))

/-! ### Numbers -/

theorem le_ofDigitChars (ds : List Char) (n : ℕ) : n ≤ Nat.ofDigitChars 10 ds n := by
  rw [Nat.ofDigitChars_eq_ofDigitChars_zero]
  have hpow : 1 * n ≤ 10 ^ ds.length * n := Nat.mul_le_mul_right n (Nat.one_le_pow' _ 9)
  omega

/-- Digits are taken one after the other, up to the first character that is none. -/
theorem takeDigits_append {ds : List Char} (hd : ∀ c ∈ ds, c.isDigit = true)
    (ht : ∀ c, t.head? = some c → c.isDigit = false) {bound n : ℕ}
    (hbound : Nat.ofDigitChars 10 ds n < bound) (count : ℕ) :
    takeDigits bound n count (ds ++ t) = (Nat.ofDigitChars 10 ds n, count + ds.length, false) := by
  induction ds generalizing n count with
  | nil =>
    cases t with
    | nil => rfl
    | cons c t => simp [takeDigits, ht c rfl]
  | cons c ds ih =>
    obtain ⟨hc, hd⟩ := List.forall_mem_cons.mp hd
    rw [Nat.ofDigitChars_cons] at hbound ⊢
    have hfits : 10 * n + (c.toNat - '0'.toNat) < bound := (le_ofDigitChars ds _).trans_lt hbound
    rw [List.cons_append, takeDigits, if_pos hc, if_pos hfits, ih hd hbound, List.length_cons,
      Nat.add_right_comm, Nat.add_assoc]

theorem takes_digits {ds : List Char} (hd : ∀ c ∈ ds, c.isDigit = true)
    (ht : ∀ c, t.head? = some c → c.isDigit = false) {bound n : ℕ}
    (hbound : Nat.ofDigitChars 10 ds n < bound) :
    (digits bound n).Takes (ds ++ t) (Nat.ofDigitChars 10 ds n, ds.length, false) t := by
  refine takes_get_bind fun p hp => ?_
  rw [hp, takeDigits_append hd ht hbound, Nat.zero_add]
  exact (takes_advanceBy ds t).bind (takes_pure _ _)

/-- What stands behind a whole number ends it. -/
def EndsNumber (t : List Char) : Prop :=
  ∀ c, t.head? = some c → c.isDigit = false ∧ c ≠ '.' ∧ c ≠ 'e' ∧ c ≠ 'E'

theorem takes_afterInteger (ht : EndsNumber t) (n : ℕ) :
    (afterInteger true n).Takes t (.nat (UInt64.ofNat n)) t := by
  refine (takes_peek t).bind ?_
  cases t with
  | nil => exact takes_pure _ _
  | cons c t =>
    obtain ⟨-, hpoint, he, hE⟩ := ht c rfl
    simp only [List.head?_cons]
    split
    · rename_i h
      exact absurd (Option.some.inj h) hpoint
    · rename_i h
      exact absurd (Option.some.inj h) he
    · rename_i h
      exact absurd (Option.some.inj h) hE
    · exact takes_pure _ _

/-- A number that is not zero does not start with a zero. -/
theorem exists_natText_cons {n : ℕ} (hn : n ≠ 0) : ∃ c ds, natText n = c :: ds ∧ c ≠ '0' := by
  induction n using Nat.strongRecOn with
  | ind n ih =>
    by_cases hlt : n < 10
    · refine ⟨n.digitChar, [], Nat.toDigits_of_lt_base hlt, ?_⟩
      interval_cases n <;> first | exact absurd rfl hn | decide
    · have hdigits : natText n = natText (n / 10) ++ [(n % 10).digitChar] :=
        Nat.toDigits_of_base_le (by decide) (by omega)
      obtain ⟨c, ds, htext, hc⟩ := ih (n / 10) (by omega) (by omega)
      exact ⟨c, ds ++ [(n % 10).digitChar], by rw [hdigits, htext, List.cons_append], hc⟩

theorem takes_unsigned {n : ℕ} (hn : n < UInt64.size) (ht : EndsNumber t) :
    (unsigned true).Takes (natText n ++ t) (.nat (UInt64.ofNat n)) t := by
  have hend : ∀ c, t.head? = some c → c.isDigit = false := fun c hc => (ht c hc).1
  by_cases hzero : n = 0
  · subst hzero
    refine (takes_next '0' t).bind ((takes_peek t).bind ?_)
    have hany : ¬ t.head?.any Char.isDigit := by
      cases t with
      | nil => simp
      | cons c t => simp [hend c rfl]
    rw [if_neg hany]
    exact takes_afterInteger ht 0
  · obtain ⟨c, ds, htext, hc⟩ := exists_natText_cons hzero
    have hdigits : ∀ d ∈ c :: ds, d.isDigit = true := fun d hd =>
      isDigit_of_mem_natText (n := n) (htext ▸ hd)
    obtain ⟨hdigit, hds⟩ := List.forall_mem_cons.mp hdigits
    have hvalue : Nat.ofDigitChars 10 ds (c.toNat - '0'.toNat) = n := by
      rw [← digitsValue_natText n, htext, digitsValue_eq, Nat.ofDigitChars_cons, Nat.mul_zero,
        Nat.zero_add]
    rw [htext]
    refine (takes_next c (ds ++ t)).bind ?_
    rw [← hvalue] at hn
    simp only [hc, if_false, hdigit, if_true]
    refine (takes_digits hds hend hn).bind ?_
    rw [hvalue]
    exact takes_afterInteger ht n

theorem eq_of_isSpacing (h : isSpacing c = true) : c = ' ' ∨ c = '\n' ∨ c = '\t' ∨ c = '\r' := by
  simpa [isSpacing, or_assoc] using h

theorem isSpacing_of_isDigit (h : c.isDigit = true) : isSpacing c = false := by
  by_contra hspacing
  rw [Bool.not_eq_false] at hspacing
  rcases eq_of_isSpacing hspacing with rfl | rfl | rfl | rfl <;> exact absurd h (by decide)

theorem takes_numeric {n : ℕ} (hn : n < UInt64.size) (ht : EndsNumber t) (expected : String) :
    (numeric expected).Takes (natText n ++ t) (.nat (UInt64.ofNat n)) t := by
  have hunsigned := takes_unsigned hn ht
  obtain ⟨c, ds, htext⟩ := List.exists_cons_of_ne_nil (natText_ne_nil n)
  have hdigit : c.isDigit = true := isDigit_of_mem_natText (n := n) (htext ▸ List.mem_cons_self)
  have hminus : c ≠ '-' := by
    rintro rfl
    exact Bool.noConfusion hdigit
  rw [htext] at hunsigned ⊢
  refine (takes_valueToken_cons (isSpacing_of_isDigit hdigit) (ds ++ t)).bind ?_
  rw [if_pos (.inr hdigit), number, if_neg hminus]
  exact hunsigned

/-- A natural number of 64 bits is read back. -/
theorem takes_word {n : ℕ} (hn : n < UInt64.size) (ht : EndsNumber t) :
    (word 64).Takes (natText n ++ t) n t := by
  refine (takes_numeric hn ht _).bind ?_
  have hvalue : (UInt64.ofNat n).toNat = n := UInt64.toNat_ofNat_of_lt' hn
  have hfits : n < 1 <<< 64 := by
    rw [Nat.one_shiftLeft]
    exact hn
  simp only [hvalue, hfits, if_true]
  exact takes_pure n t

theorem takes_word_map (w : UInt64) (ht : EndsNumber t) (g : UInt64 → α) :
    (word 64 >>= fun n => pure (g (UInt64.ofNat n))).Takes (natText w.toNat ++ t) (g w) t := by
  have htakes := (takes_word w.toNat_lt ht).bind (takes_pure (g (UInt64.ofNat w.toNat)) t)
    (f := fun n => pure (g (UInt64.ofNat n)))
  rwa [UInt64.ofNat_toNat] at htakes

/-! ### Strings -/

theorem hexValue4?_hexDigit :
    ∀ n < 0x20, hexValue4? ['0', '0', hexDigit (n / 16), hexDigit n] = some n := by
  decide

theorem takes_hex4 {n : ℕ} (hn : n < 0x20) (t : List Char) :
    hex4.Takes ('0' :: '0' :: hexDigit (n / 16) :: hexDigit n :: t) n t := by
  refine takes_get_bind fun p hp => ?_
  rw [hp]
  refine (takes_advanceBy ['0', '0', hexDigit (n / 16), hexDigit n] t).bind ?_
  simp only [List.take_succ_cons, List.take_zero, hexValue4?_hexDigit n hn]
  exact takes_pure n t

theorem takes_escape_code {n : ℕ} (hn : n < 0x20) (t : List Char) :
    escape.Takes ('u' :: '0' :: '0' :: hexDigit (n / 16) :: hexDigit n :: t) (Char.ofNat n) t := by
  refine (takes_next 'u' _).bind ((takes_hex4 hn t).bind ?_)
  rw [if_neg (by omega), if_pos (by omega)]
  exact takes_pure _ t

theorem takes_escape_short {d : Char} (hu : d ≠ 'u') (h : shortEscape? d = some c) (t : List Char) :
    escape.Takes (d :: t) c t := by
  refine (takes_next d t).bind ?_
  split
  · rename_i heq
    cases heq
  · rename_i heq
    exact absurd (Option.some.inj heq) hu
  · rename_i heq
    rw [← Option.some.inj heq, h]
    exact takes_pure c t

/-- A character is written as itself, or as a backslash with an escape that is read back. -/
theorem escapeChar_spec (c : Char) :
    (escapeChar c = [c] ∧ c ≠ '"' ∧ c ≠ '\\' ∧ ¬ c.toNat < 0x20) ∨
      ∃ e, escapeChar c = '\\' :: e ∧ ∀ t, escape.Takes (e ++ t) c t := by
  have hcode {n : ℕ} (h : c.toNat = n) : Char.ofNat n = c := by rw [← h, Char.ofNat_toNat]
  rw [escapeChar]
  split_ifs with hquote hback hplain hbs htab hfeed hff hreturn
  · exact .inr ⟨['"'], rfl, takes_escape_short (by decide) (congrArg some hquote.symm)⟩
  · exact .inr ⟨['\\'], rfl, takes_escape_short (by decide) (congrArg some hback.symm)⟩
  · exact .inl ⟨rfl, hquote, hback, not_lt_of_ge hplain⟩
  · exact .inr ⟨['b'], rfl, takes_escape_short (by decide) (congrArg some (hcode hbs))⟩
  · exact .inr ⟨['t'], rfl, takes_escape_short (by decide) (congrArg some htab.symm)⟩
  · exact .inr ⟨['n'], rfl, takes_escape_short (by decide) (congrArg some hfeed.symm)⟩
  · exact .inr ⟨['f'], rfl, takes_escape_short (by decide) (congrArg some (hcode hff))⟩
  · exact .inr ⟨['r'], rfl, takes_escape_short (by decide) (congrArg some hreturn.symm)⟩
  · refine .inr ⟨_, rfl, fun t => ?_⟩
    have hescape := takes_escape_code (not_le.mp hplain) t
    rwa [hcode rfl] at hescape

/-- The characters of a string are read back, behind those that were taken before. -/
theorem takes_stringTail (cs taken t : List Char) {n : ℕ} (hn : cs.length < n) :
    (stringTail escape n taken).Takes (cs.flatMap escapeChar ++ '"' :: t) (taken.reverse ++ cs)
      t := by
  obtain ⟨n, rfl⟩ : ∃ k, n = k + 1 := ⟨n - 1, by omega⟩
  induction cs generalizing taken n with
  | nil =>
    rw [List.append_nil]
    exact (takes_next '"' t).bind (takes_pure taken.reverse t)
  | cons c cs ih =>
    rw [List.length_cons] at hn
    obtain ⟨n, rfl⟩ : ∃ k, n = k + 1 := ⟨n - 1, by omega⟩
    have hrest := ih (c :: taken) n (by omega)
    rw [List.reverse_cons, List.append_assoc, List.singleton_append] at hrest
    rw [List.flatMap_cons, List.append_assoc]
    rcases escapeChar_spec c with ⟨hchar, hquote, hback, hplain⟩ | ⟨e, hchar, hescape⟩
    · rw [hchar]
      refine (takes_next c _).bind ?_
      split
      · rename_i heq
        cases heq
      · rename_i heq
        exact absurd (Option.some.inj heq) hquote
      · rename_i heq
        exact absurd (Option.some.inj heq) hback
      · rename_i heq
        rw [← Option.some.inj heq, if_neg hplain]
        exact hrest
    · rw [hchar]
      exact (takes_next '\\' _).bind ((hescape _).bind hrest)

theorem length_le_length_flatMap (cs : List Char) : cs.length ≤ (cs.flatMap escapeChar).length := by
  induction cs with
  | nil => exact le_rfl
  | cons c cs ih =>
    have hone : 1 ≤ (escapeChar c).length := by
      rcases escapeChar_spec c with ⟨hchar, -⟩ | ⟨e, hchar, -⟩ <;> simp [hchar]
    rw [List.flatMap_cons, List.length_append, List.length_cons]
    omega

theorem toList_quoted (s : String) :
    (quoted s).toList = '"' :: (s.toList.flatMap escapeChar ++ ['"']) := by
  rw [quoted, String.toList_ofList]
  rfl

/-- Strings are written without line feeds. -/
theorem not_mem_quoted (s : String) : '\n' ∉ (quoted s).toList := by
  have hdigit : ∀ n < 16, '\n' ≠ (Nat.toDigits 16 n).headD '0' := by decide
  have hhex (n : ℕ) : '\n' ≠ hexDigit n := hdigit (n % 16) (Nat.mod_lt n (by decide))
  have hchar (c : Char) : '\n' ∉ escapeChar c := by
    by_cases hplain : c.toNat ≥ 0x20
    · have hne : '\n' ≠ c := by
        rintro rfl
        exact absurd hplain (by decide)
      rw [escapeChar, if_pos hplain]
      split_ifs <;> simp [hne]
    · rw [escapeChar, if_neg hplain]
      split_ifs <;> simp [hhex]
  simp [toList_quoted, List.mem_flatMap, hchar]

theorem takes_stringBody (s : String) (t : List Char) :
    stringBody.Takes (s.toList.flatMap escapeChar ++ '"' :: t) s t := by
  have hlength := length_le_length_flatMap s.toList
  have htail := takes_stringTail s.toList [] t
    (n := (s.toList.flatMap escapeChar ++ '"' :: t).length + 1) (by rw [List.length_append]; omega)
  refine (takes_fuel _).bind (htail.bind ?_)
  rw [List.reverse_nil, List.nil_append, String.ofList_toList]
  exact takes_pure s t

/-- A string is read back. -/
theorem takes_str (s : String) (t : List Char) : str.Takes ((quoted s).toList ++ t) s t := by
  rw [toList_quoted, List.cons_append, List.append_assoc]
  refine (takes_valueToken_cons (by decide) _).bind ?_
  exact (takes_advance '"' _).bind (takes_stringBody s t)

theorem takes_str_map (s : String) (t : List Char) (g : String → α) :
    (str >>= fun s => pure (g s)).Takes ((quoted s).toList ++ t) (g s) t :=
  (takes_str s t).bind (takes_pure (g s) t)

/-! ### Members -/

section

variable {first : Bool}

/-- The first key stands in front. -/
theorem takes_hasKey_first (k : String) (t : List Char) :
    (hasKey true).Takes ((quoted k).toList ++ t) true ((quoted k).toList ++ t) := by
  rw [toList_quoted, List.cons_append]
  exact (takes_token_cons (by decide) _).bind (takes_pure true _)

/-- Each further key stands behind a comma. -/
theorem takes_hasKey_next (k : String) (t : List Char) :
    (hasKey false).Takes (',' :: ((quoted k).toList ++ t)) true ((quoted k).toList ++ t) := by
  rw [toList_quoted, List.cons_append]
  refine (takes_token_cons (by decide) _).bind ((takes_advance ',' _).bind ?_)
  exact (takes_token_cons (by decide) _).bind (takes_pure true _)

theorem takes_hasKey_last (first : Bool) (s : List Char) :
    (hasKey first).Takes ('\x7d' :: s) false ('\x7d' :: s) :=
  (takes_token_cons (by decide) s).bind (takes_pure false ('\x7d' :: s))

theorem takes_key (k : String) (t : List Char) : key.Takes ((quoted k).toList ++ t) k t := by
  rw [toList_quoted, List.cons_append, List.append_assoc]
  exact (takes_advance '"' _).bind (takes_stringBody k t)

theorem takes_colon (t : List Char) : colon.Takes (':' :: t) () t :=
  (takes_token_cons (by decide) t).bind (takes_advance ':' t)

variable {fields : List (Field α)} {field : Field α} {k : String} {seen : List String} {n : ℕ}

/-- One member after the other is read into the record. -/
theorem takes_recordMembers_cons {a' : α} {result : α × List String}
    (hkey : (hasKey first).Takes s true ((quoted k).toList ++ ':' :: t))
    (hfield : fields.find? (·.name == k) = some field) (hseen : seen.contains k = false)
    (hset : (field.set a).Takes t a' u) {v : List Char}
    (hrest : (recordMembers fields n (k :: seen) false a').Takes u result v) :
    (recordMembers fields (n + 1) seen first a).Takes s result v := by
  refine hkey.bind ((takes_key k (':' :: t)).bind ?_)
  rw [hfield]
  simp only [hseen, Bool.false_eq_true, if_false]
  exact (takes_colon t).bind (hset.bind hrest)

/-- The members end in front of the closing brace. -/
theorem takes_recordMembers_nil :
    (recordMembers fields (n + 1) seen first a).Takes ('\x7d' :: s) (a, seen) ('\x7d' :: s) :=
  (takes_hasKey_last first s).bind (takes_pure (a, seen) ('\x7d' :: s))

/-- A record in braces, behind spacing. -/
theorem takes_record {a' : α} (h : s.dropWhile isSpacing = '\x7b' :: t) (name : String)
    (hmembers : (recordMembers fields (t.length + 1) [] true a).Takes t (a', seen) ('\x7d' :: u))
    (hmissing : missing? fields seen = none) : (record name fields a).Takes s a' u := by
  refine (takes_valueToken h).bind ((takes_advance '\x7b' t).bind ((takes_fuel t).bind ?_))
  refine hmembers.bind ?_
  simp only [hmissing]
  exact (takes_advance '\x7d' u).bind (takes_pure a' u)

end

/-! ### Whole texts -/

/-- A text that a reader takes as a whole is read. -/
theorem run_eq_ok (h : r.Takes s a []) : run r s = .ok a := by
  have hgo : (run.go r).Takes s a [] := h.bind ((takes_token []).bind (takes_pure a []))
  obtain ⟨p, hrun, -⟩ := hgo (Place.start s) rfl
  rw [run, hrun]
  rfl

theorem exists_of_run_bind {p p' : Place} (h : StateT.run (r >>= f) p = .ok (b, p')) :
    ∃ a p₁, StateT.run r p = .ok (a, p₁) ∧ StateT.run (f a) p₁ = .ok (b, p') := by
  rw [StateT.run_bind] at h
  obtain ⟨⟨a, p₁⟩, hr, hf⟩ := bind_eq_ok h
  exact ⟨a, p₁, hr, hf⟩

/-- What starts a value is the first character behind spacing. -/
theorem head_of_run_valueToken {p p' : Place} (h : StateT.run valueToken p = .ok (c, p')) :
    (p.rest.dropWhile isSpacing).head? = some c := by
  obtain ⟨o, p₁, htoken, hrun⟩ := exists_of_run_bind h
  obtain ⟨p₂, htakes, -⟩ := takes_token p.rest p rfl
  obtain ⟨rfl, rfl⟩ := Prod.mk.inj (Except.ok.inj (htoken.symm.trans htakes))
  cases hhead : (p.rest.dropWhile isSpacing).head? with
  | none =>
    rw [hhead] at hrun
    exact (yields_failNext (P := fun _ => False) _ _ _ hrun).elim
  | some d =>
    rw [hhead] at hrun
    cases hrun
    rfl

/-- What is read as a record starts with a bracket or a brace, behind spacing. -/
theorem head_of_run_record {name : String} {fields : List (Field α)} {a a' : α}
    (h : run (record name fields a) s = .ok a') :
    (s.dropWhile isSpacing).head? = some '[' ∨ (s.dropWhile isSpacing).head? = some '\x7b' := by
  obtain ⟨⟨a₁, p₁⟩, hgo, -⟩ := map_eq_ok h
  obtain ⟨a₂, p₂, hrecord, -⟩ := exists_of_run_bind hgo
  obtain ⟨c, p₃, hvalue, hrun⟩ := exists_of_run_bind hrecord
  have hhead : (s.dropWhile isSpacing).head? = some c := head_of_run_valueToken hvalue
  split at hrun
  · exact .inl hhead
  · exact .inr hhead
  · exact (yields_unexpected (P := fun _ => False) _ _ _ hrun).elim

end Raceway.Json.Reader
