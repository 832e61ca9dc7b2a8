import Mathlib
import Raceway.Proofs.Op.Argument
/-!
# Reading the line of an operation

The line of an operation joins its written arguments with commas. No comma outside of brackets
stands inside an argument, so splitting gives the arguments back, and each of them goes to its
place: the positional ones come first, the keyed ones behind them.

## Main definitions

* `Raceway.IsPiece`: a text that splitting leaves whole.
* `Raceway.Op.writtenCall`: the call that the line of an operation writes.

## Main results

* `Raceway.splitArguments_commaJoin`: splitting undoes joining.
* `Raceway.Call.ofLine_line`: the line of an operation is read as its call.
-/

namespace Raceway

open Text Decimal

/-! ### Pieces -/

/-- A text without blanks that is left whole where arguments are split. -/
structure IsPiece (t : List Char) : Prop where
  ne_nil : t ≠ []
  not_blank : ∀ c ∈ t, isBlank c = false
  splits : ∀ piece pieces,
    t.foldlM splitStep (0, piece, pieces) = .ok (0, t.reverse ++ piece, pieces)

/-- Characters that neither bracket nor separate are added to the piece. -/
theorem foldlM_splitStep {t : List Char} {depth : ℕ}
    (h : ∀ c ∈ t, c ≠ '[' ∧ c ≠ ']' ∧ (c = ',' → depth ≠ 0)) (piece : List Char)
    (pieces : List (List Char)) :
    t.foldlM splitStep (depth, piece, pieces) = .ok (depth, t.reverse ++ piece, pieces) := by
  induction t generalizing piece with
  | nil => rfl
  | cons c t ih =>
    obtain ⟨hopen, hclose, hcomma⟩ := h c List.mem_cons_self
    have hstep : splitStep (depth, piece, pieces) c = .ok (depth, c :: piece, pieces) := by
      rw [splitStep, if_neg hopen, if_neg hclose, if_neg fun hc => hcomma hc.1 hc.2]
    rw [foldlM_cons_of_ok hstep, ih fun d hd => h d (List.mem_cons_of_mem c hd),
      List.reverse_cons, List.append_assoc, List.singleton_append]

theorem splits_of_isPlain {t : List Char} (h : ∀ c ∈ t, isPlain c = true) (piece : List Char)
    (pieces : List (List Char)) :
    t.foldlM splitStep (0, piece, pieces) = .ok (0, t.reverse ++ piece, pieces) := by
  refine foldlM_splitStep (fun c hc => ⟨?_, ?_, fun heq => absurd heq ?_⟩) piece pieces <;>
    exact ne_of_isPlain (h c hc) (by decide)

theorem IsPiece.of_isPlain {t : List Char} (hne : t ≠ []) (h : ∀ c ∈ t, isPlain c = true) :
    IsPiece t where
  ne_nil := hne
  not_blank c hc := isBlank_of_isPlain (h c hc)
  splits := splits_of_isPlain h

/-- A key with a plain name in front of a piece makes a piece. -/
theorem IsPiece.keyed {key t : List Char} (hkey : ∀ c ∈ key, isPlain c = true) (ht : IsPiece t) :
    IsPiece (key ++ '=' :: t) where
  ne_nil := List.append_ne_nil_of_right_ne_nil _ (List.cons_ne_nil _ _)
  not_blank := by
    refine List.forall_mem_append.mpr ⟨fun c hc => isBlank_of_isPlain (hkey c hc), ?_⟩
    exact List.forall_mem_cons.mpr ⟨by decide, ht.not_blank⟩
  splits piece pieces := by
    have hequals : splitStep (0, key.reverse ++ piece, pieces) '=' =
        .ok (0, '=' :: (key.reverse ++ piece), pieces) := rfl
    rw [foldlM_append_of_ok (splits_of_isPlain hkey piece pieces), foldlM_cons_of_ok hequals,
      ht.splits]
    simp

/-- The brackets of a list keep its commas together. -/
theorem isPiece_listText (items : List ℤ) : IsPiece (Arg.list items).text.toList where
  ne_nil := by
    rw [toList_listText]
    exact List.cons_ne_nil _ _
  not_blank := by
    rw [toList_listText]
    refine List.forall_mem_cons.mpr ⟨by decide, List.forall_mem_append.mpr ⟨?_, ?_⟩⟩
    · exact fun c => isBlank_listInside
    · exact List.forall_mem_singleton.mpr (by decide)
  splits piece pieces := by
    have hopen : splitStep (0, piece, pieces) '[' = .ok (1, '[' :: piece, pieces) := rfl
    have hinside : ∀ c ∈ commaJoin (items.map fun n => (intText n).toList),
        c ≠ '[' ∧ c ≠ ']' ∧ (c = ',' → 1 ≠ 0) := fun c hc => by
      rcases mem_listInside hc with rfl | hp
      · decide
      · exact ⟨ne_of_isPlain hp (by decide), ne_of_isPlain hp (by decide), fun _ => by decide⟩
    rw [toList_listText, foldlM_cons_of_ok hopen,
      foldlM_append_of_ok (foldlM_splitStep hinside ('[' :: piece) pieces)]
    generalize commaJoin _ = inside
    simp [splitStep]

/-- A value is written with plain characters, or as a list. -/
theorem Value.text_cases {v : Value Float} (h : v.IsWritable) :
    (v.arg.text.toList ≠ [] ∧ ∀ c ∈ v.arg.text.toList, isPlain c = true) ∨
      ∃ items, v.arg = .list items := by
  cases v with
  | count n => exact .inl ⟨intText_ne_nil _, isPlain_intText _⟩
  | seed n => exact .inl ⟨intText_ne_nil _, isPlain_intText _⟩
  | number x =>
    obtain ⟨body, htext, hbody, -⟩ := doubleText_spec h
    obtain ⟨c, rest, rfl, -⟩ := hbody.head
    rw [arg, Arg.text, htext]
    exact .inl ⟨List.append_ne_nil_of_right_ne_nil _ (List.cons_ne_nil _ _),
      isPlain_of_isUnsigned hbody _⟩
  | columns cols => exact .inr ⟨_, rfl⟩
  | side s => cases s <;> exact .inl ⟨by decide, List.all_eq_true.mp (by decide)⟩

theorem Value.isPiece_text {v : Value Float} (h : v.IsWritable) : IsPiece v.arg.text.toList := by
  rcases text_cases h with ⟨hne, hplain⟩ | ⟨items, hitems⟩
  · exact .of_isPlain hne hplain
  · rw [hitems]
    exact isPiece_listText items

/-! ### Splitting -/

theorem foldlM_commaJoin {t : List Char} {ts : List (List Char)} (ht : IsPiece t)
    (hts : ∀ u ∈ ts, IsPiece u) (pieces : List (List Char)) :
    ∃ last front, (commaJoin (t :: ts)).foldlM splitStep (0, [], pieces) = .ok (0, last, front) ∧
      (last.reverse :: front).reverse = pieces.reverse ++ t :: ts := by
  induction ts generalizing t pieces with
  | nil =>
    refine ⟨t.reverse, pieces, ?_, by simp⟩
    rw [commaJoin, List.intercalate_singleton, ht.splits, List.append_nil]
  | cons u ts ih =>
    obtain ⟨last, front, hfold, hjoin⟩ := ih (hts u List.mem_cons_self)
      (fun v hv => hts v (List.mem_cons_of_mem u hv)) (t :: pieces)
    refine ⟨last, front, ?_, by simpa using hjoin⟩
    have hcomma : splitStep (0, t.reverse ++ [], pieces) ',' = .ok (0, [], t :: pieces) := by
      simp [splitStep]
    rw [commaJoin, List.intercalate_cons_cons, List.append_assoc,
      foldlM_append_of_ok (ht.splits [] pieces), List.singleton_append,
      foldlM_cons_of_ok hcomma]
    exact hfold

theorem isBlank_commaJoin {ts : List (List Char)} (h : ∀ t ∈ ts, IsPiece t) {c : Char}
    (hc : c ∈ commaJoin ts) : isBlank c = false := by
  rcases mem_commaJoin hc with rfl | ⟨t, ht, hc⟩
  · decide
  · exact (h t ht).not_blank c hc

theorem commaJoin_ne_nil {t : List Char} (ht : t ≠ []) (ts : List (List Char)) :
    commaJoin (t :: ts) ≠ [] := by
  cases ts with
  | nil => simpa [commaJoin] using ht
  | cons u ts => simp [commaJoin]

/-- Splitting undoes joining. -/
theorem splitArguments_commaJoin {ts : List (List Char)} (h : ∀ t ∈ ts, IsPiece t) :
    splitArguments (commaJoin ts) = .ok ts := by
  rw [splitArguments, trim_of_not_blank fun c => isBlank_commaJoin h]
  cases ts with
  | nil => rfl
  | cons t ts =>
    obtain ⟨ht, hts⟩ := List.forall_mem_cons.mp h
    obtain ⟨last, front, hfold, hjoin⟩ := foldlM_commaJoin ht hts []
    rw [if_neg (commaJoin_ne_nil ht.ne_nil ts), hfold]
    exact congrArg Except.ok hjoin

/-! ### Adding pieces to a call -/

/-- A text that may be the key of an argument. -/
structure IsKey (key : List Char) : Prop where
  isName : isName key = true
  plain : ∀ c ∈ key, isPlain c = true

theorem IsKey.ne_nil {key : List Char} (h : IsKey key) : key ≠ [] := by
  rintro rfl
  exact Bool.noConfusion h.isName

/-- Splitting at a character that is not in front of its first place. -/
theorem span_ne {sep : Char} {front : List Char} (h : ∀ c ∈ front, c ≠ sep) (rest : List Char) :
    (front ++ sep :: rest).span (· != sep) = (front, sep :: rest) := by
  rw [List.span_eq_takeWhile_dropWhile,
    List.takeWhile_append_of_pos fun c hc => bne_iff_ne.mpr (h c hc),
    List.dropWhile_append_of_pos fun c hc => bne_iff_ne.mpr (h c hc)]
  simp

theorem splitKeyed_keyed {key : List Char} (hkey : IsKey key) (t : List Char) :
    splitKeyed (key ++ '=' :: t) = some (key, t) := by
  have hhead : (key ++ '=' :: t).head? ≠ some '[' := by
    obtain ⟨c, rest, rfl⟩ := List.exists_cons_of_ne_nil hkey.ne_nil
    intro h
    exact ne_of_isPlain (hkey.plain c List.mem_cons_self) (by decide) (Option.some.inj h)
  rw [splitKeyed, if_neg hhead, span_ne fun c hc => ne_of_isPlain (hkey.plain c hc) (by decide)]
  simp only [trim_of_not_blank fun c hc => isBlank_of_isPlain (hkey.plain c hc), hkey.isName,
    if_true]

/-- A plain text or a list is no keyed argument. -/
theorem Value.splitKeyed_text {v : Value Float} (h : v.IsWritable) :
    splitKeyed v.arg.text.toList = none := by
  rcases text_cases h with ⟨-, hplain⟩ | ⟨items, hitems⟩
  · have hne : ∀ c ∈ v.arg.text.toList, (c != '=') = true := fun c hc =>
      bne_iff_ne.mpr (ne_of_isPlain (hplain c hc) (by decide))
    have hspan : v.arg.text.toList.span (· != '=') = (v.arg.text.toList, []) := by
      rw [List.span_eq_takeWhile_dropWhile, List.takeWhile_eq_self_iff.mpr hne,
        List.dropWhile_eq_nil_iff.mpr hne]
    rw [splitKeyed, hspan]
    exact ite_self none
  · rw [hitems, toList_listText]
    rfl

theorem Call.addPiece_positional {v : Value Float} (hv : v.IsWritable) {call : Call}
    (hc : call.keyed = []) :
    call.addPiece v.arg.text.toList =
      .ok { call with positional := call.positional ++ [v.reread] } := by
  have hp := v.isPiece_text hv
  rw [addPiece, trim_of_not_blank hp.not_blank, if_neg hp.ne_nil, v.splitKeyed_text hv,
    v.readArg_text hv]
  simp [hc]

theorem Call.addPiece_keyed {v : Value Float} (hv : v.IsWritable) {key : String}
    (hkey : IsKey key.toList) (call : Call) :
    call.addPiece (key.toList ++ '=' :: v.arg.text.toList) =
      .ok { call with keyed := call.keyed ++ [(key, v.reread)] } := by
  have hp := (v.isPiece_text hv).keyed hkey.plain
  rw [addPiece, trim_of_not_blank hp.not_blank, if_neg hp.ne_nil, splitKeyed_keyed hkey]
  simp only [v.readArg_text hv, String.ofList_toList]
  rfl

/-! ### The call of a line -/

/-- The written line leaves the argument out. -/
def Param.omits (param : Param) (value : Value Float) : Bool :=
  param.keyed && param.isDefault value

/-- The written arguments of parameters with their values. -/
def writtenTexts (pairs : List (Param × Value Float)) : List String :=
  pairs.filterMap fun (param, value) => param.write value

theorem writtenTexts_cons (x : Param × Value Float) (pairs : List (Param × Value Float)) :
    writtenTexts (x :: pairs) = (x.1.write x.2).toList ++ writtenTexts pairs := by
  change (List.filterMap (fun y : Param × Value Float => y.1.write y.2) (x :: pairs)) = _
  cases h : x.1.write x.2 with
  | none => exact List.filterMap_cons_none h
  | some text => exact List.filterMap_cons_some h

/-- The arguments that are written by position. -/
def positionalArgs (pairs : List (Param × Value Float)) : List Arg :=
  pairs.filterMap fun (param, value) => if param.keyed then none else some value.reread

/-- The arguments that are written with a key. -/
def keyedArgs (pairs : List (Param × Value Float)) : List (String × Arg) :=
  pairs.filterMap fun (param, value) =>
    if param.keyed && !param.omits value then some (param.name, value.reread) else none

/-- The parameters of an operation with their values. -/
def Op.pairs (op : Op Float) : List (Param × Value Float) :=
  op.verb.params.zip op.values

/-- The call that the line of an operation writes. -/
def Op.writtenCall (op : Op Float) : Call :=
  ⟨op.verb.name, positionalArgs op.pairs, keyedArgs op.pairs⟩

/-- Keyed parameters come behind the others. -/
def KeyedLast (pairs : List (Param × Value Float)) : Prop :=
  pairs.Pairwise fun x y => x.1.keyed = true → y.1.keyed = true

/-- Adding the written arguments in order fills in the call. -/
theorem foldlM_addPiece {pairs : List (Param × Value Float)} (hlast : KeyedLast pairs)
    (hkey : ∀ x ∈ pairs, IsKey x.1.name.toList) (hwrite : ∀ x ∈ pairs, x.2.IsWritable)
    {call : Call} (hcall : call.keyed = [] ∨ ∀ x ∈ pairs, x.1.keyed = true) :
    ((writtenTexts pairs).map String.toList).foldlM Call.addPiece call =
      .ok ⟨call.name, call.positional ++ positionalArgs pairs, call.keyed ++ keyedArgs pairs⟩ := by
  induction pairs generalizing call with
  | nil => simp [writtenTexts, positionalArgs, keyedArgs]; rfl
  | cons x pairs ih =>
    obtain ⟨param, value⟩ := x
    obtain ⟨hfirst, hlast⟩ := List.pairwise_cons.mp hlast
    obtain ⟨hk, hkey⟩ := List.forall_mem_cons.mp hkey
    obtain ⟨hw, hwrite⟩ := List.forall_mem_cons.mp hwrite
    cases hkeyed : param.keyed with
    | false =>
      have hc : call.keyed = [] := by
        refine hcall.resolve_right fun hall => ?_
        rw [(List.forall_mem_cons.mp hall).1] at hkeyed
        exact Bool.noConfusion hkeyed
      have hpiece : param.write value = some value.arg.text := by
        rw [Param.write, hkeyed]
        rfl
      rw [writtenTexts_cons, hpiece, Option.toList_some, List.singleton_append, List.map_cons,
        foldlM_cons_of_ok (Call.addPiece_positional hw hc)]
      refine (ih hlast hkey hwrite ?_).trans ?_
      · exact .inl hc
      · simp [positionalArgs, keyedArgs, hkeyed]
    | true =>
      have hall : ∀ y ∈ pairs, y.1.keyed = true := fun y hy => hfirst y hy hkeyed
      cases homit : param.isDefault value with
      | true =>
        have hpiece : param.write value = none := by
          rw [Param.write, hkeyed, homit]
          rfl
        rw [writtenTexts_cons, hpiece, Option.toList_none, List.nil_append,
          ih hlast hkey hwrite (.inr hall)]
        simp [positionalArgs, keyedArgs, hkeyed, homit, Param.omits]
      | false =>
        have hpiece : param.write value = some (param.name ++ "=" ++ value.arg.text) := by
          rw [Param.write, hkeyed, homit]
          rfl
        have htext : (param.name ++ "=" ++ value.arg.text).toList =
            param.name.toList ++ '=' :: value.arg.text.toList := by
          simp
        rw [writtenTexts_cons, hpiece, Option.toList_some, List.singleton_append, List.map_cons,
          htext, foldlM_cons_of_ok (Call.addPiece_keyed hw hk call)]
        refine (ih hlast hkey hwrite (.inr hall)).trans ?_
        simp [positionalArgs, keyedArgs, hkeyed, homit, Param.omits]

/-! ### Lines -/

theorem Verb.isKey_name (v : Verb) : IsKey v.name.toList := by
  cases v <;> exact ⟨by decide, List.all_eq_true.mp (by decide)⟩

theorem Verb.isKey_param (v : Verb) : ∀ param ∈ v.params, IsKey param.name.toList := by
  have hall : v.params.all (fun p => isName p.name.toList && p.name.toList.all isPlain) = true := by
    cases v <;> decide
  intro param hparam
  obtain ⟨hname, hplain⟩ := Bool.and_eq_true_iff.mp (List.all_eq_true.mp hall param hparam)
  exact ⟨hname, List.all_eq_true.mp hplain⟩

theorem Verb.keyedLast_params (v : Verb) :
    v.params.Pairwise fun p q => p.keyed = true → q.keyed = true := by
  cases v <;> decide

theorem Op.map_fst_pairs (op : Op Float) : op.pairs.map Prod.fst = op.verb.params :=
  List.map_fst_zip op.length_values.ge

theorem Op.map_snd_pairs (op : Op Float) : op.pairs.map Prod.snd = op.values :=
  List.map_snd_zip op.length_values.le

theorem Op.keyedLast_pairs (op : Op Float) : KeyedLast op.pairs := by
  have h := op.verb.keyedLast_params
  rw [← op.map_fst_pairs, List.pairwise_map] at h
  exact h

theorem Op.isKey_pairs (op : Op Float) : ∀ x ∈ op.pairs, IsKey x.1.name.toList := fun x hx =>
  op.verb.isKey_param x.1 (op.map_fst_pairs ▸ List.mem_map_of_mem hx)

theorem Op.isWritable_pairs {op : Op Float} (h : op.IsWritable) :
    ∀ x ∈ op.pairs, x.2.IsWritable := fun x hx =>
  h x.2 (op.map_snd_pairs ▸ List.mem_map_of_mem hx)

/-- A written argument is a piece. -/
theorem isPiece_writtenTexts {pairs : List (Param × Value Float)}
    (hkey : ∀ x ∈ pairs, IsKey x.1.name.toList) (hwrite : ∀ x ∈ pairs, x.2.IsWritable) :
    ∀ t ∈ (writtenTexts pairs).map String.toList, IsPiece t := by
  intro t ht
  obtain ⟨text, htext, rfl⟩ := List.mem_map.mp ht
  obtain ⟨x, hx, hsome⟩ := List.mem_filterMap.mp htext
  have hp := x.2.isPiece_text (hwrite x hx)
  simp only [Param.write] at hsome
  split_ifs at hsome
  · cases hsome
    simpa using hp.keyed (hkey x hx).plain
  · cases hsome
    exact hp

/-- The characters of a line, with the written arguments between its parentheses. -/
theorem Op.toList_line (op : Op Float) :
    op.line.toList = op.verb.name.toList ++
      '(' :: (commaJoin ((writtenTexts op.pairs).map String.toList) ++ [')']) := by
  simp only [line, String.toList_append, String.toList_intercalate, List.append_assoc]
  rfl

theorem Op.isBlank_line {op : Op Float} (h : op.IsWritable) :
    ∀ c ∈ op.line.toList, isBlank c = false := by
  rw [op.toList_line]
  simp only [List.mem_append, List.mem_cons, List.not_mem_nil, or_false]
  rintro c (hc | rfl | hc | rfl)
  · exact isBlank_of_isPlain (op.verb.isKey_name.plain c hc)
  · decide
  · exact isBlank_commaJoin (isPiece_writtenTexts op.isKey_pairs (isWritable_pairs h)) hc
  · decide

theorem Op.trimLine_line {op : Op Float} (h : op.IsWritable) :
    trimLine op.line.toList = op.line.toList := by
  have hlast : op.line.toList.reverse.dropWhile (· == ';') = op.line.toList.reverse := by
    rw [op.toList_line]
    simp
  rw [trimLine, trim_of_not_blank (isBlank_line h), hlast, List.reverse_reverse,
    trimEnd_of_not_blank (isBlank_line h)]

/-- The line of an operation is read as its call. -/
theorem Call.ofLine_line {op : Op Float} (h : op.IsWritable) :
    Call.ofLine op.line.toList = .ok op.writtenCall := by
  have hname := op.verb.isKey_name
  have hpieces := isPiece_writtenTexts op.isKey_pairs (Op.isWritable_pairs h)
  rw [ofLine, Op.trimLine_line h, op.toList_line,
    span_ne fun c hc => ne_of_isPlain (hname.plain c hc) (by decide)]
  simp only [List.getLast?_concat, List.dropLast_concat, ne_eq, not_true_eq_false, if_false,
    trim_of_not_blank fun c hc => isBlank_of_isPlain (hname.plain c hc), hname.isName,
    Bool.not_true, Bool.false_eq_true, splitArguments_commaJoin hpieces, String.ofList_toList]
  exact foldlM_addPiece op.keyedLast_pairs op.isKey_pairs (Op.isWritable_pairs h) (.inl rfl)

end Raceway
