import Mathlib
import Raceway.Proofs.Json.RoundTrip
import Raceway.Proofs.Session.WorkshopFiles
import Raceway.Proofs.Text.Blank
import Raceway.Proofs.Text.Lines
/-!
# Adding to a seed log

An entry of the seed log is written on a line of its own, and the line is read back as that entry. A
line that is added goes on with what stands behind the last line feed of the log. So the entries
that are read afterwards are those from before and the new one, if nothing stands there but spacing
of the document format, and otherwise they are not.

## Main definitions

* `Raceway.Disk.KeepsFile`: what a file system does with a file to which bytes are added.
* `Raceway.Disk.logText`: the text of a seed log.

## Main results

* `Raceway.SeedEntry.run_reader_compact`: an entry is read back.
* `Raceway.SeedEntry.listOfText_append`: the text of a seed log to which a line is added.
* `Raceway.Disk.seedEntries_recordSeed`: the entries of a seed log to which one is added.
* `Raceway.Disk.seedEntries_recordSeeds`: the entries of a seed log to which several are added.
-/

namespace Raceway

open Json Json.Reader Text Decimal

/-! ### Entries -/

namespace SeedEntry

variable {e : SeedEntry} {entries : List SeedEntry} {text : List Char}

/-- What is written for an entry, behind the opening brace. -/
def members (e : SeedEntry) : List Char :=
  (quoted "timestamp").toList ++ ':' :: (natText e.timestamp.toNat ++
    ',' :: ((quoted "seed").toList ++ ':' :: (natText e.seed.toNat ++
      ',' :: ((quoted "reason").toList ++ ':' :: ((quoted e.reason).toList ++ ['\x7d'])))))

theorem toList_compact (e : SeedEntry) : e.document.compact.toList = '\x7b' :: e.members := by
  have hint (n : ℕ) : (Json.intText n).toList = natText n := by simp [Json.intText]
  simp only [document, Node.compact, Node.compactMembers]
  simp [hint, members]

/-- An entry is read back, behind spacing. -/
theorem run_reader_compact {blank : List Char} (hblank : ∀ c ∈ blank, isSpacing c = true)
    (e : SeedEntry) : Reader.run reader (blank ++ e.document.compact.toList) = .ok e := by
  have hcomma (t : List Char) : EndsNumber (',' :: t) := by
    rintro c ⟨⟩
    decide
  have hbrace : (blank ++ '\x7b' :: e.members).dropWhile isSpacing = '\x7b' :: e.members := by
    rw [List.dropWhile_append_of_pos hblank]
    rfl
  obtain ⟨n, hn⟩ : ∃ n, e.members.length + 1 = n + 4 :=
    ⟨e.members.length - 3, by simp [members]; omega⟩
  rw [toList_compact]
  refine run_eq_ok (takes_record hbrace _ ?_
    (rfl : missing? _ ["reason", "seed", "timestamp"] = none))
  rw [hn, members]
  exact takes_recordMembers_cons (takes_hasKey_first _ _) rfl rfl
      (takes_word_map e.timestamp (hcomma _) fun w => SeedEntry.mk w 0 "") <|
    takes_recordMembers_cons (takes_hasKey_next _ _) rfl rfl
      (takes_word_map e.seed (hcomma _) fun w => SeedEntry.mk e.timestamp w "") <|
    takes_recordMembers_cons (takes_hasKey_next _ _) rfl rfl
      (takes_str_map e.reason _ fun s => SeedEntry.mk e.timestamp e.seed s) takes_recordMembers_nil

/-- There is no line feed in what is written for an entry. -/
theorem not_mem_compact (e : SeedEntry) : '\n' ∉ e.document.compact.toList := by
  have hnat (n : ℕ) : '\n' ∉ natText n := fun h => Bool.noConfusion (isDigit_of_mem_natText h)
  simp [toList_compact, members, not_mem_quoted, hnat]

theorem getLast?_compact (e : SeedEntry) :
    e.document.compact.toList.getLast? = some '\x7d' := by
  simp [toList_compact, members, List.getLast?_append, List.getLast?_cons]

/-! ### Texts -/

theorem toList_append_line (text : String) (e : SeedEntry) :
    (text ++ e.line).toList = text.toList ++ (e.document.compact.toList ++ ['\n']) := by
  simp [line]

theorem isBlank_of_isSpacing {c : Char} (h : isSpacing c = true) : isBlank c = true := by
  rcases eq_of_isSpacing h with rfl | rfl | rfl | rfl <;> decide

theorem ofLine_eq_ok_iff (line : List Char × ℕ) :
    ofLine line = .ok e ↔ Reader.run reader line.1 = .ok e := by
  rw [ofLine]
  cases Reader.run reader line.1 with
  | error e => exact ⟨by rintro ⟨⟩, by rintro ⟨⟩⟩
  | ok a =>
    exact ⟨fun h => congrArg _ (Except.ok.inj h), fun h => congrArg _ (Except.ok.inj h)⟩

/-- The lines of a text on which an entry is looked for. -/
def keptLines (text : List Char) : List (List Char) :=
  (lines text).filter fun line => trim line ≠ []

/-- The entries of a text are those on its lines. -/
theorem listOfText_eq_ok_iff {text : String} :
    listOfText text = .ok entries ↔
      List.Forall₂ (fun line e => Reader.run reader line = .ok e) (keptLines text.toList)
        entries := by
  have hfst : (entryLines text.toList).map Prod.fst = keptLines text.toList :=
    List.zipIdx_map_fst 1 _
  rw [listOfText, mapM_eq_ok_iff, ← hfst, List.forall₂_map_left_iff]
  simp only [ofLine_eq_ok_iff]

/-- What is read as an entry has nothing but spacing in front, if that is blank. -/
theorem isSpacing_of_run {tail rest : List Char} (htail : trim tail = [])
    (h : Reader.run reader (tail ++ rest) = .ok e) : ∀ c ∈ tail, isSpacing c = true := by
  by_contra hspacing
  have hne : tail.dropWhile isSpacing ≠ [] := by
    rwa [Ne, List.dropWhile_eq_nil_iff]
  obtain ⟨c, front, hfront⟩ := List.exists_cons_of_ne_nil hne
  have hc : c ∈ tail := (List.dropWhile_sublist _).subset (hfront ▸ List.mem_cons_self)
  have hbracket : c = '[' ∨ c = '\x7b' := by
    have hhead := head_of_run_record h
    rw [List.dropWhile_append, hfront] at hhead
    simpa using hhead
  have hblank : isBlank c = false := by
    rcases hbracket with rfl | rfl <;> decide
  exact trim_ne_nil hc hblank htail

/-- An entry that is added to a text is read, behind those from before, exactly if there is only
spacing behind the last line feed of the text. -/
theorem listOfText_append {text : String} (h : listOfText text = .ok entries) (e : SeedEntry) :
    listOfText (text ++ e.line) = .ok (entries ++ [e]) ↔
      ∀ c ∈ openLine text.toList, isSpacing c = true := by
  obtain ⟨front, hlines, hadd⟩ := exists_lines_append text.toList
  have hadded := hadd e.document.compact.toList (not_mem_compact e) (by simp [getLast?_compact])
  generalize openLine text.toList = tail at hlines hadded
  have hbrace : '\x7b' ∈ tail ++ e.document.compact.toList := by simp [toList_compact]
  have hentry : trim (tail ++ e.document.compact.toList) ≠ [] := trim_ne_nil hbrace (by decide)
  have hkept : keptLines (text ++ e.line).toList =
      front.filter (fun line => trim line ≠ []) ++ [tail ++ e.document.compact.toList] := by
    rw [keptLines, toList_append_line, hadded, List.filter_append, List.filter_singleton]
    simp [hentry]
  rw [listOfText_eq_ok_iff, hkept]
  rw [listOfText_eq_ok_iff, keptLines, hlines, List.filter_append] at h
  have hopen : (if tail = [] then [] else [tail]).filter (fun line => trim line ≠ []) =
      if trim tail = [] then [] else [tail] := by
    split_ifs with hnil htail <;> simp_all [trim_eq_nil_iff]
  rw [hopen] at h
  generalize front.filter (fun line => trim line ≠ []) = kept at h ⊢
  by_cases htail : trim tail = []
  · rw [if_pos htail, List.append_nil] at h
    constructor
    · intro hnew
      have hlast := List.forall₂_drop_append _ _ _ hnew
      rw [← h.length_eq, List.drop_left, List.forall₂_cons] at hlast
      exact isSpacing_of_run htail hlast.1
    · intro hspacing
      exact List.rel_append h (.cons (run_reader_compact hspacing e) .nil)
  · -- The last line of the text has an entry already, so there are as many entries as before.
    rw [if_neg htail] at h
    refine iff_of_false (fun hnew => ?_) fun hspacing => htail ?_
    · have hbefore := h.length_eq
      have hafter := hnew.length_eq
      simp only [List.length_append, List.length_singleton] at hbefore hafter
      omega
    · exact trim_eq_nil_iff.mpr fun c hc => isBlank_of_isSpacing (hspacing c hc)

end SeedEntry

/-! ### Files -/

namespace Disk

open Storage

variable {σ : Type} {disk : Disk (StateM σ)} {p : Path} {ok : σ → Prop}
  {content : σ → Option ByteArray} {s s₁ s₂ : σ} {entries : List SeedEntry} {e : SeedEntry}

/-- The file system keeps a file, as seen by a view of its content. In states that are all right,
the content is read, and bytes that are added with success stand at its end. -/
structure KeepsFile (disk : Disk (StateM σ)) (p : Path) (ok : σ → Prop)
    (content : σ → Option ByteArray) : Prop where
  read {s s' : σ} {r : Except DiskError ByteArray} :
    ok s → (disk.read p).run s = (r, s') →
      r = (content s).elim (.error .notFound) .ok ∧ ok s' ∧ content s' = content s
  addTo {bytes : ByteArray} {s s' : σ} :
    ok s → (disk.addTo p bytes).run s = (.ok (), s') →
      ok s' ∧ content s' = some ((content s).getD ByteArray.empty ++ bytes)

/-- The text of a file. A file that is not there has the empty text. -/
def logText (content : Option ByteArray) : List Char :=
  ((content.bind String.fromUTF8?).getD "").toList

/-- The entries in the content of a seed log. No file is a log without entries. -/
def entriesIn : Option ByteArray → Except StoreError (List SeedEntry)
  | none => .ok []
  | some bytes => ((text bytes).mapError .disk).bind SeedEntry.listOfText

theorem text_cases (bytes : ByteArray) :
    text bytes = .error .notText ∨ ∃ t, text bytes = .ok t := by
  rw [text]
  split
  · exact .inr ⟨_, rfl⟩
  · exact .inl rfl

theorem run_seedEntries (hdisk : disk.KeepsFile p ok content) (hs : ok s) :
    ∃ s', (disk.seedEntries p).run s = (entriesIn (content s), s') ∧ ok s' ∧
      content s' = content s := by
  cases hread : (disk.read p).run s with
  | mk r s' =>
    obtain ⟨rfl, hok, hcontent⟩ := hdisk.read hs hread
    refine ⟨s', ?_, hok, hcontent⟩
    rw [seedEntries, textIfThere, readText, bind_assoc, bind_assoc, run_bind_eq hread]
    cases content s with
    | none => rfl
    | some bytes =>
      simp only [Option.elim_some, Except.bind, pure_bind, entriesIn]
      obtain h | ⟨t, h⟩ := text_cases bytes <;> rw [h] <;> rfl

theorem toUTF8_of_fromUTF8 {bytes : ByteArray} {t : String} (h : String.fromUTF8? bytes = some t) :
    bytes = t.toUTF8 := by
  rw [String.fromUTF8?] at h
  split_ifs at h
  exact Option.some.inj h ▸ rfl

theorem toUTF8_append (t u : String) : t.toUTF8 ++ u.toUTF8 = (t ++ u).toUTF8 :=
  String.toByteArray_append.symm

theorem logText_toUTF8 (t : String) : logText (some t.toUTF8) = t.toList := by
  rw [logText, Option.bind_some, Workshop.fromUTF8_toUTF8, Option.getD_some]

theorem entriesIn_toUTF8 (t : String) : entriesIn (some t.toUTF8) = SeedEntry.listOfText t := by
  rw [entriesIn, text, Workshop.fromUTF8_toUTF8]
  rfl

/-- A log that can be read is a text. -/
theorem exists_text {content : Option ByteArray} (h : entriesIn content = .ok entries) :
    ∃ t : String, content.getD ByteArray.empty = t.toUTF8 ∧ logText content = t.toList ∧
      SeedEntry.listOfText t = .ok entries := by
  cases content with
  | none => exact ⟨"", rfl, rfl, h⟩
  | some bytes =>
    cases htext : String.fromUTF8? bytes with
    | none =>
      rw [entriesIn, text, htext] at h
      cases h
    | some t =>
      obtain rfl := toUTF8_of_fromUTF8 htext
      rw [entriesIn_toUTF8] at h
      exact ⟨t, rfl, logText_toUTF8 t, h⟩

theorem entriesIn_append {content : Option ByteArray} (h : entriesIn content = .ok entries)
    (e : SeedEntry) :
    entriesIn (some (content.getD ByteArray.empty ++ e.line.toUTF8)) = .ok (entries ++ [e]) ↔
      ∀ c ∈ openLine (logText content), isSpacing c = true := by
  obtain ⟨t, hbytes, htext, hentries⟩ := exists_text h
  rw [hbytes, htext, ← SeedEntry.listOfText_append hentries e, toUTF8_append, entriesIn_toUTF8]

/-- Recording adds the line of the entry. -/
theorem of_recordSeed (hdisk : disk.KeepsFile p ok content) (hs : ok s)
    (h : (disk.recordSeed p e).run s = (.ok (), s₁)) :
    ok s₁ ∧ content s₁ = some ((content s).getD ByteArray.empty ++ e.line.toUTF8) := by
  refine hdisk.addTo hs ?_
  cases hadd : (disk.addTo p e.line.toUTF8).run s with
  | mk r s' =>
    rw [recordSeed, run_bind_eq hadd] at h
    cases r with
    | error e => cases h
    | ok u => exact Prod.ext rfl (Prod.mk.inj h).2

/-- A file tree keeps a file in the working folder, if no folder is in its place. -/
theorem keepsFile_disk (hp : p.IsName) :
    KeepsFile FileTree.disk p (fun t => ∃ c, t.HoldsFile p c) (FileTree.content? · p) where
  read {t t' r} ht hrun := by
    obtain ⟨c, hc⟩ := ht
    have hread : (FileTree.disk.read p).run t = (t.read p, t) := rfl
    obtain ⟨rfl, rfl⟩ := Prod.mk.inj (hread.symm.trans hrun)
    exact ⟨by rw [FileTree.read_of_isName hp hc, hc.content_eq], ⟨c, hc⟩, rfl⟩
  addTo {bytes t t'} ht hrun := by
    obtain ⟨c, hc⟩ := ht
    obtain ⟨t₁, hadd, hnew, -⟩ := FileTree.run_addTo hp hc bytes
    obtain ⟨-, rfl⟩ := Prod.mk.inj (hadd.symm.trans hrun)
    exact ⟨⟨_, hnew⟩, by rw [hnew.content_eq, hc.content_eq]⟩

/-- What recording does to a log that can be read and to which entries can be added: afterwards it
has the entry, and more can be added. -/
theorem entriesIn_of_recordSeed (hdisk : disk.KeepsFile p ok content) (hs : ok s)
    (hentries : entriesIn (content s) = .ok entries)
    (hopen : ∀ c ∈ openLine (logText (content s)), isSpacing c = true)
    (hadd : (disk.recordSeed p e).run s = (.ok (), s₁)) :
    ok s₁ ∧ entriesIn (content s₁) = .ok (entries ++ [e]) ∧
      openLine (logText (content s₁)) = [] := by
  obtain ⟨hok, hcontent⟩ := of_recordSeed hdisk hs hadd
  rw [hcontent]
  refine ⟨hok, (entriesIn_append hentries e).mpr hopen, ?_⟩
  obtain ⟨t, hbytes, -, -⟩ := exists_text hentries
  rw [hbytes, toUTF8_append, logText_toUTF8, SeedEntry.toList_append_line, ← List.append_assoc,
    openLine_append_feed]

/-- Entries that are recorded one after the other, each with success, are all read afterwards, if
there was only spacing behind the last line feed of the log. -/
theorem seedEntries_recordSeeds (hdisk : disk.KeepsFile p ok content) (hs : ok s)
    (hentries : entriesIn (content s) = .ok entries)
    (hopen : ∀ c ∈ openLine (logText (content s)), isSpacing c = true) {es : List SeedEntry}
    {rs : List (Except StoreError Unit)}
    (hadd : (es.mapM (disk.recordSeed p)).run s = (rs, s₁)) (hrs : ∀ r ∈ rs, r = .ok ()) :
    ((disk.seedEntries p).run s₁).1 = .ok (entries ++ es) := by
  induction es generalizing s entries rs with
  | nil =>
    obtain ⟨-, rfl⟩ := Prod.mk.inj hadd
    obtain ⟨s', hrun, -, -⟩ := run_seedEntries hdisk hs
    rw [hrun, hentries, List.append_nil]
  | cons e es ih =>
    cases hrecord : (disk.recordSeed p e).run s with
    | mk r s' =>
    cases hrest : (es.mapM (disk.recordSeed p)).run s' with
    | mk rs' s'' =>
      rw [List.mapM_cons, run_bind_eq hrecord, run_bind_eq hrest] at hadd
      obtain ⟨rfl, rfl⟩ := Prod.mk.inj hadd
      obtain ⟨rfl, hothers⟩ := List.forall_mem_cons.mp hrs
      obtain ⟨hok, hentries, hended⟩ := entriesIn_of_recordSeed hdisk hs hentries hopen hrecord
      have hread := ih hok hentries (by simp [hended]) hrest hothers
      rwa [List.append_assoc, List.singleton_append] at hread

theorem exists_run_recordSeed {t : FileTree} (hp : p.IsName) (ht : ∃ c, t.HoldsFile p c)
    (e : SeedEntry) : ∃ t', (FileTree.disk.recordSeed p e).run t = (.ok (), t') := by
  obtain ⟨c, hc⟩ := ht
  obtain ⟨t', hadd, -⟩ := FileTree.run_addTo hp hc e.line.toUTF8
  exact ⟨t', by rw [recordSeed, run_bind_eq hadd]; rfl⟩

/-- An entry that is added to the seed log with success is read afterwards, behind the entries from
before, exactly if there is only spacing behind the last line feed of the log. -/
theorem seedEntries_recordSeed (hdisk : disk.KeepsFile p ok content) (hs : ok s)
    (hbefore : (disk.seedEntries p).run s = (.ok entries, s₁))
    (hadd : (disk.recordSeed p e).run s₁ = (.ok (), s₂)) :
    ((disk.seedEntries p).run s₂).1 = .ok (entries ++ [e]) ↔
      ∀ c ∈ openLine (logText (content s)), isSpacing c = true := by
  obtain ⟨s', hrun, hok, hcontent⟩ := run_seedEntries hdisk hs
  obtain ⟨hentries, rfl⟩ := Prod.mk.inj (hrun.symm.trans hbefore)
  obtain ⟨hok₂, hcontent₂⟩ := of_recordSeed hdisk hok hadd
  obtain ⟨s₃, hafter, -, -⟩ := run_seedEntries hdisk hok₂
  rw [hafter, hcontent₂, hcontent]
  exact entriesIn_append hentries e

/-- A log with one entry, on a line that nothing ends. -/
def unendedLog : String :=
  "\x7b\"timestamp\":1,\"seed\":2,\"reason\":\"x\"\x7d"

/-- A file tree with a seed log of the given text. -/
def treeWithLog (text : String) : FileTree :=
  ⟨[(["seeds.jsonl"], .file text.toUTF8)]⟩

theorem holdsFile_treeWithLog (text : String) :
    (treeWithLog text).HoldsFile "seeds.jsonl" (some text.toUTF8) := by
  rfl

theorem isName_seeds : Path.IsName "seeds.jsonl" := by
  decide

/-- An entry is added to a log that ends with spacing on a line of its own. -/
theorem seedEntries_recordSeed_spacing :
    ∃ t₁ t₂, (seedEntries FileTree.disk "seeds.jsonl").run (treeWithLog (unendedLog ++ "\n \t")) =
        (.ok [⟨1, 2, "x"⟩], t₁) ∧
      (recordSeed FileTree.disk "seeds.jsonl" ⟨3, 4, "\"y\"\n"⟩).run t₁ = (.ok (), t₂) ∧
      ((seedEntries FileTree.disk "seeds.jsonl").run t₂).1 =
        .ok [⟨1, 2, "x"⟩, ⟨3, 4, "\"y\"\n"⟩] := by
  have hfile := holdsFile_treeWithLog (unendedLog ++ "\n \t")
  have hlog : SeedEntry.listOfText (unendedLog ++ "\n \t") = .ok [⟨1, 2, "x"⟩] := by cbv
  obtain ⟨t₁, hbefore, hok, -⟩ := run_seedEntries (keepsFile_disk isName_seeds) ⟨_, hfile⟩
  rw [hfile.content_eq, entriesIn_toUTF8, hlog] at hbefore
  obtain ⟨t₂, hadd⟩ := exists_run_recordSeed isName_seeds hok ⟨3, 4, "\"y\"\n"⟩
  refine ⟨t₁, t₂, hbefore, hadd, ?_⟩
  refine (seedEntries_recordSeed (keepsFile_disk isName_seeds) ⟨_, hfile⟩ hbefore hadd).mpr ?_
  have hopen : openLine (logText (some (unendedLog ++ "\n \t").toUTF8)) = [' ', '\t'] := by cbv
  rw [hfile.content_eq, hopen]
  simp [isSpacing]

/-- After an entry is added with success, a log that could be read before cannot be read any more.
Its only line was not ended. -/
theorem seedEntries_recordSeed_unended :
    ∃ t₁ t₂, (seedEntries FileTree.disk "seeds.jsonl").run (treeWithLog unendedLog) =
        (.ok [⟨1, 2, "x"⟩], t₁) ∧
      (recordSeed FileTree.disk "seeds.jsonl" ⟨3, 4, "y"⟩).run t₁ = (.ok (), t₂) ∧
      ∀ entries, ((seedEntries FileTree.disk "seeds.jsonl").run t₂).1 ≠ .ok entries := by
  have hfile := holdsFile_treeWithLog unendedLog
  have hlog : SeedEntry.listOfText unendedLog = .ok [⟨1, 2, "x"⟩] := by cbv
  obtain ⟨t₁, hbefore, hok, hsame⟩ := run_seedEntries (keepsFile_disk isName_seeds) ⟨_, hfile⟩
  rw [hfile.content_eq, entriesIn_toUTF8, hlog] at hbefore
  obtain ⟨t₂, hadd⟩ := exists_run_recordSeed isName_seeds hok ⟨3, 4, "y"⟩
  refine ⟨t₁, t₂, hbefore, hadd, fun entries => ?_⟩
  obtain ⟨hok₂, hcontent⟩ := of_recordSeed (keepsFile_disk isName_seeds) hok hadd
  obtain ⟨t₃, hafter, -, -⟩ := run_seedEntries (keepsFile_disk isName_seeds) hok₂
  rw [hafter, hcontent, hsame, hfile.content_eq, Option.getD_some, toUTF8_append, entriesIn_toUTF8]
  intro h
  have hunread : SeedEntry.listOfText (unendedLog ++ SeedEntry.line ⟨3, 4, "y"⟩) =
      .error (.decode (.entry 1 ⟨.trailingCharacters, ⟨1, 38⟩⟩)) := by cbv
  rw [hunread] at h
  cases h

end Disk

end Raceway
