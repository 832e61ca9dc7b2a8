import Mathlib
import Raceway.Proofs.Disk.Tree
/-!
# Replacing a file when steps can fail

The steps that replace a file are carried out on a file tree whose steps can fail, and where the
process can die at any time. A folder may then be made without those behind it, a file may be left
empty, or only a part of the bytes may be written; but a file is moved as a whole or not at all. As
all steps but the last one touch only the partner of the path, the file itself has its old content
until it gets the new one.

A path leads to a place that can be told from its names alone, as there are no links. The partner of
a path leads to another place than the path.

## Main definitions

* `Raceway.Path.place`: the place that a path leads to.
* `Raceway.FileTree.file?`: the content of the file at a place.
* `Raceway.FileTree.Outcome`: what can become of a step that can fail or be cut off.
* `Raceway.FileTree.Attempt`: what can become of steps in order.

## Main results

* `Raceway.Path.place_partner_ne`: a path and its partner lead to different places.
* `Raceway.FileTree.Attempt.keepsBut`: steps at one place leave all other files as they are.
* `Raceway.FileTree.replace_all_or_nothing`: a file is replaced as a whole or not at all.
-/

namespace Raceway

/-! ### Places of paths -/

namespace Path

/-- The place that a name leads to from a folder. -/
def enter (here : Location) (name : String) : Location :=
  if name = ".." then here.dropLast else here ++ [name]

/-- The place that a path leads to. -/
def place (p : Path) : Location :=
  p.names.foldl enter []

/-- An ending without a slash belongs to the last piece. -/
theorem exists_pieces_append {tail : List Char} (htail : pieces tail = [tail]) (cs : List Char) :
    ∃ front last, pieces cs = front ++ [last] ∧ pieces (cs ++ tail) = front ++ [last ++ tail] := by
  induction cs with
  | nil => exact ⟨[], [], rfl, htail⟩
  | cons c cs ih =>
    obtain ⟨front, last, hcs, hall⟩ := ih
    rw [List.cons_append, pieces, pieces, hcs, hall]
    split_ifs
    · exact ⟨[] :: front, last, rfl, rfl⟩
    · cases front with
      | nil => exact ⟨[], c :: last, rfl, rfl⟩
      | cons piece front => exact ⟨(c :: piece) :: front, last, rfl, rfl⟩

/-- The names of a path and of its partner differ in the last one only, which the path may lack. -/
theorem exists_names_partner (p : Path) :
    ∃ front last, (p.names = front ∨ p.names = front ++ [String.ofList last]) ∧
      (partner p).names = front ++ [String.ofList (last ++ ['.', 't', 'm', 'p'])] := by
  obtain ⟨front, last, hp, hpartner⟩ :=
    exists_pieces_append (by decide : pieces ['.', 't', 'm', 'p'] = [['.', 't', 'm', 'p']]) p.toList
  have htext : (partner p).toList = p.toList ++ ['.', 't', 'm', 'p'] := String.toList_append
  have hmoves : isStill (last ++ ['.', 't', 'm', 'p']) = false := by
    rcases last with _ | ⟨c, _ | ⟨d, rest⟩⟩ <;> simp [isStill]
  refine ⟨(front.filter fun piece => !isStill piece).map String.ofList, last, ?_, ?_⟩
  · rw [names, hp, List.filter_append, List.map_append]
    cases hlast : isStill last with
    | true => exact .inl (by simp [hlast])
    | false => exact .inr (by simp [hlast])
  · rw [names, htext, hpartner, List.filter_append, List.map_append]
    simp [hmoves]

/-- A path and its partner lead to different places. -/
theorem place_partner_ne (p : Path) : (partner p).place ≠ p.place := by
  obtain ⟨front, last, hp, hpartner⟩ := exists_names_partner p
  have hname : String.ofList (last ++ ['.', 't', 'm', 'p']) ≠ ".." := by
    rw [ne_eq, ← String.toList_inj, String.toList_ofList]
    rcases last with _ | ⟨c, _ | ⟨d, rest⟩⟩ <;> simp
  have hside : (partner p).place = front.foldl enter [] ++
      [String.ofList (last ++ ['.', 't', 'm', 'p'])] := by
    rw [place, hpartner, List.foldl_append, List.foldl_cons, List.foldl_nil, enter, if_neg hname]
  rw [hside, place]
  rcases hp with hp | hp
  · rw [hp]
    exact fun h => List.cons_ne_nil _ _ (List.append_right_eq_self.mp h)
  · rw [hp, List.foldl_append, List.foldl_cons, List.foldl_nil, enter]
    split_ifs
    · intro h
      have hlength := congrArg List.length h
      rw [List.length_append, List.length_singleton, List.length_dropLast] at hlength
      omega
    · intro h
      have hlast := List.append_cancel_left h
      rw [List.cons.injEq, ← String.toList_inj, String.toList_ofList, String.toList_ofList] at hlast
      exact List.cons_ne_nil _ _ (List.append_right_eq_self.mp hlast.1)

end Path

namespace FileTree

variable {t t' : FileTree} {p : Path} {place : Location}

/-- Names lead from a folder to a place. All but the last one of them lead to folders. -/
inductive Leads (t : FileTree) : Location → List String → Location → Prop
  | here (here : Location) : Leads t here [] here
  | parent {here place : Location} {rest : List String} :
      Leads t here.dropLast rest place → Leads t here (".." :: rest) place
  | folder {here place : Location} {name : String} {rest : List String} : name ≠ ".." →
      ¬ name.utf8ByteSize > nameLimit → t.entry? (here ++ [name]) = some .folder →
      Leads t (here ++ [name]) rest place → Leads t here (name :: rest) place
  | last {here : Location} {name : String} : name ≠ ".." → ¬ name.utf8ByteSize > nameLimit →
      Leads t here [name] (here ++ [name])

theorem leads_of_follow {here : Location} {names : List String}
    (h : t.follow here names = .ok place) : t.Leads here names place := by
  induction names generalizing here with
  | nil => exact Except.ok.inj h ▸ .here here
  | cons name rest ih =>
    have hlast (hparent : name ≠ "..") (hsize : ¬ name.utf8ByteSize > nameLimit)
        {e : DiskError} (h : (if rest.isEmpty then .ok (here ++ [name]) else .error e) =
          Except.ok place) : t.Leads here (name :: rest) place := by
      split_ifs at h with hrest
      rw [List.isEmpty_iff.mp hrest, ← Except.ok.inj h]
      exact .last hparent hsize
    rw [follow] at h
    by_cases hparent : name = ".."
    · rw [if_pos hparent] at h
      exact hparent ▸ .parent (ih h)
    rw [if_neg hparent] at h
    by_cases hsize : name.utf8ByteSize > nameLimit
    · rw [if_pos hsize] at h
      cases h
    rw [if_neg hsize] at h
    cases hentry : t.entry? (here ++ [name]) with
    | none =>
      rw [hentry] at h
      exact hlast hparent hsize h
    | some e =>
      rw [hentry] at h
      cases e with
      | folder => exact .folder hparent hsize hentry (ih h)
      | file bytes => exact hlast hparent hsize h

theorem Leads.follow_eq {here : Location} {names : List String} (h : t.Leads here names place) :
    t.follow here names = .ok place := by
  induction h with
  | here here => rfl
  | parent _ ih => rwa [follow, if_pos rfl]
  | folder hparent hsize hentry _ ih => rwa [follow, if_neg hparent, if_neg hsize, hentry]
  | last hparent hsize =>
    rw [follow, if_neg hparent, if_neg hsize]
    split <;> rfl

/-- A way through the folders of a file tree is one through those of a tree with more folders. -/
theorem Leads.mono {here : Location} {names : List String}
    (hfolders : ∀ q, t.entry? q = some .folder → t'.entry? q = some .folder)
    (h : t.Leads here names place) : t'.Leads here names place := by
  induction h with
  | here here => exact .here here
  | parent _ ih => exact .parent ih
  | folder hparent hsize hentry _ ih => exact .folder hparent hsize (hfolders _ hentry) ih
  | last hparent hsize => exact .last hparent hsize

theorem Leads.eq_foldl {here : Location} {names : List String} (h : t.Leads here names place) :
    place = names.foldl Path.enter here := by
  induction h with
  | here here => rfl
  | parent _ ih => exact ih
  | folder hparent _ _ _ ih => rw [ih, List.foldl_cons, Path.enter, if_neg hparent]
  | last hparent _ => exact (if_neg hparent).symm

/-- Where a path leads anywhere, it leads to its place. -/
theorem eq_place_of_locate (h : t.locate p = .ok place) : place = p.place :=
  (leads_of_follow h).eq_foldl

/-! ### Files at places -/

/-- The content of the file at a place, if there is one. -/
def file? (t : FileTree) (place : Location) : Option ByteArray :=
  match t.entry? place with
  | some (.file bytes) => some bytes
  | _ => none

variable {bytes : ByteArray}

theorem file?_eq_some_iff : t.file? place = some bytes ↔ t.entry? place = some (.file bytes) := by
  rw [file?]
  split <;> simp_all

theorem file?_congr (h : t'.entry? place = t.entry? place) : t'.file? place = t.file? place := by
  rw [file?, h, file?]

/-- What is read at a path is the content of the file at its place. -/
theorem file?_of_read (h : t.read p = .ok bytes) : t.file? p.place = some bytes := by
  obtain ⟨place, hlocate, hread⟩ := bind_eq_ok h
  obtain rfl := eq_place_of_locate hlocate
  rw [file?_eq_some_iff]
  cases hentry : t.entry? p.place with
  | none =>
    rw [hentry] at hread
    cases hread
  | some e =>
    rw [hentry] at hread
    cases e with
    | folder => cases hread
    | file content =>
      dsimp only at hread
      split_ifs at hread
      rw [Except.ok.inj hread]

/-- The tree still has all folders of another one, and all files of it but those at the given
places, where there may be others. Elsewhere it has no other files. -/
structure KeepsBut (t : FileTree) (places : List Location) (t' : FileTree) : Prop where
  folder (q : Location) : t.entry? q = some .folder → t'.entry? q = some .folder
  file?_eq (q : Location) : q ∉ places → t'.file? q = t.file? q

theorem keepsBut_refl (t : FileTree) (places : List Location) : t.KeepsBut places t :=
  ⟨fun _ => id, fun _ _ => rfl⟩

theorem KeepsBut.trans {places : List Location} {t₁ t₂ : FileTree} (h : t.KeepsBut places t₁)
    (h' : t₁.KeepsBut places t₂) : t.KeepsBut places t₂ :=
  ⟨fun q hq => h'.folder q (h.folder q hq), fun q hq => (h'.file?_eq q hq).trans (h.file?_eq q hq)⟩

theorem KeepsBut.mono {places places' : List Location} (h : t.KeepsBut places t')
    (hsub : places ⊆ places') : t.KeepsBut places' t' :=
  ⟨h.folder, fun q hq => h.file?_eq q fun hmem => hq (hsub hmem)⟩

/-- A path that leads anywhere still does so. -/
theorem KeepsBut.locate_eq {places : List Location} (h : t.KeepsBut places t')
    (hlocate : t.locate p = .ok place) : t'.locate p = .ok place :=
  ((leads_of_follow hlocate).mono h.folder).follow_eq

/-- A path that could be read can still be read, if there is still a file at its place. -/
theorem KeepsBut.read_eq {places : List Location} {old : ByteArray} (h : t.KeepsBut places t')
    (hread : t.read p = .ok old) (hfile : t'.file? p.place = some bytes) :
    t'.read p = .ok bytes := by
  obtain ⟨place, hlocate, hold⟩ := bind_eq_ok hread
  obtain rfl := eq_place_of_locate hlocate
  rw [file?_eq_some_iff.mp (file?_of_read hread)] at hold
  rw [read, h.locate_eq hlocate, ok_bind, file?_eq_some_iff.mp hfile]
  dsimp only at hold ⊢
  split_ifs at hold ⊢
  rfl

/-! ### Steps -/

theorem file?_put_self (h : place ≠ []) : file? (t.put place (.file bytes)) place = some bytes :=
  file?_eq_some_iff.mpr (entry_put_self h)

theorem keepsBut_put (h : t.entry? place ≠ some .folder) (bytes : ByteArray) :
    t.KeepsBut [place] (t.put place (.file bytes)) where
  folder q hq := by
    have hne : q ≠ place := by
      rintro rfl
      exact h hq
    rw [entry_put_of_ne hne, hq]
  file?_eq q hq := file?_congr (entry_put_of_ne (List.ne_of_not_mem_cons hq))

theorem ne_nil_of_entry_ne (h : t.entry? place ≠ some .folder) : place ≠ [] := by
  rintro rfl
  exact h rfl

/-- A file that is written has the new content, and nothing else changes. -/
theorem of_writeFile {f : ByteArray → ByteArray} (h : t.writeFile p f = .ok t') :
    t'.file? p.place = some (f ((t.file? p.place).getD ByteArray.empty)) ∧
      t.KeepsBut [p.place] t' := by
  obtain ⟨place, hlocate, hwrite⟩ := bind_eq_ok h
  obtain rfl := eq_place_of_locate hlocate
  have hput (old : Option ByteArray) (hfile : t.file? p.place = old)
      (hentry : t.entry? p.place ≠ some .folder) :
      file? (t.put p.place (.file (f (old.getD ByteArray.empty)))) p.place =
          some (f ((t.file? p.place).getD ByteArray.empty)) ∧
        t.KeepsBut [p.place] (t.put p.place (.file (f (old.getD ByteArray.empty)))) :=
    ⟨by rw [hfile, file?_put_self (ne_nil_of_entry_ne hentry)], keepsBut_put hentry _⟩
  cases hentry : t.entry? p.place with
  | none =>
    rw [hentry] at hwrite
    dsimp only at hwrite
    split_ifs at hwrite
    obtain rfl := Except.ok.inj hwrite
    exact hput none (by rw [file?, hentry]) (by simp [hentry])
  | some e =>
    rw [hentry] at hwrite
    cases e with
    | folder => cases hwrite
    | file content =>
      dsimp only at hwrite
      split_ifs at hwrite
      obtain rfl := Except.ok.inj hwrite
      exact hput (some content) (by rw [file?, hentry]) (by simp [hentry])

/-- The tree has some more folders than another one, and nothing else has changed. -/
def AddsFolders (t t' : FileTree) : Prop :=
  ∀ q, t'.entry? q = t.entry? q ∨ t.entry? q = none ∧ t'.entry? q = some .folder

theorem AddsFolders.trans {t₁ t₂ : FileTree} (h : t.AddsFolders t₁) (h' : t₁.AddsFolders t₂) :
    t.AddsFolders t₂ := by
  intro q
  rcases h q with heq | ⟨hnone, hfolder⟩
  · rw [← heq]
    exact h' q
  · rcases h' q with heq' | ⟨hnone', -⟩
    · exact .inr ⟨hnone, heq'.trans hfolder⟩
    · rw [hfolder] at hnone'
      cases hnone'

theorem addsFolders_put (h : t.entry? place = none) : t.AddsFolders (t.put place .folder) := by
  intro q
  by_cases hq : q = place
  · subst hq
    exact .inr ⟨h, entry_put_self (ne_nil_of_entry_ne (t := t) (by simp [h]))⟩
  · exact .inl (entry_put_of_ne hq)

theorem AddsFolders.keepsBut (h : t.AddsFolders t') : t.KeepsBut [] t' where
  folder q hq := by
    rcases h q with heq | ⟨-, hfolder⟩
    · rw [heq, hq]
    · exact hfolder
  file?_eq q _ := by
    rcases h q with heq | ⟨hnone, hfolder⟩
    · exact file?_congr heq
    · rw [file?, file?, hnone, hfolder]

theorem addsFolders_of_makeFolders {here : Location} {names : List String}
    (h : t.makeFolders here names = .ok t') : t.AddsFolders t' := by
  induction names generalizing t here with
  | nil => exact fun q => .inl (congrArg (fun u : FileTree => u.entry? q) (Except.ok.inj h).symm)
  | cons name rest ih =>
    rw [makeFolders] at h
    by_cases hparent : name = ".."
    · rw [if_pos hparent] at h
      exact ih h
    rw [if_neg hparent] at h
    by_cases hsize : name.utf8ByteSize > nameLimit
    · rw [if_pos hsize] at h
      cases h
    · rw [if_neg hsize] at h
      cases hentry : t.entry? (here ++ [name]) with
      | none =>
        rw [hentry] at h
        exact (addsFolders_put hentry).trans (ih h)
      | some e =>
        rw [hentry] at h
        cases e with
        | folder => exact ih h
        | file bytes => cases h

/-- A file is moved with its content, and nothing else changes. -/
theorem of_rename {source : Path} (h : t.rename source p = .ok t') :
    ∃ content, t.file? source.place = some content ∧ t'.read p = .ok content ∧
      (source.place ≠ p.place → t'.entry? source.place = none) ∧
      t.KeepsBut [source.place, p.place] t' := by
  obtain ⟨place, hlocate, h⟩ := bind_eq_ok h
  obtain rfl := eq_place_of_locate hlocate
  obtain ⟨content, hread, h⟩ := bind_eq_ok h
  obtain ⟨place, htarget, h⟩ := bind_eq_ok h
  obtain rfl := eq_place_of_locate htarget
  have hfile := file?_of_read hread
  -- The target is a name, and there is no folder at its place.
  obtain ⟨hfree, hleads, rfl⟩ : t.entry? p.place ≠ some .folder ∧ p.leadsToFolder = false ∧
      (t.erase source.place).put p.place (.file content) = t' := by
    cases hends : p.endsInName with
    | false =>
      rw [hends] at h
      cases h
    | true =>
    cases hleads : p.leadsToFolder with
    | true =>
      rw [hends, hleads] at h
      cases h
    | false =>
    rw [hends, hleads] at h
    rcases hentry : t.entry? p.place with _ | _ | old <;> rw [hentry] at h
    · exact ⟨nofun, rfl, Except.ok.inj h⟩
    · cases h
    · exact ⟨nofun, rfl, Except.ok.inj h⟩
  have hsource : t.entry? source.place ≠ some .folder := by
    rw [file?_eq_some_iff.mp hfile]
    nofun
  have hkeep : t.KeepsBut [source.place, p.place]
      ((t.erase source.place).put p.place (.file content)) := by
    refine ⟨fun q hq => ?_, fun q hq => ?_⟩
    · have hneSource : q ≠ source.place := by
        rintro rfl
        exact hsource hq
      have hneTarget : q ≠ p.place := by
        rintro rfl
        exact hfree hq
      rw [entry_put_of_ne hneTarget, entry_erase_of_ne hneSource, hq]
    · rw [List.mem_cons, List.mem_singleton, not_or] at hq
      exact file?_congr ((entry_put_of_ne hq.2).trans (entry_erase_of_ne hq.1))
  refine ⟨content, hfile, ?_, fun hne => ?_, hkeep⟩
  · rw [read, hkeep.locate_eq htarget, ok_bind, entry_put_self (ne_nil_of_entry_ne hfree)]
    exact if_neg (hleads ▸ Bool.false_ne_true)
  · rw [entry_put_of_ne hne, entry_erase_self (ne_nil_of_entry_ne hsource)]

end FileTree

/-- The places where a step can change a file. -/
def Change.places : Change → List Location
  | makeFolders _ | sync _ => []
  | clear p | touch p | append p _ => [p.place]
  | rename source target => [source.place, target.place]

namespace FileTree

variable {t t' t₁ : FileTree} {p : Path} {bytes : ByteArray} {c : Change} {cs ds : List Change}
  {r : Option (Except DiskError Unit)}

theorem of_sync (h : t.step (.sync p) = .ok t') : t' = t := by
  obtain ⟨_, -, h⟩ := bind_eq_ok h
  exact (Except.ok.inj h).symm

/-- A step changes files at its places only. -/
theorem keepsBut_of_step (h : t.step c = .ok t') : t.KeepsBut c.places t' := by
  cases c with
  | makeFolders p => exact (addsFolders_of_makeFolders h).keepsBut
  | clear p => exact (of_writeFile h).2
  | touch p => exact (of_writeFile h).2
  | append p bytes => exact (of_writeFile h).2
  | sync p => exact of_sync h ▸ keepsBut_refl t []
  | rename source target =>
    obtain ⟨-, -, -, -, hkeep⟩ := of_rename h
    exact hkeep

/-! ### Steps that can fail -/

/-- What can become of a step. With `some` answer it comes to an end, and either has succeeded or
has failed; without one the process has died. Then folders may have been made in part, a file may
have been emptied, and any number of the bytes may have been written. A file is moved as a whole or
not at all, and it is not moved if that fails. -/
inductive Outcome (t : FileTree) : Change → Option (Except DiskError Unit) → FileTree → Prop
  | done {c : Change} {t' : FileTree} : t.step c = .ok t' → Outcome t c (some (.ok ())) t'
  | refused (c : Change) (e : DiskError) : Outcome t c (some (.error e)) t
  | diesBefore (c : Change) : Outcome t c none t
  | diesAfter {c : Change} {t' : FileTree} : t.step c = .ok t' → Outcome t c none t'
  | someFolders {p : Path} {r : Option (Except DiskError Unit)} {t' : FileTree} :
      t.AddsFolders t' → r ≠ some (.ok ()) → Outcome t (.makeFolders p) r t'
  | emptied {p : Path} {r : Option (Except DiskError Unit)} {t' : FileTree} :
      t.step (.clear p) = .ok t' → r ≠ some (.ok ()) → Outcome t (.clear p) r t'
  | someBytes {p : Path} {bytes : ByteArray} {r : Option (Except DiskError Unit)} {t' : FileTree}
      (n : ℕ) : t.step (.append p (bytes.extract 0 n)) = .ok t' → r ≠ some (.ok ()) →
      Outcome t (.append p bytes) r t'

theorem Outcome.step_eq (h : t.Outcome c (some (.ok ())) t') : t.step c = .ok t' := by
  cases h with
  | done hstep => exact hstep
  | someFolders _ hr => exact absurd rfl hr
  | emptied _ hr => exact absurd rfl hr
  | someBytes n _ hr => exact absurd rfl hr

/-- Whatever becomes of a step, it changes files at its places only. -/
theorem Outcome.keepsBut (h : t.Outcome c r t') : t.KeepsBut c.places t' := by
  cases h with
  | done hstep => exact keepsBut_of_step hstep
  | refused e => exact keepsBut_refl t _
  | diesBefore => exact keepsBut_refl t _
  | diesAfter hstep => exact keepsBut_of_step hstep
  | someFolders hadds _ => exact hadds.keepsBut
  | emptied hstep _ => exact keepsBut_of_step hstep
  | someBytes n hstep _ => exact (of_writeFile hstep).2

/-- A file system on a file tree whose steps can fail, and where the process can die. -/
def MayFail (disk : Disk (OptionT (StateM FileTree))) : Prop :=
  ∀ c t r t', (disk.change c).run.run t = (r, t') → t.Outcome c r t'

/-- What can become of steps in order. The first one that does not succeed is the last one. -/
inductive Attempt : FileTree → List Change → Option (Except DiskError Unit) → FileTree → Prop
  | nil (t : FileTree) : Attempt t [] (some (.ok ())) t
  | stop {t t' : FileTree} {c : Change} {cs : List Change} {r : Option (Except DiskError Unit)} :
      t.Outcome c r t' → r ≠ some (.ok ()) → Attempt t (c :: cs) r t'
  | next {t t₁ t' : FileTree} {c : Change} {cs : List Change}
      {r : Option (Except DiskError Unit)} :
      t.step c = .ok t₁ → Attempt t₁ cs r t' → Attempt t (c :: cs) r t'

/-- What a file system that may fail makes of steps is one of the things that can become of them. -/
theorem attempt_of_run {disk : Disk (OptionT (StateM FileTree))} (hdisk : MayFail disk)
    (h : (disk.changes cs).run.run t = (r, t')) : t.Attempt cs r t' := by
  induction cs generalizing t with
  | nil =>
    obtain ⟨rfl, rfl⟩ := Prod.mk.inj h
    exact .nil t
  | cons c cs ih =>
    cases hchange : (disk.change c).run.run t with
    | mk answer t₁ =>
      have houtcome := hdisk c t answer t₁ hchange
      rw [Disk.changes, OptionT.run_bind, Option.elimM, StateT.run_bind, hchange] at h
      rcases answer with _ | e | _
      · obtain ⟨rfl, rfl⟩ := Prod.mk.inj h
        exact .stop houtcome (by simp)
      · obtain ⟨rfl, rfl⟩ := Prod.mk.inj h
        exact .stop houtcome (by simp)
      · exact .next houtcome.step_eq (ih h)

/-- Steps at some places leave all other files as they are, wherever they end. -/
theorem Attempt.keepsBut {places : List Location} (h : t.Attempt cs r t')
    (hplaces : ∀ c ∈ cs, c.places ⊆ places) : t.KeepsBut places t' := by
  induction h with
  | nil t => exact keepsBut_refl t places
  | stop houtcome _ => exact houtcome.keepsBut.mono (hplaces _ List.mem_cons_self)
  | next hstep _ ih =>
    obtain ⟨hfirst, hrest⟩ := List.forall_mem_cons.mp hplaces
    exact ((keepsBut_of_step hstep).mono hfirst).trans (ih hrest)

/-- Steps end among the first ones, or these succeed and the others go on from there. -/
theorem Attempt.append_cases (h : t.Attempt (cs ++ ds) r t') :
    (t.Attempt cs r t' ∧ r ≠ some (.ok ())) ∨
      ∃ t₁, t.Attempt cs (some (.ok ())) t₁ ∧ t₁.Attempt ds r t' := by
  induction cs generalizing t with
  | nil => exact .inr ⟨t, .nil t, h⟩
  | cons c cs ih =>
    cases h with
    | stop houtcome hr => exact .inl ⟨.stop houtcome hr, hr⟩
    | next hstep hrest =>
      rcases ih hrest with ⟨hfirst, hr⟩ | ⟨t₁, hfirst, hlast⟩
      · exact .inl ⟨.next hstep hfirst, hr⟩
      · exact .inr ⟨t₁, .next hstep hfirst, hlast⟩

theorem Attempt.cons_ok (h : t.Attempt (c :: cs) (some (.ok ())) t') :
    ∃ t₁, t.step c = .ok t₁ ∧ t₁.Attempt cs (some (.ok ())) t' := by
  cases h with
  | stop _ hr => exact absurd rfl hr
  | next hstep hrest => exact ⟨_, hstep, hrest⟩

/-! ### Replacing a file -/

/-- The steps of a replacement that come before the last one. -/
def preparation (p : Path) (bytes : ByteArray) : List Change :=
  Change.foldersOf p ++
    [.clear (Path.partner p), .append (Path.partner p) bytes, .sync (Path.partner p)]

theorem replacement_eq (p : Path) (bytes : ByteArray) :
    Change.replacement p bytes = preparation p bytes ++ [.rename (Path.partner p) p] := by
  rw [Change.replacement, preparation, List.append_assoc]
  rfl

theorem places_preparation : ∀ c ∈ preparation p bytes, c.places ⊆ [(Path.partner p).place] := by
  intro c hc
  rw [preparation, List.mem_append, Change.foldersOf] at hc
  rcases hc with hfolders | hc
  · split_ifs at hfolders
    · cases hfolders
    · rw [List.mem_singleton.mp hfolders]
      exact List.nil_subset _
  · simp only [List.mem_cons, List.not_mem_nil, or_false] at hc
    rcases hc with rfl | rfl | rfl
    · exact List.Subset.refl _
    · exact List.Subset.refl _
    · exact List.nil_subset _

/-- Once it is prepared, the new content stands at the partner, whatever was there before. -/
theorem file?_of_preparation (h : t.Attempt (preparation p bytes) (some (.ok ())) t') :
    t'.file? (Path.partner p).place = some bytes := by
  obtain ⟨-, hr⟩ | ⟨t₁, -, hwrites⟩ := h.append_cases
  · exact absurd rfl hr
  obtain ⟨t₂, hclear, hwrites⟩ := hwrites.cons_ok
  obtain ⟨t₃, happend, hwrites⟩ := hwrites.cons_ok
  obtain ⟨t₄, hsync, hend⟩ := hwrites.cons_ok
  obtain rfl : t' = t₄ := by cases hend with | nil => rfl
  rw [of_sync hsync, (of_writeFile happend).1, (of_writeFile hclear).1, Option.getD_some,
    ByteArray.empty_append]

/-- A replacement ends before the file is moved, when at most the partner has another content, or
with the file being moved, which is no failure. -/
theorem Attempt.replacement_cases (h : t.Attempt (Change.replacement p bytes) r t') :
    (t.KeepsBut [(Path.partner p).place] t' ∧ r ≠ some (.ok ())) ∨
      (t'.read p = .ok bytes ∧ t'.entry? (Path.partner p).place = none ∧
        t.KeepsBut [(Path.partner p).place, p.place] t' ∧ ∀ e, r ≠ some (.error e)) := by
  rw [replacement_eq] at h
  obtain ⟨hfirst, hr⟩ | ⟨t₁, hfirst, hlast⟩ := h.append_cases
  · exact .inl ⟨hfirst.keepsBut places_preparation, hr⟩
  have hkeep := hfirst.keepsBut places_preparation
  have hmoved (hstep : t₁.step (.rename (Path.partner p) p) = .ok t') :
      t'.read p = .ok bytes ∧ t'.entry? (Path.partner p).place = none ∧
        t.KeepsBut [(Path.partner p).place, p.place] t' := by
    obtain ⟨content, hcontent, hread, hgone, hmove⟩ := of_rename hstep
    rw [file?_of_preparation hfirst] at hcontent
    exact ⟨Option.some.inj hcontent ▸ hread, hgone p.place_partner_ne,
      (hkeep.mono (by simp)).trans hmove⟩
  cases hlast with
  | stop houtcome hr =>
    cases houtcome with
    | done _ => exact absurd rfl hr
    | refused _ => exact .inl ⟨hkeep, hr⟩
    | diesBefore => exact .inl ⟨hkeep, hr⟩
    | diesAfter hstep =>
      obtain ⟨hread, hgone, hall⟩ := hmoved hstep
      exact .inr ⟨hread, hgone, hall, nofun⟩
  | next hstep hend =>
    cases hend with
    | nil =>
      obtain ⟨hread, hgone, hall⟩ := hmoved hstep
      exact .inr ⟨hread, hgone, hall, nofun⟩

/-- The file at a path is as before: it has the same content, or there is none as before. What could
be read still is, and nothing else is read. (A path that goes into a folder and back out of it cannot
be read while that folder is missing, even if there is a file at its place.) -/
structure SameFile (t : FileTree) (p : Path) (t' : FileTree) : Prop where
  file?_eq : t'.file? p.place = t.file? p.place
  read_eq (old : ByteArray) : t.read p = .ok old → t'.read p = .ok old
  of_read (found : ByteArray) : t'.read p = .ok found → t.file? p.place = some found

theorem KeepsBut.sameFile {places : List Location} (h : t.KeepsBut places t')
    (hp : p.place ∉ places) : t.SameFile p t' where
  file?_eq := h.file?_eq _ hp
  read_eq _ hold := h.read_eq hold ((h.file?_eq _ hp).trans (file?_of_read hold))
  of_read _ hfound := (h.file?_eq _ hp).symm.trans (file?_of_read hfound)

/-- A file is replaced as a whole or not at all, for every path, whatever was in the file and
at the partner of the path before, and wherever the steps fail or the process dies. Afterwards the
file is as before or has exactly the new content; if there was an error it is as before. If the
steps succeed, the new content is read, and there is nothing at the partner. No other file has
changed. -/
theorem replace_all_or_nothing {disk : Disk (OptionT (StateM FileTree))} (hdisk : MayFail disk)
    (p : Path) (bytes : ByteArray) (h : (disk.replace p bytes).run.run t = (r, t')) :
    (t.SameFile p t' ∨ t'.file? p.place = some bytes ∧ t'.read p = .ok bytes) ∧
      (∀ e, r = some (.error e) → t.SameFile p t') ∧
      (r = some (.ok ()) → t'.file? p.place = some bytes ∧ t'.read p = .ok bytes ∧
        t'.entry? (Path.partner p).place = none) ∧
      ∀ q, q ≠ p.place → q ≠ (Path.partner p).place → t'.file? q = t.file? q := by
  obtain ⟨hkeep, hr⟩ | ⟨hread, hgone, hkeep, hr⟩ := (attempt_of_run hdisk h).replacement_cases
  · have hsame : t.SameFile p t' := hkeep.sameFile (by simpa using p.place_partner_ne.symm)
    exact ⟨.inl hsame, fun _ _ => hsame, fun hok => absurd hok hr,
      fun q _ hq => hkeep.file?_eq q (by simpa using hq)⟩
  · have hnew := file?_of_read hread
    exact ⟨.inr ⟨hnew, hread⟩, fun e he => absurd he (hr e), fun _ => ⟨hnew, hread, hgone⟩,
      fun q hq hq' => hkeep.file?_eq q (by simp [hq, hq'])⟩

/-- A file system where the process dies once the first bytes of a write have been written. -/
def dyingDisk (n : ℕ) : Disk (OptionT (StateM FileTree)) where
  read p := OptionT.mk fun t => (some (t.read p), t)
  change c := OptionT.mk fun t =>
    match c with
    | .append p bytes =>
      match t.step (.append p (bytes.extract 0 n)) with
      | .ok t' => (none, t')
      | .error e => (some (.error e), t)
    | c =>
      match t.step c with
      | .ok t' => (some (.ok ()), t')
      | .error e => (some (.error e), t)

theorem mayFail_dyingDisk (n : ℕ) : MayFail (dyingDisk n) := by
  intro c t r t' h
  have hother (h : (match t.step c with
      | .ok t' => (some (.ok ()), t')
      | .error e => (some (.error e), t)) = (r, t')) : t.Outcome c r t' := by
    cases hstep : t.step c with
    | ok t₁ =>
      rw [hstep] at h
      obtain ⟨rfl, rfl⟩ := Prod.mk.inj h
      exact .done hstep
    | error e =>
      rw [hstep] at h
      obtain ⟨rfl, rfl⟩ := Prod.mk.inj h
      exact .refused c e
  cases c with
  | append p bytes =>
    change (match t.step (.append p (bytes.extract 0 n)) with
      | .ok t' => (none, t')
      | .error e => (some (.error e), t)) = (r, t') at h
    cases hstep : t.step (.append p (bytes.extract 0 n)) with
    | ok t₁ =>
      rw [hstep] at h
      obtain ⟨rfl, rfl⟩ := Prod.mk.inj h
      exact .someBytes n hstep nofun
    | error e =>
      rw [hstep] at h
      obtain ⟨rfl, rfl⟩ := Prod.mk.inj h
      exact .refused _ e
  | _ => exact hother h

/-- The process dies after two bytes have been written over what an earlier attempt has left. -/
theorem replace_all_or_nothing_dies :
    let t : FileTree := ⟨[(["plans", "plan.txt"], .file "old".toUTF8),
      (["plans", "plan.txt.tmp"], .file "left over".toUTF8), (["plans"], .folder),
      (["seeds.jsonl"], .file "log".toUTF8)]⟩
    ∃ t', MayFail (dyingDisk 2) ∧
      ((dyingDisk 2).replace "plans/plan.txt" "fresh".toUTF8).run.run t = (none, t') ∧
      t'.read "plans/plan.txt" = .ok "old".toUTF8 ∧
      t'.read "plans/plan.txt.tmp" = .ok "fr".toUTF8 ∧
      t'.file? ["seeds.jsonl"] = some "log".toUTF8 := by
  intro t
  obtain ⟨t', hrun, hside⟩ : ∃ t',
      ((dyingDisk 2).replace "plans/plan.txt" "fresh".toUTF8).run.run t = (none, t') ∧
        t'.read "plans/plan.txt.tmp" = .ok "fr".toUTF8 ∧
        t'.read "plans/plan.txt" ≠ .ok "fresh".toUTF8 :=
    ⟨_, rfl, by decide, by decide⟩
  obtain ⟨hsame | hnew, -, -, hothers⟩ :=
    replace_all_or_nothing (mayFail_dyingDisk 2) "plans/plan.txt" "fresh".toUTF8 hrun
  · exact ⟨t', mayFail_dyingDisk 2, hrun, hsame.read_eq _ rfl, hside.1,
      hothers ["seeds.jsonl"] (by decide) (by decide)⟩
  · exact absurd hnew.2 hside.2

end FileTree

end Raceway
