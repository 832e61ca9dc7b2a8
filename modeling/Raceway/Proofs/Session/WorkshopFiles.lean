import Mathlib
import Raceway.Proofs.Disk.Tree
import Raceway.Proofs.Storage.Calls
import Raceway.Session.Workshop
/-!
# The files of a workshop

A workshop keeps its plan, its seed log and its snapshot in files. What it needs of them is that each
of its actions does what it says and leaves the other files alone. In a file tree they do so if the
files have different names in the working folder, and no folder is in their way.

## Main definitions

* `Raceway.Workshop.FilesWork`: the files of a workshop do what they are used for.
* `Raceway.Workshop.Fits`: a file tree in which they do so.

## Main results

* `Raceway.Workshop.filesWork_disk`: the files of a workshop work in a file tree.
-/

namespace Raceway

open Storage

namespace Workshop

variable {σ : Type} {places : Places} {p : Path}

/-- The files of a workshop do what they are used for, as seen by views of the kept plan and of the
snapshot. In states that are all right, the plan is brought back and kept, a snapshot is written to
its place, and nothing else changes. -/
structure FilesWork (disk : Disk (StateM σ)) (draw : StateM σ SeedDraw) (places : Places) (p : Path)
    (ok : σ → Prop) (keep : σ → Option String) (shot : σ → Option ByteArray) : Prop where
  load {s s' : σ} {r : Except StoreError (Option String)} :
    ok s → (disk.loadPlan places.plan).run s = (r, s') →
      r = .ok (keep s) ∧ ok s' ∧ keep s' = keep s ∧ shot s' = shot s
  save {text : String} {s s' : σ} {r : Except StoreError Unit} :
    ok s → (disk.savePlan places.plan text).run s = (r, s') →
      r = .ok () ∧ ok s' ∧ keep s' = some text ∧ shot s' = shot s
  record {entry : SeedEntry} {s s' : σ} {r : Except StoreError Unit} :
    ok s → (disk.recordSeed places.seedLog entry).run s = (r, s') →
      r = .ok () ∧ ok s' ∧ keep s' = keep s ∧ shot s' = shot s
  draw {s s' : σ} {r : SeedDraw} :
    ok s → draw.run s = (r, s') → ok s' ∧ keep s' = keep s ∧ shot s' = shot s
  saveSnapshot {snapshot : Snapshot} {s s' : σ} {r : Except StoreError Unit} :
    ok s → (disk.saveSnapshot p snapshot).run s = (r, s') →
      r = .ok () ∧ ok s' ∧ keep s' = keep s ∧ shot s' = some ⟨snapshot.encode.toArray⟩

/-! ### File trees -/

/-- The paths of all files that are written. -/
def files (places : Places) (p : Path) : List Path :=
  [places.plan, Path.partner places.plan, places.seedLog, p, Path.partner p]

/-- No folder is in the way of a file, and the file of the plan is a text. -/
structure Fits (places : Places) (p : Path) (t : FileTree) : Prop where
  exists_content : ∀ q ∈ files places p, ∃ content, t.HoldsFile q content
  exists_text : ∃ text : Option String, t.HoldsFile places.plan (text.map String.toUTF8)

/-- The plan, the seed log and the snapshot are apart, and no other file is in the way when one of
them is written. -/
theorem apart_of_nodup (h : (files places p).Nodup) :
    (places.plan ≠ places.seedLog ∧ places.plan ≠ p ∧ places.plan ≠ Path.partner p) ∧
      p ≠ places.seedLog ∧ p ≠ places.plan ∧ p ≠ Path.partner places.plan := by
  simp only [files, List.nodup_cons, List.mem_cons, not_or] at h
  obtain ⟨⟨-, hlog, hplan, hpartner, -⟩, ⟨-, hside, -⟩, ⟨hshot, -⟩, -⟩ := h
  exact ⟨⟨hlog, hplan, hpartner⟩, Ne.symm hshot, Ne.symm hplan, Ne.symm hside⟩

/-- The text of the plan in a file tree. -/
def keptText (places : Places) (t : FileTree) : Option String :=
  (t.content? places.plan).bind String.fromUTF8?

theorem fromUTF8_toUTF8 (text : String) : String.fromUTF8? text.toUTF8 = some text :=
  dif_pos text.isValidUTF8

theorem keptText_of_holdsFile {t : FileTree} {text : Option String}
    (h : t.HoldsFile places.plan (text.map String.toUTF8)) : keptText places t = text := by
  rw [keptText, h.content_eq, Option.bind_map]
  cases text with
  | none => rfl
  | some text => exact fromUTF8_toUTF8 text

/-- Replacing one of the files leaves the others as they are. -/
theorem Fits.replace {t : FileTree} (ht : Fits places p t)
    (hnames : ∀ q ∈ files places p, Path.IsName q) {q : Path} (hq : q ∈ files places p)
    (hpartner : Path.partner q ∈ files places p) (bytes : ByteArray) :
    ∃ t', (FileTree.disk.replace q bytes).run t = (.ok (), t') ∧
      (∀ r ∈ files places p, ∃ content, t'.HoldsFile r content) ∧ t'.HoldsFile q (some bytes) ∧
      ∀ r, r ≠ q → r ≠ Path.partner q → t'.entry? [r] = t.entry? [r] := by
  obtain ⟨content, hcontent⟩ := ht.exists_content q hq
  obtain ⟨before, hbefore⟩ := ht.exists_content _ hpartner
  obtain ⟨t', hrun, hnew, hgone, hothers⟩ := FileTree.run_replace (hnames q hq)
    (hnames _ hpartner) hcontent hbefore bytes
  refine ⟨t', hrun, fun r hr => ?_, hnew, hothers⟩
  by_cases hrq : r = q
  · exact ⟨_, hrq ▸ hnew⟩
  by_cases hrp : r = Path.partner q
  · exact ⟨_, hrp ▸ hgone⟩
  · obtain ⟨old, hold⟩ := ht.exists_content r hr
    exact ⟨old, hold.of_entry_eq (hothers r hrq hrp)⟩

/-- The files of a workshop work in a file tree, if they are different names in the working
folder. -/
theorem filesWork_disk (hnames : ∀ q ∈ files places p, Path.IsName q)
    (hnodup : (files places p).Nodup) (drawn : SeedDraw) :
    FilesWork FileTree.disk (pure drawn) places p (Fits places p) (keptText places)
      (FileTree.content? · p) where
  load {t t' r} ht hrun := by
    obtain ⟨text, htext⟩ := ht.exists_text
    have hread := FileTree.run_readText (hnames places.plan (by simp [files])) htext
    have hload : (FileTree.disk.loadPlan places.plan).run t = (.ok text, t) := by
      rw [Disk.loadPlan, Disk.textIfThere, run_bind_eq hread]
      cases text with
      | none => rfl
      | some text =>
        simp only [Option.map_some, Option.elim_some, Disk.text, fromUTF8_toUTF8]
        rfl
    obtain ⟨rfl, rfl⟩ := Prod.mk.inj (hload.symm.trans hrun)
    exact ⟨by rw [keptText_of_holdsFile htext], ht, rfl, rfl⟩
  save {text t t' r} ht hrun := by
    have hmem : places.plan ∈ files places p := by simp [files]
    obtain ⟨t₁, hreplace, hall, hnew, hothers⟩ :=
      ht.replace hnames hmem (by simp [files]) text.toUTF8
    have hsave : (FileTree.disk.savePlan places.plan text).run t = (.ok (), t₁) := by
      rw [Disk.savePlan, run_bind_eq hreplace]
      rfl
    obtain ⟨rfl, rfl⟩ := Prod.mk.inj (hsave.symm.trans hrun)
    have htext : t₁.HoldsFile places.plan ((some text).map String.toUTF8) := hnew
    refine ⟨rfl, ⟨hall, some text, htext⟩, keptText_of_holdsFile htext, ?_⟩
    obtain ⟨-, -, hplan, hside⟩ := apart_of_nodup hnodup
    exact FileTree.content_congr (hothers p hplan hside)
  record {entry t t' r} ht hrun := by
    obtain ⟨content, hcontent⟩ := ht.exists_content places.seedLog (by simp [files])
    obtain ⟨t₁, hadd, hnew, hothers⟩ := FileTree.run_addTo (hnames places.seedLog (by simp [files]))
      hcontent entry.line.toUTF8
    have hrecord : (FileTree.disk.recordSeed places.seedLog entry).run t = (.ok (), t₁) := by
      rw [Disk.recordSeed, run_bind_eq hadd]
      rfl
    obtain ⟨rfl, rfl⟩ := Prod.mk.inj (hrecord.symm.trans hrun)
    obtain ⟨⟨hlog, -, -⟩, hlogShot, -, -⟩ := apart_of_nodup hnodup
    have hplan := hothers places.plan hlog
    have hshot := hothers p hlogShot
    obtain ⟨text, htext⟩ := ht.exists_text
    refine ⟨rfl, ⟨fun q hq => ?_, text, htext.of_entry_eq hplan⟩, ?_, FileTree.content_congr hshot⟩
    · by_cases hql : q = places.seedLog
      · exact ⟨_, hql ▸ hnew⟩
      · obtain ⟨old, hold⟩ := ht.exists_content q hq
        exact ⟨old, hold.of_entry_eq (hothers q hql)⟩
    · rw [keptText, FileTree.content_congr hplan, keptText]
  draw {t t' r} ht hrun := by
    obtain ⟨-, rfl⟩ := Prod.mk.inj hrun
    exact ⟨ht, rfl, rfl⟩
  saveSnapshot {snapshot t t' r} ht hrun := by
    have hmem : p ∈ files places p := by simp [files]
    obtain ⟨t₁, hreplace, hall, hnew, hothers⟩ :=
      ht.replace hnames hmem (by simp [files]) ⟨snapshot.encode.toArray⟩
    have hsave : (FileTree.disk.saveSnapshot p snapshot).run t = (.ok (), t₁) := by
      rw [Disk.saveSnapshot, run_bind_eq hreplace]
      rfl
    obtain ⟨rfl, rfl⟩ := Prod.mk.inj (hsave.symm.trans hrun)
    obtain ⟨⟨-, hshot, hside⟩, -, -, -⟩ := apart_of_nodup hnodup
    have hplan := hothers places.plan hshot hside
    obtain ⟨text, htext⟩ := ht.exists_text
    refine ⟨rfl, ⟨hall, text, htext.of_entry_eq hplan⟩, ?_, hnew.content_eq⟩
    rw [keptText, FileTree.content_congr hplan, keptText]

end Workshop

end Raceway
