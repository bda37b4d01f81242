import Usbrw.Ext.Files

/-!
# Ext.Alias

`extfsk_rename` of a file to a name that the same inode has already, the entry itself or another hard
link of it. There is no check for it: the target is removed first, then linked again, and then the
old name is unlinked.

* `Harmless`        — a call that returns 0 and changes nothing.
* `rename_loses_entry` — one entry of the old name goes for good.
* `alias_never_harmless` — so the call is never harmless.
-/

namespace Usbrw
namespace Ext

open Call Volume

variable {σ : Type}

def Harmless (V : View σ) (s : σ) (r : EStateM.Result Int σ Unit) : Prop :=
  ∃ s', r = .ok () s' ∧ V.volume s' = V.volume s

namespace Volume

variable {v w : Volume} {d d' ino : UInt32} {name old : List UInt8} {e : Dirent}

theorem Linked.entries_of_ne (h : Linked d e v w) (hne : ¬ (d' = d ∧ e.name = name)) :
    w.entries d' name ino = v.entries d' name ino := by
  obtain ⟨l₁, l₂, hd, hw⟩ := h.dir
  unfold Volume.entries
  rw [hw]
  by_cases hc : d' = d
  · have he : ¬ (decide (e.Names name ino) = true) := by
      rw [decide_eq_true_eq]
      exact fun hn => hne ⟨hc, hn.1⟩
    rw [hc, Function.update_self, hd, List.countP_append, List.countP_append, List.countP_cons,
      if_neg he, Nat.add_zero]
  · rw [Function.update_of_ne hc]

theorem Linked.entries_le (h : Linked d e v w) :
    w.entries d' name ino ≤ v.entries d' name ino + 1 := by
  by_cases hsame : d' = d ∧ e.name = name
  · obtain ⟨l₁, l₂, hd, hw⟩ := h.dir
    unfold Volume.entries
    rw [hw, hsame.1, Function.update_self, hd, List.countP_append, List.countP_append,
      List.countP_cons]
    split <;> omega
  · rw [h.entries_of_ne hsame]
    exact Nat.le_succ _

end Volume

section Rename

variable {fs : Ext2fs σ} {V : View σ} {oldDir newDir : UInt64} {oldName newName : List UInt8}
  {ino : UInt64} {inode : Ext2Inode} {s s₁ s₂ : σ}

/-- A moved entry of the old name is gone; if the new name is the old one, it came back before. -/
theorem moveEntry_entries (hL : Lawful fs V) {x : UInt32} {s s' : σ}
    (h : moveEntry fs oldDir oldName newDir newName x s = .ok () s') :
    (V.volume s').entries oldDir.toUInt32 oldName x <
      (V.volume s).entries oldDir.toUInt32 oldName x +
        if oldDir.toUInt32 = newDir.toUInt32 ∧ newName = oldName then 1 else 0 := by
  obtain ⟨u, hentered, hx, hs'⟩ := moveEntry_returns hL h
  have hlt := entries_unlinked_lt hx
  rw [← hs'] at hlt
  by_cases hsame : oldDir.toUInt32 = newDir.toUInt32 ∧ newName = oldName
  · rw [if_pos hsame]
    exact Nat.lt_of_lt_of_le hlt hentered.linked.entries_le
  · rw [if_neg hsame, Nat.add_zero, ← hentered.linked.entries_of_ne hsame]
    exact hlt

/-- The entry of the new name goes first. -/
theorem removeExisting_around (hL : Lawful fs V)
    (hlookup : extfskLookup fs newDir newName s = .ok ino s₁)
    (h : removeExisting fs newDir newName s = .ok () s₂) :
    (∃ e ∈ (V.volume s).dir newDir.toUInt32, e.Names newName ino.toUInt32) ∧
      Around ino.toUInt32 ((V.volume s).unlinked newDir.toUInt32 newName ino.toUInt32)
        (V.volume s₂) := by
  obtain ⟨hnamed, hs₁⟩ := extfskLookup_named hL hlookup
  rw [removeExisting_found hlookup] at h
  obtain ⟨x, t₁, t₂, htarget, hrem, h⟩ := extfskUnlink_returns hL h
  have hx : x = ino.toUInt32 := unlinkTarget_eq hL (by rw [hs₁]; exact hnamed) htarget
  have haround := ((extAfterUnlink_spec hL (V.volume t₂) x newDir.toUInt32).ok rfl h).around
  have hentry := hrem.entry
  rw [hrem.volume, hs₁] at haround
  rw [hs₁] at hentry
  rw [hx] at haround hentry
  exact ⟨hentry, haround⟩

theorem removeExisting_entries (hL : Lawful fs V)
    (hsame : extfskLookup fs newDir newName s = .ok ino s₁)
    (h : removeExisting fs newDir newName s = .ok () s₂) (c : UInt32) (name : List UInt8) :
    (V.volume s₂).entries c name ino.toUInt32 +
        (if c = newDir.toUInt32 ∧ newName = name then 1 else 0) ≤
      (V.volume s).entries c name ino.toUInt32 := by
  obtain ⟨hentry, haround⟩ := removeExisting_around hL hsame h
  refine Nat.le_trans (Nat.add_le_add_right haround.entries_le _) ?_
  by_cases hhere : c = newDir.toUInt32 ∧ newName = name
  · obtain ⟨hc, hname⟩ := hhere
    rw [if_pos ⟨hc, hname⟩, hc, ← hname]
    exact entries_unlinked_lt hentry
  · rw [if_neg hhere, Nat.add_zero]
    exact entries_unlinked_le

/-- Wherever the call returns 0, an entry of the old name is gone for good. -/
theorem rename_loses_entry (hL : Lawful fs V) (hfinds : Finds fs oldDir oldName ino inode s s₁)
    (hfile : LINUX_S_ISDIR inode.iMode = false)
    (hsame : extfskLookup fs newDir newName s₁ = .ok ino s₂) {s' : σ}
    (h : extfskRename fs oldDir oldName newDir newName s = .ok () s') :
    (V.volume s').entries oldDir.toUInt32 oldName ino.toUInt32 <
      (V.volume s).entries oldDir.toUInt32 oldName ino.toUInt32 := by
  rw [hfinds.run hfile, renameFile] at h
  obtain ⟨_, t, hrem, h⟩ := bind_ok_iff.mp h
  have hgone := removeExisting_entries hL hsame hrem oldDir.toUInt32 oldName
  rw [(hfinds.node hL).2] at hgone
  exact Nat.lt_of_lt_of_le (moveEntry_entries hL h) hgone

theorem alias_never_harmless (hL : Lawful fs V) (hfinds : Finds fs oldDir oldName ino inode s s₁)
    (hfile : LINUX_S_ISDIR inode.iMode = false)
    (hsame : extfskLookup fs newDir newName s₁ = .ok ino s₂) :
    ¬ Harmless V s (extfskRename fs oldDir oldName newDir newName s) := by
  rintro ⟨s', hrun, hvol⟩
  have hlt := rename_loses_entry hL hfinds hfile hsame hrun
  rw [hvol] at hlt
  exact Nat.lt_irrefl _ hlt

end Rename

/-! ## A file renamed onto itself -/

def nameG : List UInt8 := [0x67]

/-- The root has one file, `f`. -/
def single : RefState where
  volume :=
    { node := fun i => if i = 13 then ⟨LINUX_S_IFREG, 1, 3⟩ else ⟨LINUX_S_IFDIR, 2, 1024⟩
      inUse := fun i => i = 2 ∨ i = 13
      data := fun i pos => if i = 13 ∧ pos < 3 then 7 else 0
      dir := fun i => if i = 2 then [⟨13, nameF, EXT2_FT_REG_FILE⟩] else [] }
  handles := []

/-- The same file with a second name, `g`. -/
def twoNames : RefState where
  volume :=
    { node := fun i => if i = 13 then ⟨LINUX_S_IFREG, 2, 3⟩ else ⟨LINUX_S_IFDIR, 2, 1024⟩
      inUse := fun i => i = 2 ∨ i = 13
      data := fun i pos => if i = 13 ∧ pos < 3 then 7 else 0
      dir := fun i =>
        if i = 2 then [⟨13, nameF, EXT2_FT_REG_FILE⟩, ⟨13, nameG, EXT2_FT_REG_FILE⟩] else [] }
  handles := []

theorem alias_hard_link :
    ¬ Harmless RefState.view twoNames
      (extfskRename (refLibrary fun _ => []) 2 nameF 2 nameG twoNames) := by
  have hfinds : Finds (refLibrary fun _ => []) 2 nameF 13 (twoNames.inode 13) twoNames twoNames :=
    ⟨twoNames, rfl, rfl⟩
  exact alias_never_harmless (refLibrary_lawful _) hfinds rfl rfl

/-- The call returns 0; the file has no entry any more, and its inode and its bytes are released. -/
theorem renamed_onto_itself :
    Lawful (refLibrary fun _ => []) RefState.view ∧
    single.volume.named 2 nameF = some 13 ∧ (single.volume.node 13).isDir = false ∧
    ¬ Harmless RefState.view single
      (extfskRename (refLibrary fun _ => []) 2 nameF 2 nameF single) ∧
    ∃ s', extfskRename (refLibrary fun _ => []) 2 nameF 2 nameF single = .ok () s' ∧
      s'.volume.dir 2 = [] ∧ s'.volume.inUse 13 = false ∧ s'.volume.data 13 0 = 0 := by
  refine ⟨refLibrary_lawful _, by decide, by decide, ?_, _, rfl, by decide, by decide, by decide⟩
  rintro ⟨s', hrun, hvol⟩
  cases hrun
  have hdir := congrArg (fun v : Volume => v.inUse 13) hvol
  exact absurd hdir (by decide)

end Ext
end Usbrw
