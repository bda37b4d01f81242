import Usbrw.Ext.Names

/-!
# Ext.Intact

What `extfsk_rename` leaves when it fails. It undoes nothing, so all depends on what was done before
the call that failed.

* `Intact`       — both names resolve as before (the new one perhaps to nothing), no other entry has
  changed, and what the new name stood for is the same.
* `Spared`       — `ext_after_unlink` fails, or finds no link, before it changes the inode.
* `Uncommitted`  — the call that fails comes before anything lasting.
* `Regular`      — two different names, the new one for nothing or for an inode in use.
* `rename_intact` — a failed call leaves the volume intact where it is uncommitted; on regular names,
  only there.
-/

namespace Usbrw
namespace Ext

open Call Volume

variable {σ : Type}

/-! ## Volumes that are intact -/

structure Intact (oldDir : UInt32) (oldName : List UInt8) (newDir : UInt32) (newName : List UInt8)
    (v w : Volume) : Prop where
  old : w.named oldDir oldName = v.named oldDir oldName
  new : w.named newDir newName = v.named newDir newName ∨ w.named newDir newName = none
  entries : w.dir = v.dir ∨
    ∃ x, v.named newDir newName = some x ∧ w.dir = (v.unlinked newDir newName x).dir
  target : ∀ x, v.named newDir newName = some x →
    w.node x = v.node x ∧ w.data x = v.data x ∧ w.inUse x = v.inUse x

/-- The entry of the new name can be missed: the old name resolves without it, and what is left of
the new name resolves to nothing else. -/
structure Dispensable (oldDir : UInt32) (oldName : List UInt8) (newDir : UInt32)
    (newName : List UInt8) (x : UInt32) (v : Volume) : Prop where
  old : (v.unlinked newDir newName x).named oldDir oldName = v.named oldDir oldName
  new : (v.unlinked newDir newName x).named newDir newName = some x ∨
    (v.unlinked newDir newName x).named newDir newName = none
  apart : x ≠ newDir

/-- Two different names, the new one for nothing or for an inode in use. -/
structure Regular (oldDir : UInt32) (oldName : List UInt8) (newDir : UInt32) (newName : List UInt8)
    (v : Volume) : Prop where
  names : ¬ (oldDir = newDir ∧ oldName = newName)
  apart : ∀ x, v.named newDir newName = some x → x ≠ newDir
  inUse : ∀ x, v.named newDir newName = some x → v.inUse x = true
  links : ∀ x, v.named newDir newName = some x → (v.node x).isDir = false → (v.node x).links ≠ 0

section Volumes

variable {oldDir newDir x d : UInt32} {oldName newName name : List UInt8} {u v w : Volume}
  {e : Dirent}

theorem Resized.onlyNode (h : Resized d v w) : OnlyNode d v w := ⟨h.dir, h.inUse, h.data, h.nodes⟩

theorem Intact.refl : Intact oldDir oldName newDir newName v v :=
  ⟨rfl, .inl rfl, .inl rfl, fun _ _ => ⟨rfl, rfl, rfl⟩⟩

theorem Intact.of_eq (h : w = v) : Intact oldDir oldName newDir newName v w := by
  rw [h]
  exact Intact.refl

theorem OnlyNode.intact (h : OnlyNode newDir v w) (hown : v.named newDir newName ≠ some newDir) :
    Intact oldDir oldName newDir newName v w := by
  refine ⟨named_congr h.dir _ _, .inl (named_congr h.dir _ _), .inl h.dir, ?_⟩
  intro x hx
  have hne : x ≠ newDir := by
    rintro rfl
    exact hown hx
  exact ⟨h.nodes x hne, by rw [h.data], by rw [h.inUse]⟩

theorem OnlyNode.intact_unlinked (h : OnlyNode newDir (v.unlinked newDir newName x) w)
    (hx : v.named newDir newName = some x)
    (hd : Dispensable oldDir oldName newDir newName x v) :
    Intact oldDir oldName newDir newName v w := by
  refine ⟨?_, ?_, .inr ⟨x, hx, h.dir⟩, ?_⟩
  · rw [named_congr h.dir, hd.old]
  · rw [named_congr h.dir, hx]
    exact hd.new
  · intro y hy
    have hyx : y = x := Option.some.inj (hy.symm.trans hx)
    rw [hyx]
    exact ⟨h.nodes x hd.apart, by rw [h.data]; rfl, by rw [h.inUse]; rfl⟩

/-- What `Intact` leaves of a directory is no more than there was. -/
theorem Intact.names_sublist (h : Intact oldDir oldName newDir newName v w) (d : UInt32) :
    (w.names d).Sublist (v.names d) := by
  cases h.entries with
  | inl heq => rw [names, names, heq]
  | inr hx =>
    obtain ⟨x, _, hdir⟩ := hx
    rw [names, names, hdir]
    refine List.Sublist.map _ ?_
    by_cases hd : d = newDir
    · rw [hd, unlinked_dir_self]
      exact List.eraseP_sublist
    · rw [unlinked_dir_of_ne hd]

/-- An entry that was added and is still there shows. -/
theorem not_intact_of_entered (h : Entered newDir e v u) (hdir : w.dir newDir = u.dir newDir) :
    ¬ Intact oldDir oldName newDir newName v w := by
  intro hi
  have hle := (hi.names_sublist newDir).length_le
  have hlen := h.linked.names.length_eq
  rw [names, hdir, ← names, hlen, List.length_cons] at hle
  omega

/-- And so does the old entry that was removed after that. -/
theorem not_intact_of_moved (h : Entered newDir e v u) (he : e.name = newName)
    (hnames : ¬ (oldDir = newDir ∧ oldName = newName))
    (hx : ∃ y ∈ u.dir oldDir, y.Names oldName x) (hw : w.dir = (u.unlinked oldDir oldName x).dir) :
    ¬ Intact oldDir oldName newDir newName v w := by
  by_cases hd : oldDir = newDir
  · intro hi
    rw [hd] at hx
    have hsub := hi.names_sublist newDir
    have hperm : (oldName :: w.names newDir).Perm (newName :: v.names newDir) := by
      rw [← he, names, hw, hd, ← names]
      exact (unlinked_names hx).symm.trans h.linked.names
    have hlen : (w.names newDir).length = (v.names newDir).length := by
      have := hperm.length_eq
      simpa using this
    rw [hsub.eq_of_length hlen] at hperm
    have hcount := hperm.count_eq newName
    rw [List.count_cons_self, List.count_cons_of_ne fun heq => hnames ⟨hd, heq⟩] at hcount
    omega
  · refine not_intact_of_entered h ?_
    rw [hw, unlinked_dir_of_ne fun heq => hd heq.symm]

end Volumes

/-! ## `ext_after_unlink` on what was replaced -/

section Replaced

variable {fs : Ext2fs σ} {V : View σ} {x p : UInt32} {s s' : σ} {inode : Ext2Inode}

/-- The inode has blocks and they cannot be punched. -/
def PunchFails (fs : Ext2fs σ) (x : UInt32) (inode : Ext2Inode) (s : σ) : Prop :=
  fs.inodeHasValidBlocks2 inode = true ∧ ∃ e s', fs.punch x inode 0 (-1) s = .error e s'

/-- `ext_after_unlink` cannot read the inode, or cannot punch its blocks, or cannot write it back
with a link less, or it is a file without a link. -/
def Spared (fs : Ext2fs σ) (x p : UInt32) (s : σ) : Prop :=
  (∃ e s', fs.readInode x s = .error e s') ∨
  ∃ inode s₁, fs.readInode x s = .ok inode s₁ ∧
    if LINUX_S_ISDIR inode.iMode then
      PunchFails fs x (inode.dead (fs.time s₁)) (dropParentLink fs p s₁)
    else if inode.iLinksCount = 0 then True
    else if inode.iLinksCount - 1 = 0 then PunchFails fs x (inode.dead (fs.time s₁)) s₁
    else ∃ e s₂, fs.writeInode x
      { inode with iLinksCount := inode.iLinksCount - 1, iCtime := fs.time s₁ } s₁ = .error e s₂

theorem releaseInode_punchFails (hL : Lawful fs V) (isdir : Bool) (h : PunchFails fs x inode s) :
    ∃ e s', releaseInode fs x inode isdir s = .error e s' ∧ V.volume s' = V.volume s := by
  obtain ⟨hvalid, e, s', hpunch⟩ := h
  refine ⟨translateErrno e, s', ?_, (hL.punch (V.volume s) x inode).error rfl hpunch⟩
  rw [releaseInode, if_pos hvalid, run_bind_error (run_orFail_error hpunch)]

/-- Where the inode is spared, the call fails or there was no link to take. -/
theorem Spared.run (hL : Lawful fs V) (h : Spared fs x p s) :
    OnlyNode p (V.volume s) (V.volume (final (extAfterUnlink fs x true p s))) ∧
      ((∃ e s', extAfterUnlink fs x true p s = .error e s') ∨
        ((V.volume s).node x).isDir = false ∧ ((V.volume s).node x).links = 0) := by
  cases h with
  | inl h =>
    obtain ⟨e, s', hread⟩ := h
    have hs' := (hL.readInode (V.volume s) x).error rfl hread
    have hrun : extAfterUnlink fs x true p s = .error (translateErrno e) s' := by
      rw [extAfterUnlink, run_bind_error (run_orFail_error hread)]
    rw [hrun]
    exact ⟨OnlyNode.of_eq hs', .inl ⟨_, _, rfl⟩⟩
  | inr h =>
    obtain ⟨inode, s₁, hread, h⟩ := h
    obtain ⟨hnode, hs₁⟩ := (hL.readInode (V.volume s) x).ok rfl hread
    have hstart : OnlyNode p (V.volume s) (V.volume s₁) := OnlyNode.of_eq hs₁
    rw [extAfterUnlink_run hread]
    by_cases hdir : LINUX_S_ISDIR inode.iMode = true
    · rw [if_pos hdir] at h
      obtain ⟨e, s', hrun, hs'⟩ := releaseInode_punchFails hL true h
      rw [if_pos hdir, hrun, final_error, hs']
      exact ⟨hstart.trans (dropParentLink_onlyNode hL p s₁), .inl ⟨_, _, rfl⟩⟩
    · rw [if_neg hdir] at h ⊢
      by_cases h0 : inode.iLinksCount = 0
      · rw [if_pos h0]
        refine ⟨hstart, .inr ⟨?_, ?_⟩⟩
        · rw [← isDir_of_node hnode]
          exact eq_false_of_ne_true hdir
        · rw [← hnode]
          exact h0
      · rw [if_neg h0] at h ⊢
        by_cases h1 : inode.iLinksCount - 1 = 0
        · rw [if_pos h1] at h ⊢
          obtain ⟨e, s', hrun, hs'⟩ := releaseInode_punchFails hL false h
          rw [hrun, final_error, hs']
          exact ⟨hstart, .inl ⟨_, _, rfl⟩⟩
        · rw [if_neg h1] at h ⊢
          obtain ⟨e, s₂, hwrite⟩ := h
          have hs₂ := (hL.writeInode (V.volume s₁) x _).error rfl hwrite
          rw [run_orFail_error hwrite, final_error]
          exact ⟨hstart.trans (OnlyNode.of_eq hs₂), .inl ⟨_, _, rfl⟩⟩

/-- The inode is free, or has another link count than before. -/
def Struck (x : UInt32) (v w : Volume) : Prop :=
  w.inUse x = false ∨ (w.node x).links ≠ (v.node x).links

theorem Freed.struck {v : Volume} (h : Freed V x v s) : Struck x v (V.volume s) := .inl h.2

theorem not_punchFails (h : ¬ PunchFails fs x inode s)
    (hvalid : fs.inodeHasValidBlocks2 inode = true) :
    ∃ inode' s', fs.punch x inode 0 (-1) s = .ok inode' s' := by
  cases hpunch : fs.punch x inode 0 (-1) s with
  | ok inode' s' => exact ⟨inode', s', rfl⟩
  | error e s' => exact absurd ⟨hvalid, e, s', hpunch⟩ h

/-- Where it is not spared, it is struck. -/
theorem struck_of_not_spared (hL : Lawful fs V) (h : ¬ Spared fs x p s) :
    Struck x (V.volume s) (V.volume (final (extAfterUnlink fs x true p s))) := by
  cases hread : fs.readInode x s with
  | error e s' => exact absurd (.inl ⟨e, s', hread⟩) h
  | ok inode s₁ =>
    obtain ⟨hnode, hs₁⟩ := (hL.readInode (V.volume s) x).ok rfl hread
    have hsame : SameShape (V.volume s) (V.volume s₁) := View.Is.sameShape hs₁
    have hdead : (inode.dead (fs.time s₁)).node.mode = ((V.volume s).node x).mode := by
      rw [← hnode]
      rfl
    rw [extAfterUnlink_run hread]
    by_cases hdir : LINUX_S_ISDIR inode.iMode = true
    · rw [if_pos hdir]
      refine (releaseInode_frees hL true ?_ hdead (not_punchFails ?_)).struck
      · exact hsame.trans (dropParentLink_sameShape hL p s₁)
      · exact fun hp => h (.inr ⟨inode, s₁, hread, by rwa [if_pos hdir]⟩)
    · rw [if_neg hdir]
      by_cases h0 : inode.iLinksCount = 0
      · exact absurd (.inr ⟨inode, s₁, hread, by rw [if_neg hdir, if_pos h0]; trivial⟩) h
      · rw [if_neg h0]
        by_cases h1 : inode.iLinksCount - 1 = 0
        · rw [if_pos h1]
          refine (releaseInode_frees hL false hsame hdead (not_punchFails ?_)).struck
          exact fun hp => h (.inr ⟨inode, s₁, hread, by rwa [if_neg hdir, if_neg h0, if_pos h1]⟩)
        · rw [if_neg h1]
          cases hwrite : fs.writeInode x
              { inode with iLinksCount := inode.iLinksCount - 1, iCtime := fs.time s₁ } s₁ with
          | error e s₂ =>
            refine absurd (.inr ⟨inode, s₁, hread, ?_⟩) h
            rw [if_neg hdir, if_neg h0, if_neg h1]
            exact ⟨e, s₂, hwrite⟩
          | ok u s₂ =>
            have hs₂ := (hL.writeInode (V.volume s₁) x _).ok rfl hwrite
            rw [run_orFail_ok hwrite, final_ok, hs₂.eq]
            refine .inr ?_
            rw [← hnode, setNode_node, Function.update_self]
            show inode.iLinksCount - 1 ≠ inode.iLinksCount
            intro heq
            exact absurd (UInt16.left_eq_add.mp (UInt16.sub_eq_iff_eq_add.mp heq)) (by decide)

end Replaced

/-! ## `extfsk_rename` that fails -/

section Rename

variable {fs : Ext2fs σ} {V : View σ} {oldDir newDir : UInt64} {oldName newName : List UInt8}
  {ino x : UInt32} {s s' : σ} {e : Int}

/-- Of a file: what the new name stood for is spared, and linking the new name fails. -/
structure FileUncommitted (fs : Ext2fs σ) (V : View σ) (oldDir : UInt64) (oldName : List UInt8)
    (newDir : UInt64) (newName : List UInt8) (ino : UInt32) (s : σ) : Prop where
  replaced : ∀ x s₁ s₂, Replaces fs newDir newName x s s₁ →
    fs.unlink newDir.toUInt32 newName x s₁ = .ok () s₂ → Spared fs x newDir.toUInt32 s₂ ∧
      Dispensable oldDir.toUInt32 oldName newDir.toUInt32 newName x (V.volume s)
  linked : ∀ s₁, removeExisting fs newDir newName s = .ok () s₁ →
    (∃ e s₂, linkExpanding fs newDir.toUInt32 newName ino EXT2_FT_REG_FILE s₁ = .error e s₂) ∧
      (V.volume s).named newDir.toUInt32 newName ≠ some newDir.toUInt32

/-- The failing call comes before anything lasting was done. -/
def Uncommitted (fs : Ext2fs σ) (V : View σ) (oldDir : UInt64) (oldName : List UInt8)
    (newDir : UInt64) (newName : List UInt8) (s : σ) : Prop :=
  ∀ ino inode s₁, Finds fs oldDir oldName ino inode s s₁ →
    if LINUX_S_ISDIR inode.iMode then
      ∃ e s₂, fs.link newDir.toUInt32 newName ino.toUInt32 EXT2_FT_DIR s₁ = .error e s₂
    else FileUncommitted fs V oldDir oldName newDir newName ino.toUInt32 s₁

theorem Replaces.named (hL : Lawful fs V) (h : Replaces fs newDir newName x s s') :
    (V.volume s).named newDir.toUInt32 newName = some x := by
  obtain ⟨existing, s₁, hlookup, htarget⟩ := h
  obtain ⟨hnamed, hs₁⟩ := extfskLookup_named hL hlookup
  rw [unlinkTarget_eq hL (by rwa [hs₁]) htarget]
  exact hnamed

/-- What a file that is moved leaves: nothing, its new entry, or its new entry and no old one. -/
theorem moveEntry_cases (hL : Lawful fs V) (oldDir : UInt64) (oldName : List UInt8)
    (newDir : UInt64) (newName : List UInt8) (ino : UInt32) (s : σ) :
    ((∃ e s₁, linkExpanding fs newDir.toUInt32 newName ino EXT2_FT_REG_FILE s = .error e s₁) ∧
      Resized newDir.toUInt32 (V.volume s)
        (V.volume (final (moveEntry fs oldDir oldName newDir newName ino s)))) ∨
    ∃ u, Entered newDir.toUInt32 ⟨ino, newName, EXT2_FT_REG_FILE⟩ (V.volume s) u ∧
      (V.volume (final (moveEntry fs oldDir oldName newDir newName ino s)) = u ∨
        (∃ y ∈ u.dir oldDir.toUInt32, y.Names oldName ino) ∧
          V.volume (final (moveEntry fs oldDir oldName newDir newName ino s)) =
            u.unlinked oldDir.toUInt32 oldName ino) := by
  have hlink := linkExpanding_enters hL (V.volume s) newDir.toUInt32 newName ino EXT2_FT_REG_FILE
  unfold moveEntry
  cases hl : linkExpanding fs newDir.toUInt32 newName ino EXT2_FT_REG_FILE s with
  | error e s₁ =>
    rw [run_bind_error (run_orFail_error hl), final_error]
    exact .inl ⟨⟨e, s₁, rfl⟩, hlink.error rfl hl⟩
  | ok u s₁ =>
    rw [run_bind_ok (run_orFail_ok hl)]
    refine .inr ⟨V.volume s₁, hlink.ok rfl hl, ?_⟩
    have hunlink := hL.unlink (V.volume s₁) oldDir.toUInt32 oldName ino
    cases hu : fs.unlink oldDir.toUInt32 oldName ino s₁ with
    | error e s₂ =>
      rw [run_bind_error (run_orFail_error hu), final_error]
      exact .inl (hunlink.error rfl hu)
    | ok u s₂ =>
      rw [run_bind_ok (run_orFail_ok hu)]
      obtain ⟨hy, hs₂⟩ := hunlink.ok rfl hu
      have hkeep : V.Is (V.volume s₂) (final (extAfterUnlink fs ino false 0 s₂)) :=
        (extAfterUnlink_same hL (V.volume s₂) ino 0).final rfl
      exact .inr ⟨hy, by rw [hkeep.eq, hs₂.eq]⟩

/-- Moving a file changes no inode but its new directory, and frees none. -/
theorem moveEntry_nodes (hL : Lawful fs V) (oldDir : UInt64) (oldName : List UInt8)
    (newDir : UInt64) (newName : List UInt8) (ino : UInt32) (s : σ) :
    (V.volume (final (moveEntry fs oldDir oldName newDir newName ino s))).inUse =
        (V.volume s).inUse ∧
      ∀ i, i ≠ newDir.toUInt32 →
        (V.volume (final (moveEntry fs oldDir oldName newDir newName ino s))).node i =
          (V.volume s).node i := by
  cases moveEntry_cases hL oldDir oldName newDir newName ino s with
  | inl h => exact ⟨h.2.inUse, h.2.nodes⟩
  | inr h =>
    obtain ⟨u, hu, hw⟩ := h
    cases hw with
    | inl heq =>
      rw [heq]
      exact ⟨hu.inUse, hu.nodes⟩
    | inr heq =>
      rw [heq.2]
      exact ⟨hu.inUse, hu.nodes⟩

/-- A directory that is moved: linking fails and nothing has changed, or it has its new entry. -/
theorem renameDir_cases (hL : Lawful fs V) (hE : LawfulEdit fs V)
    (h : renameDir fs oldDir oldName newDir newName ino s = .error e s') :
    ((∃ err s₁, fs.link newDir.toUInt32 newName ino EXT2_FT_DIR s = .error err s₁) ∧
      V.volume s' = V.volume s) ∨
    (∀ err s₁, fs.link newDir.toUInt32 newName ino EXT2_FT_DIR s ≠ .error err s₁) ∧
    ∃ u, Entered newDir.toUInt32 ⟨ino, newName, EXT2_FT_DIR⟩ (V.volume s) u ∧
      (V.volume s' = u ∨ (∃ y ∈ u.dir oldDir.toUInt32, y.Names oldName ino) ∧
        V.volume s' = u.unlinked oldDir.toUInt32 oldName ino) := by
  have hlink := hL.link (V.volume s) newDir.toUInt32 newName ino EXT2_FT_DIR
  unfold renameDir at h
  cases hl : fs.link newDir.toUInt32 newName ino EXT2_FT_DIR s with
  | error err s₁ =>
    rw [run_bind_error (run_orFail_error hl)] at h
    cases h
    exact .inl ⟨⟨err, _, rfl⟩, hlink.error rfl hl⟩
  | ok u s₁ =>
    rw [run_bind_ok (run_orFail_ok hl)] at h
    obtain ⟨l₁, l₂, hd, hs₁⟩ := hlink.ok rfl hl
    refine .inr ⟨?_, V.volume s₁, ?_, ?_⟩
    · intro err t hne
      cases hne
    · rw [hs₁.eq]
      exact (Resized.refl _ _).entered hd
    have hunlink := hL.unlink (V.volume s₁) oldDir.toUInt32 oldName ino
    cases hu : fs.unlink oldDir.toUInt32 oldName ino s₁ with
    | error err s₂ =>
      rw [run_bind_error (run_orFail_error hu)] at h
      cases h
      exact .inl (hunlink.error rfl hu)
    | ok u s₂ =>
      rw [run_bind_ok (run_orFail_ok hu)] at h
      obtain ⟨hy, hs₂⟩ := hunlink.ok rfl hu
      by_cases hsame : oldDir = newDir
      · rw [if_pos hsame] at h
        cases h
      · rw [if_neg hsame] at h
        have hedit := rewriteDotdot_spec hE (V.volume s₂) ino newDir.toUInt32
        cases he : rewriteDotdot fs ino newDir.toUInt32 s₂ with
        | error err s₃ =>
          rw [run_bind_error (run_orFail_error he)] at h
          cases h
          exact .inr ⟨hy, (hedit.error rfl he).eq.trans hs₂.eq⟩
        | ok u s₃ =>
          -- from here on nothing fails
          rw [run_bind_ok (run_orFail_ok he)] at h
          cases h

theorem renameDir_intact (hL : Lawful fs V) (hE : LawfulEdit fs V)
    (h : renameDir fs oldDir oldName newDir newName ino s = .error e s')
    (hlink : ∃ err s₁, fs.link newDir.toUInt32 newName ino EXT2_FT_DIR s = .error err s₁) :
    V.volume s' = V.volume s := by
  obtain ⟨err, s₁, hl⟩ := hlink
  cases renameDir_cases hL hE h with
  | inl h => exact h.2
  | inr h => exact absurd hl (h.1 err s₁)

theorem renameDir_uncommitted (hL : Lawful fs V) (hE : LawfulEdit fs V)
    (h : renameDir fs oldDir oldName newDir newName ino s = .error e s')
    (hnames : ¬ (oldDir.toUInt32 = newDir.toUInt32 ∧ oldName = newName))
    (hi : Intact oldDir.toUInt32 oldName newDir.toUInt32 newName (V.volume s) (V.volume s')) :
    ∃ err s₁, fs.link newDir.toUInt32 newName ino EXT2_FT_DIR s = .error err s₁ := by
  cases renameDir_cases hL hE h with
  | inl h => exact h.1
  | inr h =>
    obtain ⟨_, u, hu, hw⟩ := h
    cases hw with
    | inl heq => exact absurd hi (not_intact_of_entered hu (by rw [heq]))
    | inr heq => exact absurd hi (not_intact_of_moved hu rfl hnames heq.1 (by rw [heq.2]))

/-- What a file rename leaves before it links: nothing new, or the new name's entry is gone. -/
theorem FileUncommitted.removed (hL : Lawful fs V)
    (h : FileUncommitted fs V oldDir oldName newDir newName ino s) :
    V.volume (final (removeExisting fs newDir newName s)) = V.volume s ∨
      ∃ x, (V.volume s).named newDir.toUInt32 newName = some x ∧
        Dispensable oldDir.toUInt32 oldName newDir.toUInt32 newName x (V.volume s) ∧
        OnlyNode newDir.toUInt32 ((V.volume s).unlinked newDir.toUInt32 newName x)
          (V.volume (final (removeExisting fs newDir newName s))) := by
  cases removeExisting_cases hL newDir newName s with
  | inl heq => exact .inl heq
  | inr hrem =>
    obtain ⟨x, s₁, s₂, hrep, hr, hrun⟩ := hrem
    have hcall : fs.unlink newDir.toUInt32 newName x s₁ = .ok () s₂ := hr.call
    obtain ⟨hspared, hdisp⟩ := h.replaced x s₁ s₂ hrep hcall
    refine .inr ⟨x, hrep.named hL, hdisp, ?_⟩
    rw [hrun, ← hr.volume]
    exact (hspared.run hL).1

theorem renameFile_intact (hL : Lawful fs V)
    (h : renameFile fs oldDir oldName newDir newName ino s = .error e s')
    (hu : FileUncommitted fs V oldDir oldName newDir newName ino s) :
    Intact oldDir.toUInt32 oldName newDir.toUInt32 newName (V.volume s) (V.volume s') := by
  have hremoved := hu.removed hL
  unfold renameFile at h
  cases hrem : removeExisting fs newDir newName s with
  | error err s₁ =>
    rw [run_bind_error hrem] at h
    cases h
    rw [hrem, final_error] at hremoved
    cases hremoved with
    | inl heq => exact Intact.of_eq heq
    | inr hx =>
      obtain ⟨x, hnamed, hdisp, honly⟩ := hx
      exact honly.intact_unlinked hnamed hdisp
  | ok u s₁ =>
    rw [run_bind_ok hrem] at h
    rw [hrem, final_ok] at hremoved
    obtain ⟨⟨err, t, hlink⟩, hown⟩ := hu.linked s₁ hrem
    have hs' : final (moveEntry fs oldDir oldName newDir newName ino s₁) = s' := by
      rw [h]
      rfl
    have hresized := (linkExpanding_enters hL (V.volume s₁) newDir.toUInt32 newName ino
      EXT2_FT_REG_FILE).error rfl hlink
    have ht : s' = t := by
      rw [← hs', moveEntry, run_bind_error (run_orFail_error hlink), final_error]
    rw [← ht] at hresized
    cases hremoved with
    | inl heq =>
      rw [heq] at hresized
      exact hresized.onlyNode.intact hown
    | inr hx =>
      obtain ⟨x, hnamed, hdisp, honly⟩ := hx
      exact (honly.trans hresized.onlyNode).intact_unlinked hnamed hdisp

/-- What was struck stays so. -/
theorem struck_after (hL : Lawful fs V) {v : Volume} {s₁ : σ} (hx : x ≠ newDir.toUInt32)
    (h : Struck x v (V.volume s₁)) :
    Struck x v (V.volume (final (moveEntry fs oldDir oldName newDir newName ino s₁))) := by
  obtain ⟨huse, hnodes⟩ := moveEntry_nodes hL oldDir oldName newDir newName ino s₁
  rw [Struck, huse, hnodes x hx]
  exact h

/-- What is struck when the new name's entry is removed is struck at the end. -/
theorem renameFile_struck (hL : Lawful fs V) (oldDir : UInt64) (oldName : List UInt8)
    (ino : UInt32) {s₂ : σ}
    (hrun : removeExisting fs newDir newName s = extAfterUnlink fs x true newDir.toUInt32 s₂)
    (hx : x ≠ newDir.toUInt32) (hns : ¬ Spared fs x newDir.toUInt32 s₂) :
    Struck x (V.volume s₂)
      (V.volume (final (renameFile fs oldDir oldName newDir newName ino s))) := by
  have hstruck := struck_of_not_spared hL hns
  rw [← hrun] at hstruck
  unfold renameFile
  cases hrem : removeExisting fs newDir newName s with
  | error err s₃ =>
    rw [run_bind_error hrem]
    rwa [hrem] at hstruck
  | ok u s₃ =>
    rw [run_bind_ok hrem]
    rw [hrem] at hstruck
    exact struck_after hL hx hstruck

theorem Intact.not_struck {d d' : UInt32} {v w : Volume} (h : Intact d oldName d' newName v w)
    (hx : v.named d' newName = some x) (huse : v.inUse x = true) : ¬ Struck x v w := by
  obtain ⟨hnode, _, hinUse⟩ := h.target x hx
  rintro (hfree | hlinks)
  · rw [hinUse, huse] at hfree
    cases hfree
  · exact hlinks (by rw [hnode])

/-- On regular names an intact volume means that what was replaced was spared, and that
`ext_after_unlink` failed. -/
theorem spared_of_intact (hL : Lawful fs V) {s₁ s₂ : σ}
    (h : renameFile fs oldDir oldName newDir newName ino s = .error e s')
    (hreg : Regular oldDir.toUInt32 oldName newDir.toUInt32 newName (V.volume s))
    (hi : Intact oldDir.toUInt32 oldName newDir.toUInt32 newName (V.volume s) (V.volume s'))
    (hrep : Replaces fs newDir newName x s s₁)
    (hcall : fs.unlink newDir.toUInt32 newName x s₁ = .ok () s₂) :
    Spared fs x newDir.toUInt32 s₂ ∧
      (∃ err, removeExisting fs newDir newName s = .error err s') ∧
      (V.volume s').dir = ((V.volume s).unlinked newDir.toUInt32 newName x).dir := by
  have hnamed := hrep.named hL
  have hrun : removeExisting fs newDir newName s =
      extAfterUnlink fs x true newDir.toUInt32 s₂ := by
    rw [hrep.run, run_bind_ok (run_orFail_ok hcall)]
  have hvol : V.volume s₂ = (V.volume s).unlinked newDir.toUInt32 newName x :=
    ((hL.unlink (V.volume s) newDir.toUInt32 newName x).ok (hrep.volume hL) hcall).2
  have hspared : Spared fs x newDir.toUInt32 s₂ := by
    by_contra hns
    have hstruck := renameFile_struck hL oldDir oldName ino hrun (hreg.apart x hnamed) hns
    rw [h, hvol] at hstruck
    exact hi.not_struck hnamed (hreg.inUse x hnamed) hstruck
  obtain ⟨honly, hfailed⟩ := hspared.run hL
  rw [hvol] at honly hfailed
  cases hfailed with
  | inr hnone => exact absurd hnone.2 (hreg.links x hnamed hnone.1)
  | inl herr =>
    obtain ⟨err, t, herr⟩ := herr
    rw [renameFile, run_bind_error (hrun.trans herr)] at h
    cases h
    rw [herr] at honly
    exact ⟨hspared, ⟨_, hrun.trans herr⟩, honly.dir⟩

theorem renameFile_uncommitted (hL : Lawful fs V)
    (h : renameFile fs oldDir oldName newDir newName ino s = .error e s')
    (hreg : Regular oldDir.toUInt32 oldName newDir.toUInt32 newName (V.volume s))
    (hi : Intact oldDir.toUInt32 oldName newDir.toUInt32 newName (V.volume s) (V.volume s')) :
    FileUncommitted fs V oldDir oldName newDir newName ino s := by
  refine ⟨?_, ?_⟩
  · intro x s₁ s₂ hrep hcall
    obtain ⟨hspared, _, hdir⟩ := spared_of_intact hL h hreg hi hrep hcall
    have hnamed := hrep.named hL
    refine ⟨hspared, ?_, ?_, hreg.apart x hnamed⟩
    · rw [← named_congr hdir, hi.old]
    · rw [← named_congr hdir, ← hnamed]
      exact hi.new
  · intro s₁ hrem
    refine ⟨?_, fun hown => hreg.apart _ hown rfl⟩
    have hstart : V.volume s₁ = V.volume s := by
      cases removeExisting_cases hL newDir newName s with
      | inl heq =>
        rw [hrem] at heq
        exact heq
      | inr hdone =>
        obtain ⟨x, t₁, t₂, hrep, hr, _⟩ := hdone
        obtain ⟨_, ⟨err, herr⟩, _⟩ := spared_of_intact hL h hreg hi hrep hr.call
        rw [hrem] at herr
        cases herr
    rw [renameFile, run_bind_ok hrem] at h
    have hcases := moveEntry_cases hL oldDir oldName newDir newName ino s₁
    rw [h, final_error, hstart] at hcases
    cases hcases with
    | inl hfail => exact hfail.1
    | inr hdone =>
      obtain ⟨u, hu, hw⟩ := hdone
      cases hw with
      | inl heq => exact absurd hi (not_intact_of_entered hu (by rw [heq]))
      | inr heq => exact absurd hi (not_intact_of_moved hu rfl hreg.names heq.1 (by rw [heq.2]))

theorem Finds.unique {ino ino' : UInt64} {inode inode' : Ext2Inode} {s₁ s₁' : σ}
    (h : Finds fs oldDir oldName ino inode s s₁) (h' : Finds fs oldDir oldName ino' inode' s s₁') :
    ino' = ino ∧ inode' = inode ∧ s₁' = s₁ := by
  obtain ⟨t, hlookup, hread⟩ := h
  obtain ⟨t', hlookup', hread'⟩ := h'
  rw [hlookup] at hlookup'
  cases hlookup'
  rw [hread] at hread'
  cases hread'
  exact ⟨rfl, rfl, rfl⟩

theorem uncommitted_iff {ino : UInt64} {inode : Ext2Inode} {s₁ : σ}
    (h : Finds fs oldDir oldName ino inode s s₁) :
    Uncommitted fs V oldDir oldName newDir newName s ↔
      if LINUX_S_ISDIR inode.iMode then
        ∃ e s₂, fs.link newDir.toUInt32 newName ino.toUInt32 EXT2_FT_DIR s₁ = .error e s₂
      else FileUncommitted fs V oldDir oldName newDir newName ino.toUInt32 s₁ := by
  constructor
  · exact fun hu => hu ino inode s₁ h
  · intro hu ino' inode' s₁' h'
    obtain ⟨rfl, rfl, rfl⟩ := h.unique h'
    exact hu

/-- A failed rename leaves the volume intact where the failing call comes before anything lasting;
where the two names are regular, only there. -/
theorem rename_intact (hL : Lawful fs V) (hE : LawfulEdit fs V)
    (h : extfskRename fs oldDir oldName newDir newName s = .error e s') :
    (Uncommitted fs V oldDir oldName newDir newName s →
      Intact oldDir.toUInt32 oldName newDir.toUInt32 newName (V.volume s) (V.volume s')) ∧
    (Regular oldDir.toUInt32 oldName newDir.toUInt32 newName (V.volume s) →
      Intact oldDir.toUInt32 oldName newDir.toUInt32 newName (V.volume s) (V.volume s') →
      Uncommitted fs V oldDir oldName newDir newName s) := by
  by_cases hfound : ∃ ino inode s₁, Finds fs oldDir oldName ino inode s s₁
  · obtain ⟨ino, inode, s₁, hfinds⟩ := hfound
    have hs₁ := (hfinds.node hL).2
    rw [uncommitted_iff hfinds, ← hs₁]
    by_cases hdir : LINUX_S_ISDIR inode.iMode = true
    · rw [hfinds.run_dir hdir] at h
      rw [if_pos hdir]
      refine ⟨fun hlink => Intact.of_eq (renameDir_intact hL hE h hlink), ?_⟩
      exact fun hreg hi => renameDir_uncommitted hL hE h hreg.names hi
    · rw [hfinds.run (eq_false_of_ne_true hdir)] at h
      rw [if_neg hdir]
      exact ⟨renameFile_intact hL h, renameFile_uncommitted hL h⟩
  · -- nothing was found
    refine ⟨fun _ => ?_, fun _ _ ino inode s₁ hfinds => absurd ⟨ino, inode, s₁, hfinds⟩ hfound⟩
    cases extfskRename_cases hL oldDir oldName newDir newName s with
    | inl hrefused =>
      obtain ⟨e', t, hrun, _, hvol⟩ := hrefused
      rw [h] at hrun
      cases hrun
      exact Intact.of_eq hvol
    | inr hdone => exact absurd hdone hfound

end Rename

/-! ## A disk without space for an entry -/

/-- `ext2fs_link` finds no block. -/
def fullLibrary : Ext2fs RefState :=
  { refLibraryNew.toExt2fs with link := fun _ _ _ _ => fun s => .error .blockAllocFail s }

theorem fullLibrary_lawful : Lawful fullLibrary RefState.view :=
  { refLibraryNew_lawful.lawful with link := fun _ _ _ _ _ _ hs => hs }

theorem fullLibrary_edit : LawfulEdit fullLibrary RefState.view := ⟨refLibraryNew_edit.dirIterate2⟩

/-- The root has two files, `a` and `b`, of a link each. -/
def twoFiles : RefState where
  volume :=
    { node := fun i => if i < 12 then ⟨LINUX_S_IFDIR, 2, 1024⟩ else ⟨LINUX_S_IFREG, 1, 3⟩
      inUse := fun i => i < 14
      data := fun i pos => if i < 14 ∧ 11 < i ∧ pos < 3 then 7 else 0
      dir := fun i =>
        if i = 2 then [⟨12, nameA, EXT2_FT_REG_FILE⟩, ⟨13, nameB, EXT2_FT_REG_FILE⟩] else [] }
  handles := []

/-- With nothing under the new name the file keeps its old one. -/
theorem rename_intact_full :
    ∃ s', extfskRename fullLibrary 2 nameA 2 nameF twoFiles = .error (-ENOSPC) s' ∧
      Intact 2 nameA 2 nameF twoFiles.volume s'.volume := by
  have huncommitted : Uncommitted fullLibrary RefState.view 2 nameA 2 nameF twoFiles := by
    intro ino inode s₁ hfinds
    obtain ⟨s₂, hlookup, hread⟩ := hfinds
    cases hlookup
    cases hread
    refine ⟨?_, fun s₃ hrem => ?_⟩
    · intro x s₁ s₂ hrep
      obtain ⟨existing, s₃, hl, _⟩ := hrep
      cases hl
    · cases hrem
      exact ⟨⟨_, _, rfl⟩, by decide⟩
  have hrun : extfskRename fullLibrary 2 nameA 2 nameF twoFiles = .error (-ENOSPC) twoFiles := rfl
  have hintact := (rename_intact fullLibrary_lawful fullLibrary_edit hrun).1 huncommitted
  exact ⟨_, hrun, hintact⟩

/-- With a file there, it is gone. -/
theorem displaced_on_full_disk :
    Lawful fullLibrary RefState.view ∧ LawfulEdit fullLibrary RefState.view ∧
    Regular 2 nameA 2 nameB twoFiles.volume ∧
    ∃ s', extfskRename fullLibrary 2 nameA 2 nameB twoFiles = .error (-ENOSPC) s' ∧
      ¬ Intact 2 nameA 2 nameB twoFiles.volume s'.volume ∧
      s'.volume.named 2 nameB = none ∧ s'.volume.inUse 13 = false ∧ s'.volume.data 13 0 = 0 := by
  refine ⟨fullLibrary_lawful, fullLibrary_edit, ?_, _, rfl, ?_, by decide, by decide, by decide⟩
  · have htarget : ∀ x, twoFiles.volume.named 2 nameB = some x → x = 13 := by
      intro x hx
      exact (Option.some.inj hx).symm
    refine ⟨by decide, ?_, ?_, ?_⟩
    · intro x hx
      rw [htarget x hx]
      decide
    · intro x hx
      rw [htarget x hx]
      decide
    · intro x hx _
      rw [htarget x hx]
      decide
  · intro hi
    exact absurd (hi.target 13 rfl).2.2 (by decide)

end Ext
end Usbrw
