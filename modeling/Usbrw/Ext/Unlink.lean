import Usbrw.Ext.Parents

/-!
# Ext.Unlink

What `extfsk_unlink` leaves of a volume.

* `extAfterUnlink_spec` — `ext_after_unlink` changes nothing but the inode itself and link counts.
* `extfskUnlink_cases`  — the library refuses and nothing has changed, or the entry is gone.
* `SafeRemoval`         — an entry whose removal leaves nothing behind.
* `extfskUnlink_reachable` — such a removal keeps every allocated inode reachable.
-/

namespace Usbrw
namespace Ext

open Call Volume

variable {σ : Type}

/-! ## `ext_after_unlink` stays around its inode -/

section AfterUnlink

variable {fs : Ext2fs σ} {V : View σ}

theorem View.Is.sameShape {v : Volume} {s : σ} (h : V.Is v s) : SameShape v (V.volume s) := by
  rw [h.eq]
  exact SameShape.refl v

/-- The inode is free, and nothing else has changed. -/
def Freed (V : View σ) (ino : UInt32) (v : Volume) (s : σ) : Prop :=
  Around ino v (V.volume s) ∧ (V.volume s).inUse ino = false

theorem freed_writeInode (hL : Lawful fs V) {ino : UInt32} {v v' : Volume} {inode : Ext2Inode}
    (h : Around ino v v') (hfree : v'.inUse ino = false)
    (hmode : inode.node.mode = (v.node ino).mode) :
    Spec (V.Is v') (orFail translateErrno (fs.writeInode ino inode)) (fun _ => Freed V ino v)
      fun _ => Freed V ino v := by
  have hset : SameShape v' (v'.setNode ino inode.node) :=
    sameShape_setNode (hmode.trans (h.mode ino).symm)
  refine Spec.orFail (Spec.conseq_ok (hL.writeInode v' ino inode) ?_) ?_
  · intro _ s hs
    rw [Freed, hs.eq]
    exact ⟨h.trans (hset.around ino), hfree⟩
  · intro _ s hs
    rw [Freed, hs.eq]
    exact ⟨h, hfree⟩

/-- What follows the punch. -/
theorem markFree_spec (hL : Lawful fs V) {ino : UInt32} {v v' : Volume} {inode : Ext2Inode}
    (isdir : Bool) (h : Around ino v v') (hmode : inode.node.mode = (v.node ino).mode) :
    Spec (V.Is v') (do
        modify (fs.inodeAllocStats2 ino (-1) isdir)
        orFail translateErrno (fs.writeInode ino inode))
      (fun _ => Freed V ino v) fun _ => Freed V ino v := by
  refine Spec.bind (Spec.modify fun s hs => hL.inodeAllocStats2 v' ino (-1) isdir s hs) ?_
  intro _
  exact freed_writeInode hL (h.trans (around_setInUse v' ino _)) (by simp) hmode

/-- What follows a punch that succeeded. -/
theorem punched_spec (hL : Lawful fs V) {ino : UInt32} {v v' : Volume} {inode inode' : Ext2Inode}
    (isdir : Bool) (h : SameShape v v') (hmode : inode.node.mode = (v.node ino).mode) :
    Spec (fun s => inode'.node = inode.node ∧ ∃ n, (n = v'.node ino ∨ n = inode.node) ∧
        V.Is ((v'.setNode ino n).clear ino) s)
      (do
        modify (fs.inodeAllocStats2 ino (-1) isdir)
        orFail translateErrno (fs.writeInode ino inode'))
      (fun _ => Freed V ino v) fun _ => Freed V ino v := by
  rintro s ⟨hnode, n, hn, hs⟩
  have hn' : n.mode = (v'.node ino).mode := by
    cases hn with
    | inl hn => rw [hn]
    | inr hn => rw [hn, hmode, h.mode]
  have hclear : Around ino v ((v'.setNode ino n).clear ino) :=
    ((h.trans (sameShape_setNode hn')).around ino).trans (around_clear _ ino)
  exact markFree_spec hL isdir hclear (by rw [hnode]; exact hmode) s hs

/-- An inode is freed, or its blocks could not be punched and nothing has changed. -/
theorem releaseInode_spec (hL : Lawful fs V) {ino : UInt32} {v v' : Volume} {inode : Ext2Inode}
    (isdir : Bool) (h : SameShape v v') (hmode : inode.node.mode = (v.node ino).mode) :
    Spec (V.Is v') (releaseInode fs ino inode isdir) (fun _ => Freed V ino v)
      fun _ s => Freed V ino v s ∨ V.Is v' s := by
  unfold releaseInode
  by_cases hvalid : fs.inodeHasValidBlocks2 inode = true
  · simp only [if_pos hvalid]
    refine Spec.bind_orFail (hL.punch v' ino inode) (fun _ _ hs => Or.inr hs) ?_
    intro inode'
    exact Spec.conseq_error (punched_spec hL isdir h hmode) fun _ _ hs => Or.inl hs
  · simp only [if_neg hvalid]
    exact Spec.conseq_error (markFree_spec hL isdir (h.around ino) hmode) fun _ _ hs => Or.inl hs

/-- Where the punch does not fail, the inode is freed. -/
theorem releaseInode_frees (hL : Lawful fs V) {ino : UInt32} {v : Volume} {inode : Ext2Inode}
    (isdir : Bool) {s : σ} (h : SameShape v (V.volume s))
    (hmode : inode.node.mode = (v.node ino).mode)
    (hpunch : fs.inodeHasValidBlocks2 inode = true →
      ∃ inode' s', fs.punch ino inode 0 (-1) s = .ok inode' s') :
    Freed V ino v (final (releaseInode fs ino inode isdir s)) := by
  unfold releaseInode
  by_cases hvalid : fs.inodeHasValidBlocks2 inode = true
  · obtain ⟨inode', s', hp⟩ := hpunch hvalid
    have hafter := (hL.punch (V.volume s) ino inode).ok rfl hp
    have hrest := (punched_spec hL isdir h hmode).final hafter
    rwa [if_pos hvalid, run_bind_ok (run_orFail_ok hp)]
  · simp only [if_neg hvalid]
    exact (markFree_spec hL isdir (h.around ino) hmode).final rfl

/-- What `ext_after_unlink` leaves when it removes an inode's last entry or link. -/
def Settled (V : View σ) (ino : UInt32) (v : Volume) (s : σ) : Prop :=
  Freed V ino v s ∨ SameShape v (V.volume s)

theorem Settled.around {ino : UInt32} {v : Volume} {s : σ} (h : Settled V ino v s) :
    Around ino v (V.volume s) := by
  cases h with
  | inl hf => exact hf.1
  | inr hs => exact hs.around ino

theorem keepInode_spec (hL : Lawful fs V) {ino : UInt32} {v : Volume} {inode : Ext2Inode}
    (hmode : inode.node.mode = (v.node ino).mode) :
    Spec (V.Is v) (orFail translateErrno (fs.writeInode ino inode))
      (fun _ s => SameShape v (V.volume s)) fun _ s => SameShape v (V.volume s) := by
  refine Spec.orFail (Spec.conseq_ok (hL.writeInode v ino inode) ?_) ?_
  · intro _ s hs
    rw [hs.eq]
    exact sameShape_setNode hmode
  · exact fun _ s hs => hs.sameShape

theorem extAfterUnlink_spec (hL : Lawful fs V) (v : Volume) (ino p : UInt32) :
    Spec (V.Is v) (extAfterUnlink fs ino true p) (fun _ => Settled V ino v)
      fun _ => Settled V ino v := by
  have hsame : ∀ s, V.Is v s → Settled V ino v s := fun s hs => Or.inr hs.sameShape
  unfold extAfterUnlink
  refine Spec.bind_orFail (hL.readInode v ino) (fun _ => hsame) ?_
  intro inode
  refine Spec.assume fun hnode => ?_
  have hmode : inode.node.mode = (v.node ino).mode := by rw [hnode]
  refine Spec.bind (Q := fun _ => V.Is v) (fun s hs => hs) ?_
  intro s₀
  simp only [not_true_eq_false, if_false]
  by_cases hdir : LINUX_S_ISDIR inode.iMode = true
  · rw [if_pos hdir]
    refine Spec.bind (Q := fun _ s => SameShape v (V.volume s)) (Spec.modify ?_) ?_
    · intro s hs
      rw [← hs.eq]
      exact dropParentLink_sameShape hL p s
    · intro _ s hs
      have hdead : (inode.dead (fs.time s₀)).node.mode = (v.node ino).mode := hmode
      have hrel := releaseInode_spec hL true hs hdead
      refine Spec.conseq hrel (fun _ _ h => Or.inl h) ?_ s rfl
      intro _ s' h
      cases h with
      | inl hf => exact Or.inl hf
      | inr hsame' => exact Or.inr (by rw [hsame'.eq]; exact hs)
  · rw [if_neg hdir]
    by_cases h0 : inode.iLinksCount = 0
    · rw [if_pos h0]
      exact Spec.pure hsame
    · rw [if_neg h0]
      by_cases h1 : inode.iLinksCount - 1 = 0
      · rw [if_pos h1]
        refine Spec.conseq (releaseInode_spec hL false (SameShape.refl v) hmode)
          (fun _ _ h => Or.inl h) ?_
        intro _ s' h
        cases h with
        | inl hf => exact Or.inl hf
        | inr hsame' => exact hsame s' hsame'
      · rw [if_neg h1]
        exact Spec.conseq (keepInode_spec hL hmode) (fun _ _ h => Or.inr h) fun _ _ h => Or.inr h

/-- `ext_after_unlink` gets as far as releasing the inode: it is read, and its blocks, if it has any,
are punched. -/
def Completes (fs : Ext2fs σ) (ino p : UInt32) (s : σ) : Prop :=
  ∃ inode s₁, fs.readInode ino s = .ok inode s₁ ∧
    (fs.inodeHasValidBlocks2 (inode.dead (fs.time s₁)) = true → ∃ inode' s₂,
      fs.punch ino (inode.dead (fs.time s₁)) 0 (-1)
        (if LINUX_S_ISDIR inode.iMode then dropParentLink fs p s₁ else s₁) = .ok inode' s₂)

/-- `ext_after_unlink` once the inode is read. -/
theorem extAfterUnlink_run {ino p : UInt32} {s s₁ : σ} {inode : Ext2Inode}
    (hread : fs.readInode ino s = .ok inode s₁) :
    extAfterUnlink fs ino true p s =
      if LINUX_S_ISDIR inode.iMode then
        releaseInode fs ino (inode.dead (fs.time s₁)) true (dropParentLink fs p s₁)
      else if inode.iLinksCount = 0 then .ok () s₁
      else if inode.iLinksCount - 1 = 0 then
        releaseInode fs ino (inode.dead (fs.time s₁)) false s₁
      else orFail translateErrno (fs.writeInode ino
        { inode with iLinksCount := inode.iLinksCount - 1, iCtime := fs.time s₁ }) s₁ := by
  rw [extAfterUnlink, run_bind_ok (run_orFail_ok hread), run_get_bind]
  rw [if_neg (by simp : ¬ ¬ true = true)]
  by_cases hdir : LINUX_S_ISDIR inode.iMode = true
  · rw [if_pos hdir, if_pos hdir, run_modify_bind]
  · rw [if_neg hdir, if_neg hdir]
    by_cases h0 : inode.iLinksCount = 0
    · rw [if_pos h0, if_pos h0]; rfl
    · rw [if_neg h0, if_neg h0]
      by_cases h1 : inode.iLinksCount - 1 = 0
      · rw [if_pos h1, if_pos h1]
      · rw [if_neg h1, if_neg h1]

/-- A directory, and anything else that loses its last link, is then freed. -/
theorem extAfterUnlink_frees (hL : Lawful fs V) {ino p : UInt32} {s : σ}
    (hc : Completes fs ino p s)
    (hlast : ((V.volume s).node ino).isDir = true ∨ ((V.volume s).node ino).links = 1) :
    Freed V ino (V.volume s) (final (extAfterUnlink fs ino true p s)) := by
  obtain ⟨inode, s₁, hread, hpunch⟩ := hc
  obtain ⟨hnode, hs₁⟩ := (hL.readInode (V.volume s) ino).ok rfl hread
  have hdead : (inode.dead (fs.time s₁)).node.mode = ((V.volume s).node ino).mode := by
    rw [← hnode]
    rfl
  have hsame : SameShape (V.volume s) (V.volume s₁) := View.Is.sameShape hs₁
  rw [extAfterUnlink_run hread]
  by_cases hdir : LINUX_S_ISDIR inode.iMode = true
  · simp only [if_pos hdir] at hpunch ⊢
    refine releaseInode_frees hL true ?_ hdead hpunch
    exact hsame.trans (dropParentLink_sameShape hL p s₁)
  · have hone : inode.iLinksCount = 1 := by
      rw [← hnode] at hlast
      cases hlast with
      | inl hd => exact absurd hd hdir
      | inr hl => exact hl
    simp only [if_neg hdir, hone] at hpunch ⊢
    exact releaseInode_frees hL false hsame hdead hpunch

/-- Renaming an entry away changes nothing but times. -/
theorem extAfterUnlink_same (hL : Lawful fs V) (v : Volume) (x p : UInt32) :
    Spec (V.Is v) (extAfterUnlink fs x false p) (fun _ => V.Is v) fun _ => V.Is v := by
  unfold extAfterUnlink
  refine Spec.bind_orFail (hL.readInode v x) (fun _ _ h => h) ?_
  intro inode
  refine Spec.assume fun hnode => ?_
  refine Spec.bind (Q := fun _ => V.Is v) (fun s hs => hs) ?_
  intro s₀
  simp only [Bool.false_eq_true, not_false_eq_true, if_true]
  refine Spec.orFail (Spec.conseq_ok (hL.writeInode v x _) ?_) fun _ _ h => h
  intro _ s hs
  have hn : ({ inode with iCtime := fs.time s₀ } : Ext2Inode).node = v.node x := hnode
  rw [hn] at hs
  have hv : v.setNode x (v.node x) = v := by simp [setNode]
  rwa [hv] at hs

end AfterUnlink

/-! ## `extfsk_unlink` -/

section Unlink

variable {fs : Ext2fs σ} {V : View σ} {dirIno hint : UInt64} {name : List UInt8} {s : σ}

theorem translateErrno_neg (e : Errcode) : translateErrno e < 0 := by
  cases e with
  | fileNotFound => decide
  | noMemory => decide
  | inodeAllocFail => decide
  | blockAllocFail => decide
  | dirNoSpace => decide
  | other code => exact (by decide : - EIO < 0)

theorem unlinkTarget_spec (hL : Lawful fs V) (v : Volume) (dirIno hint : UInt64)
    (name : List UInt8) :
    Spec (V.Is v) (unlinkTarget fs dirIno name hint) (fun _ => V.Is v)
      fun e s => e < 0 ∧ V.Is v s := by
  unfold unlinkTarget
  split
  · refine Spec.orFail (Spec.conseq (hL.lookup v dirIno.toUInt32 name) (fun _ _ h => h.2)
      fun _ _ h => h.2) ?_
    intro e s hs
    refine ⟨?_, hs⟩
    split
    · decide
    · exact translateErrno_neg e
  · exact Spec.pure fun _ h => h

/-- An entry was found and removed, and `ext_after_unlink` is called in `s₂`. -/
structure Removed (fs : Ext2fs σ) (V : View σ) (dirIno : UInt64) (name : List UInt8) (ino : UInt32)
    (s s₁ s₂ : σ) : Prop where
  start : V.volume s₁ = V.volume s
  call : fs.unlink dirIno.toUInt32 name ino s₁ = .ok () s₂
  entry : ∃ e ∈ (V.volume s).dir dirIno.toUInt32, e.Names name ino
  volume : V.volume s₂ = (V.volume s).unlinked dirIno.toUInt32 name ino

theorem removed_of_unlink (hL : Lawful fs V) {ino : UInt32} {s₁ s₂ : σ}
    (hs : V.volume s₁ = V.volume s) (hcall : fs.unlink dirIno.toUInt32 name ino s₁ = .ok () s₂) :
    Removed fs V dirIno name ino s s₁ s₂ := by
  obtain ⟨hentry, hvol⟩ := (hL.unlink (V.volume s) dirIno.toUInt32 name ino).ok hs hcall
  exact ⟨hs, hcall, hentry, hvol⟩

/-- Either the library refuses and nothing has changed, or the entry is gone. -/
theorem extfskUnlink_cases (hL : Lawful fs V) (dirIno hint : UInt64) (name : List UInt8) (s : σ) :
    (∃ e s', extfskUnlink fs dirIno name hint s = .error e s' ∧ e < 0 ∧
      V.volume s' = V.volume s) ∨
    ∃ ino s₁ s₂, unlinkTarget fs dirIno name hint s = .ok ino s₁ ∧
      Removed fs V dirIno name ino s s₁ s₂ ∧
      extfskUnlink fs dirIno name hint s = extAfterUnlink fs ino true dirIno.toUInt32 s₂ := by
  have htarget := unlinkTarget_spec hL (V.volume s) dirIno hint name
  cases ht : unlinkTarget fs dirIno name hint s with
  | error e s₁ =>
    obtain ⟨he, hs₁⟩ := htarget.error rfl ht
    exact Or.inl ⟨e, s₁, by rw [extfskUnlink, run_bind_error ht], he, hs₁⟩
  | ok ino s₁ =>
    have hs₁ : V.volume s₁ = V.volume s := htarget.ok rfl ht
    cases hu : fs.unlink dirIno.toUInt32 name ino s₁ with
    | error e s₂ =>
      have hs₂ := (hL.unlink (V.volume s) dirIno.toUInt32 name ino).error hs₁ hu
      refine Or.inl ⟨translateErrno e, s₂, ?_, translateErrno_neg e, hs₂⟩
      rw [extfskUnlink, run_bind_ok ht, run_bind_error (run_orFail_error hu)]
    | ok u s₂ =>
      refine Or.inr ⟨ino, s₁, s₂, rfl, removed_of_unlink hL hs₁ hu, ?_⟩
      rw [extfskUnlink, run_bind_ok ht, run_bind_ok (run_orFail_ok hu)]

theorem extfskUnlink_returns (hL : Lawful fs V) {s' : σ}
    (h : extfskUnlink fs dirIno name hint s = .ok () s') :
    ∃ ino s₁ s₂, unlinkTarget fs dirIno name hint s = .ok ino s₁ ∧
      Removed fs V dirIno name ino s s₁ s₂ ∧
      extAfterUnlink fs ino true dirIno.toUInt32 s₂ = .ok () s' := by
  cases extfskUnlink_cases hL dirIno hint name s with
  | inl hfail =>
    obtain ⟨e, s₁, hrun, _⟩ := hfail
    rw [hrun] at h
    cases h
  | inr hdone =>
    obtain ⟨ino, s₁, s₂, htarget, hrem, hrun⟩ := hdone
    exact ⟨ino, s₁, s₂, htarget, hrem, hrun.symm.trans h⟩

/-- An entry whose removal leaves nothing behind: it is not of a directory in use with entries in
it, and its inode keeps another entry or is freed. `s` is where the library is asked to remove it. -/
def SafeRemoval (fs : Ext2fs σ) (V : View σ) (d : UInt32) (name : List UInt8) (ino : UInt32)
    (s : σ) : Prop :=
  (V.volume s).inUse ino = true →
    ¬ (V.volume s).Occupied ino ∧
      ((V.volume s).NamedElsewhere d name ino ∨
        (((V.volume s).node ino).isDir = true ∨ ((V.volume s).node ino).links = 1) ∧
          ∀ s', fs.unlink d name ino s = .ok () s' → Completes fs ino d s')

theorem extAfterUnlink_reachable (hL : Lawful fs V) {ino : UInt32} {s₁ s₂ : σ}
    (hr : Removed fs V dirIno name ino s s₁ s₂) (hv : (V.volume s).AllReachable)
    (hsafe : SafeRemoval fs V dirIno.toUInt32 name ino s₁) :
    (V.volume (final (extAfterUnlink fs ino true dirIno.toUInt32 s₂))).AllReachable := by
  have hset : Settled V ino _ (final (extAfterUnlink fs ino true dirIno.toUInt32 s₂)) :=
    (extAfterUnlink_spec hL (V.volume s₂) ino dirIno.toUInt32).final rfl
  unfold SafeRemoval at hsafe
  rw [hr.start] at hsafe
  have haround := hset.around
  rw [hr.volume] at haround
  refine allReachable_unlinked hv (leaf_of_not_occupied fun huse => (hsafe huse).1) haround ?_
  intro huse
  have hsame : SameShape (V.volume s₂)
      (V.volume (final (extAfterUnlink fs ino true dirIno.toUInt32 s₂))) := by
    cases hset with
    | inl hf => rw [hf.2] at huse; cases huse
    | inr hs => exact hs
  have hinUse : (V.volume s).inUse ino = true := by
    rw [hsame.inUse, hr.volume] at huse
    exact huse
  obtain ⟨_, helse | ⟨hlast, hcomplete⟩⟩ := hsafe hinUse
  · exact ⟨by rwa [hr.volume] at hsame, helse⟩
  · -- then it was freed
    have hnode : (V.volume s₂).node = (V.volume s).node := by rw [hr.volume]; rfl
    have hfreed := extAfterUnlink_frees hL (hcomplete s₂ hr.call) (by rwa [hnode])
    rw [hfreed.2] at huse
    cases huse

theorem extfskUnlink_reachable (hL : Lawful fs V) (hv : (V.volume s).AllReachable)
    (hsafe : ∀ ino s₁, unlinkTarget fs dirIno name hint s = .ok ino s₁ →
      SafeRemoval fs V dirIno.toUInt32 name ino s₁) :
    (V.volume (final (extfskUnlink fs dirIno name hint s))).AllReachable := by
  cases extfskUnlink_cases hL dirIno hint name s with
  | inl h =>
    obtain ⟨e, s', hrun, _, hs'⟩ := h
    rw [hrun]
    show (V.volume s').AllReachable
    rwa [hs']
  | inr h =>
    obtain ⟨ino, s₁, s₂, ht, hr, hrun⟩ := h
    rw [hrun]
    exact extAfterUnlink_reachable hL hr hv (hsafe ino s₁ ht)

theorem entries_lt_of_removed (hL : Lawful fs V) {ino : UInt32} {s₁ s₂ : σ}
    (hr : Removed fs V dirIno name ino s s₁ s₂) :
    (V.volume (final (extAfterUnlink fs ino true dirIno.toUInt32 s₂))).entries dirIno.toUInt32 name
      ino < (V.volume s).entries dirIno.toUInt32 name ino := by
  have hset : Settled V ino _ (final (extAfterUnlink fs ino true dirIno.toUInt32 s₂)) :=
    (extAfterUnlink_spec hL (V.volume s₂) ino dirIno.toUInt32).final rfl
  have haround := hset.around
  rw [hr.volume] at haround
  exact Nat.lt_of_le_of_lt haround.entries_le (entries_unlinked_lt hr.entry)

end Unlink

end Ext
end Usbrw
