import Usbrw.Base.Run
import Usbrw.Ext.Reference
import Usbrw.Ext.Unlink

/-!
# Ext.Orphans

Whether `extfsk_unlink` and `extfsk_rename` keep every allocated inode reachable from the root.

* `Entered`, `Resized` — an entry is added; at most the size of a directory changes.
* `moveEntry_spec`  — a file gets its new entry, then loses the old one.
* `Finds`, `Replaces` — what `extfsk_rename` moves, and what it removes for it.
* `Refused`         — a call that fails and changes nothing.
* `removal_law`     — a directory with entries in it is removed unless the library refuses; where
  every removal is safe, no run of calls leaves an orphan.
-/

namespace Usbrw
namespace Ext

open Call Run Volume

variable {σ : Type}

/-! ## An entry is added -/

/-- The entry `e` is added to `d`. -/
structure Entered (d : UInt32) (e : Dirent) (v w : Volume) : Prop where
  inUse : w.inUse = v.inUse
  data : w.data = v.data
  nodes : ∀ i, i ≠ d → w.node i = v.node i
  mode : (w.node d).mode = (v.node d).mode
  links : (w.node d).links = (v.node d).links
  dir : ∃ l₁ l₂, v.dir d = l₁ ++ l₂ ∧ w.dir = Function.update v.dir d (l₁ ++ e :: l₂)

/-- At most the size of `d` changes. -/
structure Resized (d : UInt32) (v w : Volume) : Prop where
  inUse : w.inUse = v.inUse
  data : w.data = v.data
  nodes : ∀ i, i ≠ d → w.node i = v.node i
  mode : (w.node d).mode = (v.node d).mode
  links : (w.node d).links = (v.node d).links
  dir : w.dir = v.dir

section Shapes

variable {v w : Volume} {d : UInt32} {e : Dirent}

theorem Resized.refl (d : UInt32) (v : Volume) : Resized d v v :=
  ⟨rfl, rfl, fun _ _ => rfl, rfl, rfl, rfl⟩

theorem resized_resize (d : UInt32) (v : Volume) (size : UInt64) : Resized d v (v.resize d size) := by
  refine ⟨rfl, rfl, ?_, ?_, ?_, rfl⟩
  · intro i hi
    simp [resize, hi]
  · simp [resize]
  · simp [resize]

theorem Resized.entered {l₁ l₂ : List Dirent} (h : Resized d v w) (hd : w.dir d = l₁ ++ l₂) :
    Entered d e v (w.setDir d (l₁ ++ e :: l₂)) :=
  ⟨h.inUse, h.data, h.nodes, h.mode, h.links, l₁, l₂, by rw [← h.dir, hd], by
    rw [setDir_dir, h.dir]⟩

theorem Entered.node_mode (h : Entered d e v w) (i : UInt32) :
    (w.node i).mode = (v.node i).mode := by
  by_cases hi : i = d
  · rw [hi, h.mode]
  · rw [h.nodes i hi]

theorem Entered.node_links (h : Entered d e v w) (i : UInt32) :
    (w.node i).links = (v.node i).links := by
  by_cases hi : i = d
  · rw [hi, h.links]
  · rw [h.nodes i hi]

theorem Entered.linked (h : Entered d e v w) : Linked d e v w := ⟨h.inUse, h.node_mode, h.dir⟩

theorem Resized.sameShape (h : Resized d v w) : SameShape v w := by
  refine ⟨h.dir, h.inUse, ?_⟩
  intro i
  by_cases hi : i = d
  · rw [hi, h.mode]
  · rw [h.nodes i hi]

end Shapes

theorem linkExpanding_enters {fs : Ext2fs σ} {V : View σ} (hL : Lawful fs V) (v : Volume)
    (d : UInt32) (name : List UInt8) (ino : UInt32) (t : UInt8) :
    Spec (V.Is v) (linkExpanding fs d name ino t)
      (fun _ s => Entered d ⟨ino, name, t⟩ v (V.volume s)) fun _ s => Resized d v (V.volume s) := by
  have hlink : ∀ w, Resized d v w → Spec (V.Is w) (fs.link d name ino t)
      (fun _ s => Entered d ⟨ino, name, t⟩ v (V.volume s))
      fun _ s => Resized d v (V.volume s) := by
    intro w hw
    refine Spec.conseq (hL.link w d name ino t) ?_ ?_
    · rintro _ s ⟨l₁, l₂, hd, hs⟩
      rw [hs.eq]
      exact hw.entered hd
    · intro _ s hs
      rwa [hs.eq]
  unfold linkExpanding
  refine Spec.bind_attempt (hL.link v d name ino t) ?_ ?_
  · intro _
    refine Spec.pure ?_
    rintro s ⟨l₁, l₂, hd, hs⟩
    rw [hs.eq]
    exact (Resized.refl d v).entered hd
  · intro err
    by_cases he : err = .dirNoSpace
    · simp only [if_pos he]
      refine Spec.bind (Spec.conseq_error (hL.expandDir v d) ?_) ?_
      · intro _ s hs
        rw [hs.eq]
        exact Resized.refl d v
      · rintro _ s ⟨size, hs⟩
        exact hlink _ (resized_resize d v size) s hs
    · simp only [if_neg he]
      refine Spec.throw ?_
      intro s hs
      rw [hs.eq]
      exact Resized.refl d v

/-! ## `extfsk_rename` of a file -/

section Rename

variable {fs : Ext2fs σ} {V : View σ}

theorem moveEntry_spec (hL : Lawful fs V) (v : Volume) (oldDir : UInt64) (oldName : List UInt8)
    (newDir : UInt64) (newName : List UInt8) (ino : UInt32) :
    Spec (V.Is v) (moveEntry fs oldDir oldName newDir newName ino)
      (fun _ s => Moved oldDir.toUInt32 oldName newDir.toUInt32 ⟨ino, newName, EXT2_FT_REG_FILE⟩ v
        (V.volume s))
      fun _ s => Moved oldDir.toUInt32 oldName newDir.toUInt32 ⟨ino, newName, EXT2_FT_REG_FILE⟩ v
        (V.volume s) := by
  unfold moveEntry
  refine Spec.bind_orFail (linkExpanding_enters hL v newDir.toUInt32 newName ino _)
    (fun _ _ h => .same h.sameShape) ?_
  intro _ s hentered
  have hlinked := hentered.linked
  generalize hw : V.volume s = w at hlinked
  have hunlink := hL.unlink w oldDir.toUInt32 oldName ino
  refine Spec.bind_orFail (R := fun _ s => Moved _ _ _ _ v (V.volume s))
    (D := fun _ s => Moved _ _ _ _ v (V.volume s)) hunlink ?_ ?_ s hw
  · intro _ s' hs'
    rw [hs'.eq]
    exact .linked hlinked
  · intro _
    refine Spec.assume fun hx => ?_
    exact Spec.conseq (extAfterUnlink_same hL (w.unlinked oldDir.toUInt32 oldName ino) ino 0)
      (fun _ _ h => .moved hlinked hx h.sameShape) fun _ _ h => .moved hlinked hx h.sameShape

/-- A file that is moved has its new entry, and then the old one is unlinked. -/
theorem moveEntry_returns (hL : Lawful fs V) {oldDir newDir : UInt64} {oldName newName : List UInt8}
    {ino : UInt32} {s s' : σ} (h : moveEntry fs oldDir oldName newDir newName ino s = .ok () s') :
    ∃ u, Entered newDir.toUInt32 ⟨ino, newName, EXT2_FT_REG_FILE⟩ (V.volume s) u ∧
      (∃ y ∈ u.dir oldDir.toUInt32, y.Names oldName ino) ∧
      V.volume s' = u.unlinked oldDir.toUInt32 oldName ino := by
  obtain ⟨_, t, hlink, h⟩ := orFail_bind_ok_iff.mp h
  obtain ⟨_, t', hunlink, h⟩ := orFail_bind_ok_iff.mp h
  have hentered := (linkExpanding_enters hL _ newDir.toUInt32 newName ino _).ok rfl hlink
  obtain ⟨hy, ht'⟩ := (hL.unlink (V.volume t) oldDir.toUInt32 oldName ino).ok rfl hunlink
  have hs' := (extAfterUnlink_same hL (V.volume t') ino 0).ok rfl h
  exact ⟨V.volume t, hentered, hy, hs'.eq.trans ht'.eq⟩

theorem extfskLookup_spec (hL : Lawful fs V) (v : Volume) (d : UInt64) (name : List UInt8) :
    Spec (V.Is v) (extfskLookup fs d name) (fun _ => V.Is v) fun e s => e < 0 ∧ V.Is v s := by
  unfold extfskLookup
  refine Spec.bind_orFail (Spec.conseq (hL.lookup v d.toUInt32 name) (fun _ _ h => h.2)
    fun _ _ h => h.2) ?_ fun _ => Spec.pure fun _ h => h
  intro e s hs
  refine ⟨?_, hs⟩
  split <;> decide

theorem extfskLookup_named (hL : Lawful fs V) {d ino : UInt64}
    {name : List UInt8} {s s₁ : σ} (h : extfskLookup fs d name s = .ok ino s₁) :
    (V.volume s).named d.toUInt32 name = some ino.toUInt32 ∧ V.volume s₁ = V.volume s := by
  obtain ⟨x, t, hl, h⟩ := orFail_bind_ok_iff.mp h
  cases h
  rw [UInt32.toUInt32_toUInt64]
  exact (hL.lookup (V.volume s) d.toUInt32 name).ok rfl hl

/-- With or without a hint, the inode to remove is the one the name stands for. -/
theorem unlinkTarget_eq (hL : Lawful fs V) {d hint : UInt64} {name : List UInt8} {x : UInt32}
    {s s₁ : σ} (hnamed : (V.volume s).named d.toUInt32 name = some hint.toUInt32)
    (h : unlinkTarget fs d name hint s = .ok x s₁) : x = hint.toUInt32 := by
  unfold unlinkTarget at h
  by_cases hzero : hint.toUInt32 = 0
  · rw [if_pos hzero, orFail_ok_iff] at h
    have hx := ((hL.lookup (V.volume s) d.toUInt32 name).ok rfl h).1
    exact Option.some.inj (hx.symm.trans hnamed)
  · rw [if_neg hzero] at h
    cases h
    rfl

/-- A call that fails and changes nothing. -/
def Refused (V : View σ) (s : σ) (r : EStateM.Result Int σ Unit) : Prop :=
  ∃ e s', r = .error e s' ∧ e < 0 ∧ V.volume s' = V.volume s

/-- `extfsk_rename` has read the inode it is to move and goes on in `s'`. -/
def Finds (fs : Ext2fs σ) (oldDir : UInt64) (oldName : List UInt8) (ino : UInt64)
    (inode : Ext2Inode) (s s' : σ) : Prop :=
  ∃ s₁, extfskLookup fs oldDir oldName s = .ok ino s₁ ∧
    fs.readInode ino.toUInt32 s₁ = .ok inode s'

/-- `extfsk_rename` has found `x` under the new name and in `s'` asks for its entry to be removed. -/
def Replaces (fs : Ext2fs σ) (newDir : UInt64) (newName : List UInt8) (x : UInt32) (s s' : σ) :
    Prop :=
  ∃ existing s₁, extfskLookup fs newDir newName s = .ok existing s₁ ∧
    unlinkTarget fs newDir newName existing s₁ = .ok x s'

variable {oldDir newDir ino : UInt64} {oldName newName : List UInt8} {inode : Ext2Inode}
  {s s' : σ}

theorem Finds.node (hL : Lawful fs V) (h : Finds fs oldDir oldName ino inode s s') :
    inode.node = (V.volume s).node ino.toUInt32 ∧ V.volume s' = V.volume s := by
  obtain ⟨s₁, hlookup, hread⟩ := h
  have hs₁ := (extfskLookup_spec hL (V.volume s) oldDir oldName).ok rfl hlookup
  exact (hL.readInode (V.volume s) ino.toUInt32).ok hs₁ hread

theorem Finds.named (hL : Lawful fs V) (h : Finds fs oldDir oldName ino inode s s') :
    (V.volume s).named oldDir.toUInt32 oldName = some ino.toUInt32 := by
  obtain ⟨_, hlookup, _⟩ := h
  exact (extfskLookup_named hL hlookup).1

theorem Finds.run (h : Finds fs oldDir oldName ino inode s s')
    (hfile : LINUX_S_ISDIR inode.iMode = false) :
    extfskRename fs oldDir oldName newDir newName s =
      renameFile fs oldDir oldName newDir newName ino.toUInt32 s' := by
  obtain ⟨s₁, hlookup, hread⟩ := h
  rw [extfskRename, run_bind_ok hlookup, run_bind_ok (run_orFail_ok hread), hfile]
  rfl

theorem Finds.run_dir (h : Finds fs oldDir oldName ino inode s s')
    (hdir : LINUX_S_ISDIR inode.iMode = true) :
    extfskRename fs oldDir oldName newDir newName s =
      renameDir fs oldDir oldName newDir newName ino.toUInt32 s' := by
  obtain ⟨s₁, hlookup, hread⟩ := h
  rw [extfskRename, run_bind_ok hlookup, run_bind_ok (run_orFail_ok hread), hdir]
  rfl

theorem extfskRename_cases (hL : Lawful fs V) (oldDir : UInt64) (oldName : List UInt8)
    (newDir : UInt64) (newName : List UInt8) (s : σ) :
    Refused V s (extfskRename fs oldDir oldName newDir newName s) ∨
      ∃ ino inode s', Finds fs oldDir oldName ino inode s s' := by
  have hlook := extfskLookup_spec hL (V.volume s) oldDir oldName
  cases hl : extfskLookup fs oldDir oldName s with
  | error e s₁ =>
    obtain ⟨he, hs₁⟩ := hlook.error rfl hl
    exact Or.inl ⟨e, s₁, by rw [extfskRename, run_bind_error hl], he, hs₁⟩
  | ok ino s₁ =>
    have hs₁ := hlook.ok rfl hl
    cases hr : fs.readInode ino.toUInt32 s₁ with
    | error e s₂ =>
      refine Or.inl ⟨translateErrno e, s₂, ?_, translateErrno_neg e,
        (hL.readInode (V.volume s) ino.toUInt32).error hs₁ hr⟩
      rw [extfskRename, run_bind_ok hl, run_bind_error (run_orFail_error hr)]
    | ok inode s₂ => exact Or.inr ⟨ino, inode, s₂, s₁, hl, hr⟩

theorem extfskRename_returns (hL : Lawful fs V)
    (h : extfskRename fs oldDir oldName newDir newName s = .ok () s') :
    ∃ ino inode s₁, Finds fs oldDir oldName ino inode s s₁ := by
  cases extfskRename_cases hL oldDir oldName newDir newName s with
  | inl hfail =>
    obtain ⟨e, s₁, hrun, _⟩ := hfail
    rw [hrun] at h
    cases h
  | inr hfound => exact hfound

theorem removeExisting_found {existing : UInt64} {s₁ : σ}
    (h : extfskLookup fs newDir newName s = .ok existing s₁) :
    removeExisting fs newDir newName s = extfskUnlink fs newDir newName existing s₁ :=
  run_bind_ok (run_attempt_ok h)

theorem Replaces.volume (hL : Lawful fs V) {x : UInt32} (h : Replaces fs newDir newName x s s') :
    V.volume s' = V.volume s := by
  obtain ⟨existing, s₁, hlookup, htarget⟩ := h
  have hs₁ := (extfskLookup_spec hL (V.volume s) newDir newName).ok rfl hlookup
  exact (unlinkTarget_spec hL (V.volume s) newDir existing newName).ok hs₁ htarget

theorem Replaces.run {x : UInt32} (h : Replaces fs newDir newName x s s') :
    removeExisting fs newDir newName s =
      (orFail translateErrno (fs.unlink newDir.toUInt32 newName x) >>= fun _ =>
        extAfterUnlink fs x true newDir.toUInt32) s' := by
  obtain ⟨existing, s₁, hlookup, htarget⟩ := h
  rw [removeExisting, run_bind_ok (run_attempt_ok hlookup)]
  simp only [extfskUnlink, run_bind_ok htarget]

/-- Before the entry is moved nothing has changed, or what the new name stood for was removed. -/
theorem removeExisting_cases (hL : Lawful fs V) (newDir : UInt64) (newName : List UInt8) (s : σ) :
    V.volume (final (removeExisting fs newDir newName s)) = V.volume s ∨
    ∃ x s₁ s₂, Replaces fs newDir newName x s s₁ ∧ Removed fs V newDir newName x s s₁ s₂ ∧
      removeExisting fs newDir newName s = extAfterUnlink fs x true newDir.toUInt32 s₂ := by
  have hlook := extfskLookup_spec hL (V.volume s) newDir newName
  cases hl : extfskLookup fs newDir newName s with
  | error e s₁ =>
    rw [removeExisting, run_bind_ok (run_attempt_error hl)]
    exact Or.inl (hlook.error rfl hl).2
  | ok existing s₁ =>
    have hs₁ : V.volume s₁ = V.volume s := hlook.ok rfl hl
    rw [removeExisting, run_bind_ok (run_attempt_ok hl)]
    simp only
    cases extfskUnlink_cases hL newDir existing newName s₁ with
    | inl h =>
      obtain ⟨e, s', hrun, _, hs'⟩ := h
      rw [hrun]
      exact Or.inl (hs'.trans hs₁)
    | inr h =>
      obtain ⟨x, s₂, s₃, htarget, hr, hrun⟩ := h
      exact Or.inr ⟨x, s₂, s₃, ⟨existing, s₁, hl, htarget⟩,
        removed_of_unlink hL (hr.start.trans hs₁) hr.call, hrun⟩

/-- `ino` is no directory, and the directory that is to get an entry for it is one in use. -/
structure Receives (newDir : UInt32) (newName : List UInt8) (ino : UInt32) (v : Volume) : Prop where
  file : (v.node ino).isDir = false
  inUse : v.inUse newDir = true
  isDir : (v.node newDir).isDir = true
  dots : ¬ IsDots newName

theorem moveEntry_moved (hL : Lawful fs V) (oldDir : UInt64) (oldName : List UInt8)
    (newDir : UInt64) (newName : List UInt8) (ino : UInt32) (s : σ) :
    Moved oldDir.toUInt32 oldName newDir.toUInt32 ⟨ino, newName, EXT2_FT_REG_FILE⟩ (V.volume s)
      (V.volume (final (moveEntry fs oldDir oldName newDir newName ino s))) :=
  (moveEntry_spec hL (V.volume s) oldDir oldName newDir newName ino).final
    (I := fun s' => Moved oldDir.toUInt32 oldName newDir.toUInt32
      ⟨ino, newName, EXT2_FT_REG_FILE⟩ (V.volume s) (V.volume s')) rfl

theorem moveEntry_reachable (hL : Lawful fs V) {ino : UInt32}
    (hr : Receives newDir.toUInt32 newName ino (V.volume s)) (hv : (V.volume s).AllReachable) :
    (V.volume (final (moveEntry fs oldDir oldName newDir newName ino s))).AllReachable := by
  cases moveEntry_moved hL oldDir oldName newDir newName ino s with
  | same h => exact h.allReachable hv
  | linked h => exact h.allReachable hv
  | moved h hx hs =>
    exact hs.allReachable (allReachable_moved hv hr.file h hx hr.inUse hr.isDir hr.dots)

/-- The directory the replaced entry was in is not the directory that was removed. -/
theorem Removed.receives (hL : Lawful fs V) {x ino : UInt32} {s₁ s₂ : σ}
    (hr : Removed fs V newDir newName x s s₁ s₂)
    (h : Receives newDir.toUInt32 newName ino (V.volume s))
    (hsafe : SafeRemoval fs V newDir.toUInt32 newName x s₁) :
    Receives newDir.toUInt32 newName ino
      (V.volume (final (extAfterUnlink fs x true newDir.toUInt32 s₂))) := by
  have hset : Settled V x _ (final (extAfterUnlink fs x true newDir.toUInt32 s₂)) :=
    (extAfterUnlink_spec hL (V.volume s₂) x newDir.toUInt32).final rfl
  have haround := hset.around
  rw [hr.volume] at haround
  have hne : newDir.toUInt32 ≠ x := by
    intro heq
    obtain ⟨e, he, hname, _⟩ := hr.entry
    unfold SafeRemoval at hsafe
    rw [hr.start, ← heq] at hsafe
    exact (hsafe h.inUse).1 ⟨h.isDir, e, he, by rw [hname]; exact h.dots⟩
  exact ⟨by rw [isDir_congr (haround.mode ino)]; exact h.file,
    by rw [haround.inUse _ hne]; exact h.inUse,
    by rw [isDir_congr (haround.mode _)]; exact h.isDir, h.dots⟩

theorem renameFile_reachable (hL : Lawful fs V) {ino : UInt32}
    (hr : Receives newDir.toUInt32 newName ino (V.volume s)) (hv : (V.volume s).AllReachable)
    (hsafe : ∀ x s₁, Replaces fs newDir newName x s s₁ →
      SafeRemoval fs V newDir.toUInt32 newName x s₁) :
    (V.volume (final (renameFile fs oldDir oldName newDir newName ino s))).AllReachable := by
  have hkept : Receives newDir.toUInt32 newName ino
        (V.volume (final (removeExisting fs newDir newName s))) ∧
      (V.volume (final (removeExisting fs newDir newName s))).AllReachable := by
    cases removeExisting_cases hL newDir newName s with
    | inl h =>
      rw [h]
      exact ⟨hr, hv⟩
    | inr h =>
      obtain ⟨x, s₁, s₂, hrep, hrem, hrun⟩ := h
      rw [hrun]
      exact ⟨hrem.receives hL hr (hsafe x s₁ hrep),
        extAfterUnlink_reachable hL hrem hv (hsafe x s₁ hrep)⟩
  unfold renameFile
  cases hrun : removeExisting fs newDir newName s with
  | error e s₁ =>
    rw [run_bind_error hrun]
    rw [hrun] at hkept
    exact hkept.2
  | ok u s₁ =>
    rw [run_bind_ok hrun]
    rw [hrun] at hkept
    exact moveEntry_reachable hL hkept.1 hkept.2

theorem extfskRename_reachable (hL : Lawful fs V) (hv : (V.volume s).AllReachable)
    (hfile : ∀ ino inode s', Finds fs oldDir oldName ino inode s s' →
      Receives newDir.toUInt32 newName ino.toUInt32 (V.volume s') ∧
      ∀ x s₁, Replaces fs newDir newName x s' s₁ →
        SafeRemoval fs V newDir.toUInt32 newName x s₁) :
    (V.volume (final (extfskRename fs oldDir oldName newDir newName s))).AllReachable := by
  cases extfskRename_cases hL oldDir oldName newDir newName s with
  | inl h =>
    obtain ⟨e, s', hrun, _, hs'⟩ := h
    rwa [hrun, final_error, hs']
  | inr h =>
    obtain ⟨ino, inode, s', hfinds⟩ := h
    obtain ⟨hnode, hs'⟩ := hfinds.node hL
    obtain ⟨hreceives, hsafe⟩ := hfile ino inode s' hfinds
    rw [← hs'] at hnode hv
    rw [hfinds.run ((isDir_of_node hnode).trans hreceives.file)]
    exact renameFile_reachable hL hreceives hv hsafe

end Rename

/-! ## Calls that remove entries -/

section Removal

variable {fs : Ext2fs σ} {V : View σ}

/-- The library does not remove the entry. -/
def Declines (fs : Ext2fs σ) (d : UInt32) (name : List UInt8) (ino : UInt32) (s : σ) : Prop :=
  ∃ e s', fs.unlink d name ino s = .error e s'

theorem declines_or_removes (fs : Ext2fs σ) (d : UInt32) (name : List UInt8) (ino : UInt32)
    (s : σ) : Declines fs d name ino s ∨ ∃ s', fs.unlink d name ino s = .ok () s' := by
  cases h : fs.unlink d name ino s with
  | ok u s' => exact Or.inr ⟨s', rfl⟩
  | error e s' => exact Or.inl ⟨e, s', h⟩

theorem refused_unlink_iff (hL : Lawful fs V) {dirIno hint : UInt64} {name : List UInt8}
    {ino : UInt32} {s s₁ : σ} (ht : unlinkTarget fs dirIno name hint s = .ok ino s₁) :
    Refused V s (extfskUnlink fs dirIno name hint s) ↔
      Declines fs dirIno.toUInt32 name ino s₁ := by
  have hs₁ : V.volume s₁ = V.volume s :=
    (unlinkTarget_spec hL (V.volume s) dirIno hint name).ok rfl ht
  cases declines_or_removes fs dirIno.toUInt32 name ino s₁ with
  | inl hdeclines =>
    obtain ⟨e, s₂, hu⟩ := hdeclines
    refine iff_of_true ⟨translateErrno e, s₂, ?_, translateErrno_neg e, ?_⟩ ⟨e, s₂, hu⟩
    · rw [extfskUnlink, run_bind_ok ht, run_bind_error (run_orFail_error hu)]
    · exact (hL.unlink (V.volume s) dirIno.toUInt32 name ino).error hs₁ hu
  | inr hremoves =>
    obtain ⟨s₂, hu⟩ := hremoves
    refine iff_of_false ?_ ?_
    · rintro ⟨e, s', hrun, _, hs'⟩
      have hlt := entries_lt_of_removed hL (removed_of_unlink hL hs₁ hu)
      rw [extfskUnlink, run_bind_ok ht, run_bind_ok (run_orFail_ok hu)] at hrun
      rw [hrun, final_error, hs'] at hlt
      exact Nat.lt_irrefl _ hlt
    · rintro ⟨e, s', hu'⟩
      rw [hu] at hu'
      cases hu'

theorem refused_rename_iff (hL : Lawful fs V) {oldDir newDir ino : UInt64}
    {oldName newName : List UInt8} {inode : Ext2Inode} {x : UInt32} {s s₁ s₂ : σ}
    (hfinds : Finds fs oldDir oldName ino inode s s₁)
    (hfile : LINUX_S_ISDIR inode.iMode = false) (hrep : Replaces fs newDir newName x s₁ s₂)
    (hocc : (V.volume s).Occupied x) :
    Refused V s (extfskRename fs oldDir oldName newDir newName s) ↔
      Declines fs newDir.toUInt32 newName x s₂ := by
  obtain ⟨hnode, hs₁⟩ := hfinds.node hL
  have hs₂ : V.volume s₂ = V.volume s := (hrep.volume hL).trans hs₁
  have hne : ino.toUInt32 ≠ x := by
    rintro rfl
    have hdir := hocc.1
    rw [← hnode] at hdir
    exact absurd hdir (by rw [show inode.node.isDir = false from hfile]; decide)
  rw [hfinds.run hfile, renameFile]
  cases declines_or_removes fs newDir.toUInt32 newName x s₂ with
  | inl hdeclines =>
    obtain ⟨e, s₃, hu⟩ := hdeclines
    have hrun : removeExisting fs newDir newName s₁ = .error (translateErrno e) s₃ := by
      rw [hrep.run, run_bind_error (run_orFail_error hu)]
    refine iff_of_true ⟨translateErrno e, s₃, run_bind_error hrun, translateErrno_neg e, ?_⟩
      ⟨e, s₃, hu⟩
    exact (hL.unlink (V.volume s) newDir.toUInt32 newName x).error hs₂ hu
  | inr hremoves =>
    obtain ⟨s₃, hu⟩ := hremoves
    have hrun : removeExisting fs newDir newName s₁ =
        extAfterUnlink fs x true newDir.toUInt32 s₃ := by
      rw [hrep.run, run_bind_ok (run_orFail_ok hu)]
    have hlt := entries_lt_of_removed hL (removed_of_unlink hL hs₂ hu)
    refine iff_of_false ?_ ?_
    · rintro ⟨e, s', hcall, _, hs'⟩
      cases hafter : extAfterUnlink fs x true newDir.toUInt32 s₃ with
      | error e' s₄ =>
        rw [run_bind_error (hrun.trans hafter)] at hcall
        cases hcall
        rw [hafter, final_error, hs'] at hlt
        exact Nat.lt_irrefl _ hlt
      | ok u s₄ =>
        rw [run_bind_ok (hrun.trans hafter)] at hcall
        -- and moving the entry does not bring the removed one back
        have hmoved := moveEntry_moved hL oldDir oldName newDir newName ino.toUInt32 s₄
        have hle := Nat.lt_of_le_of_lt (hmoved.entries_le hne) (by rwa [hafter] at hlt)
        rw [hcall, final_error, hs'] at hle
        exact Nat.lt_irrefl _ hle
    · rintro ⟨e, s', hu'⟩
      rw [hu] at hu'
      cases hu'

/-- The calls that remove entries. -/
inductive Op where
  | unlink (dirIno : UInt64) (name : List UInt8) (inoHint : UInt64)
  | rename (oldDir : UInt64) (oldName : List UInt8) (newDir : UInt64) (newName : List UInt8)

def step (fs : Ext2fs σ) (s : σ) : Op → σ
  | .unlink dirIno name inoHint => final (extfskUnlink fs dirIno name inoHint s)
  | .rename oldDir oldName newDir newName => final (extfskRename fs oldDir oldName newDir newName s)

/-- What is removed, if anything is, is safe to remove, and what is renamed is no directory. -/
def Meets (fs : Ext2fs σ) (V : View σ) (s : σ) : Op → Prop
  | .unlink dirIno name inoHint => ∀ ino s', unlinkTarget fs dirIno name inoHint s = .ok ino s' →
      SafeRemoval fs V dirIno.toUInt32 name ino s'
  | .rename oldDir oldName newDir newName => ∀ ino inode s',
      Finds fs oldDir oldName ino inode s s' →
        Receives newDir.toUInt32 newName ino.toUInt32 (V.volume s') ∧
        ∀ x s₁, Replaces fs newDir newName x s' s₁ →
          SafeRemoval fs V newDir.toUInt32 newName x s₁

theorem step_reachable (hL : Lawful fs V) (s : σ) (op : Op) (hv : (V.volume s).AllReachable)
    (hop : Meets fs V s op) : (V.volume (step fs s op)).AllReachable := by
  cases op with
  | unlink dirIno name inoHint => exact extfskUnlink_reachable hL hv hop
  | rename oldDir oldName newDir newName => exact extfskRename_reachable hL hv hop

/-- A directory with entries in it is refused exactly when the library declines to remove its entry;
where every removal is safe, nothing is orphaned at any point of a run. -/
theorem removal_law (hL : Lawful fs V) :
    (∀ dirIno hint name s,
      (∀ ino s₁, unlinkTarget fs dirIno name hint s = .ok ino s₁ → (V.volume s).Occupied ino →
        Refused V s (extfskUnlink fs dirIno name hint s)) ↔
      ∀ ino s₁, unlinkTarget fs dirIno name hint s = .ok ino s₁ →
        ¬ (V.volume s).Occupied ino ∨ Declines fs dirIno.toUInt32 name ino s₁) ∧
    (∀ oldDir oldName newDir newName s ino inode s₁, Finds fs oldDir oldName ino inode s s₁ →
      LINUX_S_ISDIR inode.iMode = false →
      ((∀ x s₂, Replaces fs newDir newName x s₁ s₂ → (V.volume s).Occupied x →
        Refused V s (extfskRename fs oldDir oldName newDir newName s)) ↔
      ∀ x s₂, Replaces fs newDir newName x s₁ s₂ →
        ¬ (V.volume s).Occupied x ∨ Declines fs newDir.toUInt32 newName x s₂)) ∧
    ∀ s ops, (V.volume s).AllReachable → Along (step fs) (Meets fs V) s ops →
      Along (step fs) (fun s _ => (V.volume s).AllReachable) s ops ∧
        (V.volume (ops.foldl (step fs) s)).AllReachable := by
  refine ⟨?_, ?_, ?_⟩
  · intro dirIno hint name s
    refine forall₂_congr fun ino s₁ => forall_congr' fun ht => ?_
    rw [refused_unlink_iff hL ht, imp_iff_not_or]
  · intro oldDir oldName newDir newName s ino inode s₁ hfinds hfile
    refine forall₂_congr fun x s₂ => forall_congr' fun hrep => ?_
    rw [← imp_iff_not_or]
    exact imp_congr_right fun hocc => refused_rename_iff hL hfinds hfile hrep hocc
  · intro s ops hv hops
    refine along_of_inv (I := fun s => (V.volume s).AllReachable) ?_ hv hops
    intro s op hv hop
    exact ⟨hv, step_reachable hL s op hv hop⟩

end Removal

/-! ## A directory with a file in it -/

def nameD : List UInt8 := [0x64]
def nameF : List UInt8 := [0x66]

/-- The root has a directory `d`, and that has a file `f`. -/
def nested : RefState where
  volume :=
    { node := fun i => if i = 13 then ⟨LINUX_S_IFREG, 1, 0⟩ else ⟨LINUX_S_IFDIR, 2, 1024⟩
      inUse := fun i => i = 2 ∨ i = 12 ∨ i = 13
      data := fun _ _ => 0
      dir := fun i =>
        if i = 2 then [⟨12, nameD, EXT2_FT_DIR⟩]
        else if i = 12 then [⟨13, nameF, EXT2_FT_REG_FILE⟩] else [] }
  handles := []

theorem nested_reachable : nested.volume.AllReachable := by
  have hd : nested.volume.Edge EXT2_ROOT_INO 12 :=
    ⟨by decide, by decide, ⟨12, nameD, EXT2_FT_DIR⟩, by decide, by decide, rfl⟩
  have hf : nested.volume.Edge 12 13 :=
    ⟨by decide, by decide, ⟨13, nameF, EXT2_FT_REG_FILE⟩, by decide, by decide, rfl⟩
  intro ino huse
  have hino : ino = 2 ∨ ino = 12 ∨ ino = 13 := of_decide_eq_true huse
  obtain rfl | rfl | rfl := hino
  · exact .refl
  · exact .single hd
  · exact (Relation.ReflTransGen.single hd).tail hf

theorem refLibrary_completes (blocks : UInt32 → List (List DirEntry)) (ino p : UInt32)
    (s : RefState) : Completes (refLibrary blocks) ino p s :=
  ⟨_, _, rfl, fun _ => ⟨_, _, rfl⟩⟩

/-- Removing the file and then the directory. -/
theorem removal_law_bottom_up :
    Along (step (refLibrary fun _ => [])) (fun s _ => s.volume.AllReachable) nested
        [.unlink 12 nameF 13, .unlink 2 nameD 12] ∧
      ([Op.unlink 12 nameF 13, .unlink 2 nameD 12].foldl (step (refLibrary fun _ => []))
        nested).volume.AllReachable := by
  refine (removal_law (refLibrary_lawful fun _ => [])).2.2 nested _ nested_reachable ⟨?_, ?_, trivial⟩
  · intro ino s' ht
    cases ht
    intro _
    refine ⟨?_, Or.inr ⟨Or.inr rfl, fun s' _ => refLibrary_completes _ _ _ _⟩⟩
    rintro ⟨hdir, _⟩
    exact absurd hdir (by decide)
  · intro ino s' ht
    cases ht
    intro _
    refine ⟨?_, Or.inr ⟨Or.inl rfl, fun s' _ => refLibrary_completes _ _ _ _⟩⟩
    rintro ⟨_, e, he, _⟩
    -- the file is gone
    exact List.not_mem_nil he

/-- `d` is removed with `f` in it, and nothing leads to `f` any more. -/
theorem occupied_directory_unlinked :
    Lawful (refLibrary fun _ => []) RefState.view ∧ nested.volume.AllReachable ∧
    nested.volume.Occupied 12 ∧
    ∃ s', extfskUnlink (refLibrary fun _ => []) 2 nameD 12 nested = .ok () s' ∧
      s'.volume.inUse 13 = true ∧ ¬ Relation.ReflTransGen s'.volume.Edge EXT2_ROOT_INO 13 := by
  refine ⟨refLibrary_lawful _, nested_reachable, ⟨by decide, _, List.mem_singleton.mpr rfl, by decide⟩,
    _, rfl, by decide, ?_⟩
  intro h
  have hroot : (13 : UInt32) = EXT2_ROOT_INO := by
    refine Reach.reach_within (S := fun i => i = EXT2_ROOT_INO) rfl ?_ h
    rintro a b ha ⟨_, _, e, he, _⟩
    rw [ha] at he
    cases he
  exact absurd hroot (by decide)

end Ext
end Usbrw
