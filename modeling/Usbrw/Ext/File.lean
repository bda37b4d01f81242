import Usbrw.Ext.Library

/-!
# Ext.File

`extfsk_read` and `extfsk_write`. Both position the library's file by a 32-bit `ext2_off_t`, and a
write sets the size once more after the library did.

Buffers and handles are never NULL here: the volume only passes live ones.
-/

namespace Usbrw
namespace Ext

open Call Region

variable {σ : Type}

/-- A result other than an error is the bytes read. -/
def extfskRead (fs : Ext2fs σ) (ino offset : UInt64) (len : UInt64) :
    EStateM Int σ (List UInt8) := do
  let f ← orFail (fun _ => - EIO) (fs.fileOpen ino.toUInt32 false)
  match ← attempt (fs.fileLseek f offset.toUInt32) with
  | .error _ =>
    let _ : Except Errcode Unit ← attempt (fs.fileClose f)
    throw (- EIO)
  | .ok () =>
    let r ← attempt (fs.fileRead f len.toUInt32)
    let _ : Except Errcode Unit ← attempt (fs.fileClose f)
    match r with
    | .ok got => pure got
    | .error (rc, got) => if rc ≠ .fileNotFound ∧ rc ≠ .blockAllocFail then throw (- EIO) else pure got

def extUpdateInodeSize (fs : Ext2fs σ) (ino : UInt32) (size : UInt64) : EStateM Int σ Unit := do
  let inode ← orFail (fun _ => - EIO) (fs.readInode ino)
  let inode ← orFail translateErrno (fs.inodeSizeSet inode size)
  let now := fs.time (← get)
  orFail (fun _ => - EIO)
    (fs.writeInode ino { inode with iMtime := now, iCtime := now, iAtime := now })

/-- `ext2fs_file_write`, and `ext2fs_file_flush` when it succeeds. -/
def fileWriteFlush (fs : Ext2fs σ) (f : Nat) (buf : List UInt8) (n : UInt32) :
    EStateM Errcode σ UInt32 := do
  let written ← fs.fileWrite f buf n
  fs.fileFlush f
  pure written

/-- A result other than an error is the number of bytes written. -/
def extfskWrite (fs : Ext2fs σ) (ino offset : UInt64) (buf : List UInt8) :
    EStateM Int σ UInt32 := do
  let f ← orFail translateErrno (fs.fileOpen ino.toUInt32 true)
  match ← attempt (fs.fileLseek f offset.toUInt32) with
  | .error err =>
    let _ : Except Errcode Unit ← attempt (fs.fileClose f)
    throw (translateErrno err)
  | .ok () =>
    let r ← attempt (fileWriteFlush fs f buf (UInt32.ofNat buf.length))
    let _ : Except Errcode Unit ← attempt (fs.fileClose f)
    match r with
    | .error err => throw (translateErrno err)
    | .ok written =>
      extUpdateInodeSize fs ino.toUInt32 (offset + written.toUInt64)
      pure written

/-! ## What they do to the volume -/

section Specs

variable {fs : Ext2fs σ} {V : View σ}

/-- Closing a file keeps whatever is known of the volume, reported error or not. -/
theorem Spec.close {α : Type} (φ : Volume → Prop) {R : α → σ → Prop} {D : Int → σ → Prop}
    (hL : Lawful fs V) {f : Nat} {g : Except Errcode Unit → EStateM Int σ α}
    (hg : ∀ r, Spec (fun s => φ (V.volume s)) (g r) R D) :
    Spec (fun s => φ (V.volume s)) (attempt (fs.fileClose f) >>= g) R D := by
  have hkeep : Spec (fun s => φ (V.volume s)) (fs.fileClose f) (fun _ s => φ (V.volume s))
      fun _ s => φ (V.volume s) := by
    intro s hs
    have hc := hL.fileClose (V.volume s) f s rfl
    cases h : fs.fileClose f s with
    | ok _ s' =>
      rw [h] at hc
      rwa [← hc.eq] at hs
    | error _ s' =>
      rw [h] at hc
      rwa [← hc.eq] at hs
  exact Spec.bind_attempt hkeep (fun _ => hg _) fun _ => hg _

theorem extfskRead_spec (hL : Lawful fs V) (v : Volume) (ino offset len : UInt64) :
    Spec (V.Is v) (extfskRead fs ino offset len)
      (fun bs s => bs = v.bytesAt ino.toUInt32 offset.toUInt32.toNat len.toUInt32.toNat ∧ V.Is v s)
      fun _ => V.Is v := by
  unfold extfskRead
  refine Spec.bind_orFail (hL.fileOpen v ino.toUInt32 false) (fun _ _ h => h) ?_
  intro f
  refine Spec.bind_attempt (hL.fileLseek v f ino.toUInt32 0 offset.toUInt32) ?_ ?_
  · intro _
    refine Spec.bind_attempt (hL.fileRead v f _ _ len.toUInt32) ?_ ?_
    · intro got
      refine Spec.assume fun hgot => Spec.close (· = v) hL fun _ => ?_
      exact Spec.pure fun s hs => ⟨hgot, hs⟩
    · intro r
      refine Spec.assume fun hr => Spec.close (· = v) hL fun _ => ?_
      simp only [if_pos hr]
      exact Spec.throw fun s hs => hs
  · intro err
    exact Spec.close (· = v) hL fun _ => Spec.throw fun s hs => hs

theorem extUpdateInodeSize_spec (hL : Lawful fs V) (v : Volume) (ino : UInt32) (size : UInt64) :
    Spec (V.Is v) (extUpdateInodeSize fs ino size) (fun _ => V.Is (v.resize ino size))
      fun _ => V.Is v := by
  unfold extUpdateInodeSize
  refine Spec.bind_orFail (hL.readInode v ino) (fun _ _ h => h) ?_
  intro inode
  refine Spec.assume fun hnode => ?_
  refine Spec.bind_orFail (hL.inodeSizeSet v inode size) (fun _ _ h => h) ?_
  intro inode'
  refine Spec.assume fun hset => ?_
  refine Spec.bind (Q := fun _ => V.Is v) (fun s hs => hs) ?_
  intro s₀
  refine Spec.orFail (Spec.conseq_ok (hL.writeInode v ino _) ?_)
    fun _ _ h => h
  intro _ s hs
  have hres : ({ v.node ino with size := size } : Node) = ⟨inode'.iMode, inode'.iLinksCount,
      inode'.iSize⟩ := by
    rw [hset, ← hnode]
    rfl
  rw [Volume.resize, hres]
  exact hs

/-- The volume after a write whose bytes were stored only up to some point. -/
def PartlyStored (v : Volume) (ino : UInt32) (pos : Nat) (buf : List UInt8) (n : Nat)
    (v' : Volume) : Prop :=
  ∃ k, k ≤ n ∧ v'.data = (v.store ino pos (buf.take k)).data

theorem partlyStored_none (v : Volume) (ino : UInt32) (pos : Nat) (buf : List UInt8) (n : Nat) :
    PartlyStored v ino pos buf n v :=
  ⟨0, Nat.zero_le n, by rw [List.take_zero, Volume.store_nil]⟩

theorem fileWriteFlush_spec (hL : Lawful fs V) (v : Volume) (f : Nat) (ino : UInt32) {pos : Nat}
    {buf : List UInt8} {n : UInt32} (hn : n.toNat ≤ buf.length) (hpos : pos + n.toNat < 2 ^ 64) :
    Spec (V.At v f ino pos) (fileWriteFlush fs f buf n)
      (fun m s => m = n ∧ V.Is (v.write ino pos (buf.take m.toNat)) s)
      fun _ s => PartlyStored v ino pos buf n.toNat (V.volume s) := by
  unfold fileWriteFlush
  refine Spec.bind (Spec.conseq_error (hL.fileWrite v f ino pos buf n hn hpos) ?_) ?_
  · rintro _ s ⟨k, size, hk, hs⟩
    exact ⟨k, hk, by rw [hs.eq, Volume.resize_data]⟩
  · intro m
    refine Spec.assume fun hm => ?_
    refine Spec.bind (Spec.conseq_error (hL.fileFlush (v.write ino pos (buf.take n.toNat)) f) ?_) ?_
    · intro _ s hs
      exact ⟨n.toNat, Nat.le_refl _, by rw [hs.eq, Volume.write_data]⟩
    · intro _
      exact Spec.pure fun s hs => ⟨hm, by rwa [hm]⟩

/-- The bytes go where the 32-bit position points, the size becomes where the 64-bit offset and
the written count end. -/
theorem extfskWrite_spec (hL : Lawful fs V) (v : Volume) (ino offset : UInt64) (buf : List UInt8) :
    Spec (V.Is v) (extfskWrite fs ino offset buf)
      (fun n s => n = UInt32.ofNat buf.length ∧
        V.Is ((v.store ino.toUInt32 offset.toUInt32.toNat (buf.take n.toNat)).resize ino.toUInt32
          (offset + n.toUInt64)) s)
      fun _ s => PartlyStored v ino.toUInt32 offset.toUInt32.toNat buf (UInt32.ofNat buf.length).toNat
        (V.volume s) := by
  have hnone : ∀ s, V.Is v s → PartlyStored v ino.toUInt32 offset.toUInt32.toNat buf
      (UInt32.ofNat buf.length).toNat (V.volume s) := by
    intro s hs
    rw [hs]
    exact partlyStored_none v _ _ buf _
  have hn : (UInt32.ofNat buf.length).toNat ≤ buf.length := by
    rw [UInt32.toNat_ofNat']
    exact Nat.mod_le _ _
  have hpos : offset.toUInt32.toNat + (UInt32.ofNat buf.length).toNat < 2 ^ 64 := by
    have h1 := offset.toUInt32.toNat_lt
    have h2 := (UInt32.ofNat buf.length).toNat_lt
    omega
  unfold extfskWrite
  refine Spec.bind_orFail (hL.fileOpen v ino.toUInt32 true) (fun _ => hnone) ?_
  intro f
  refine Spec.bind_attempt (hL.fileLseek v f ino.toUInt32 0 offset.toUInt32) ?_ ?_
  · intro _
    refine Spec.bind_attempt (fileWriteFlush_spec hL v f ino.toUInt32 hn hpos) ?_ ?_
    · intro n
      refine Spec.assume fun hn => Spec.close (· = _) hL fun _ => ?_
      refine Spec.bind (Spec.conseq_error (extUpdateInodeSize_spec hL _ ino.toUInt32
        (offset + n.toUInt64)) ?_) ?_
      · intro _ s hs
        rw [hs, ← hn]
        exact ⟨n.toNat, Nat.le_refl _, Volume.write_data _ _ _ _⟩
      · intro _
        refine Spec.pure fun s hs => ⟨hn, ?_⟩
        rwa [Volume.resize_write] at hs
    · intro err
      exact Spec.close (PartlyStored v _ _ buf _) hL fun _ => Spec.throw fun s hs => hs
  · intro err
    exact Spec.close (· = v) hL fun _ => Spec.throw hnone

end Specs

end Ext
end Usbrw
