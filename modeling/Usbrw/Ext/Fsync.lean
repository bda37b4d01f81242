import Usbrw.Ext.Channel
import Usbrw.Ext.Library
import Usbrw.Ext.Loader

/-!
# Ext.Fsync

What a successful `extfsk_fsync` says. A failure of the resource's flush would have to pass four
layers: `BlockIOHolder.sync`, `ext_io_flush`, `ext2fs_flush` and `extfsk_fsync`.

* `Flush`        — `ext2fs_flush`: what it does through the channel, and its result.
* `Committed`    — the library's flush succeeded, and so did every flush of the resource it caused.
* `fsync_iff`    — a success means `Committed` only where everything succeeded anyway.
-/

namespace Usbrw
namespace Ext

open Block Shim

variable {ι σ : Type}

/-- The holder, over resources that keep a log. -/
abbrev LoggedHolder (ι σ : Type) : Type := BlockIOHolder ι (σ × List (ι × Touch))

/-- `ext2fs_flush` of the library, through the channel of the volume. -/
abbrev Flush (ι σ : Type) : Type :=
  IoChannel (LoggedHolder ι σ) → LoggedHolder ι σ → LoggedHolder ι σ × Except Errcode Unit

/-- `extfsk_volume`: the `fs` of a volume is NULL or has the channel it was opened with. -/
structure ExtfskVolume (ι σ : Type) where
  fs : Option (IoChannel (LoggedHolder ι σ))

section Fsync

variable (ext2fsFlush : Flush ι σ) (v : Option (ExtfskVolume ι σ)) (h : LoggedHolder ι σ)

def extfskFsync : LoggedHolder ι σ × Int :=
  match v.bind ExtfskVolume.fs with
  | none => (h, -EINVAL)
  | some ch => ((ext2fsFlush ch h).1, 0)

/-- `EXTVolume.synchronize`, which throws `EIO`. -/
def synchronize : LoggedHolder ι σ × Except Int Unit :=
  match extfskFsync ext2fsFlush v h with
  | (h, rc) => (h, if rc ≠ 0 then .error EIO else .ok ())

end Fsync

/-- The holder with an empty log. -/
def BlockIOHolder.logged (h : BlockIOHolder ι σ) : LoggedHolder ι σ := ⟨h.block, h.world, []⟩

section Property

variable (ext2fsFlush : Flush ι σ) (v : Option (ExtfskVolume ι σ)) (h : BlockIOHolder ι σ)

/-- The library's flush succeeds, and so does every flush of a resource it causes. -/
def Committed (ch : IoChannel (LoggedHolder ι σ)) : Prop :=
  (ext2fsFlush ch h.logged).2 = .ok () ∧
    ∀ p ∈ (ext2fsFlush ch h.logged).1.world.2, p.2 ≠ .flush false

/-- A success of either call is one of the library and of the resource. -/
def Honest : Prop :=
  ((extfskFsync ext2fsFlush v h.logged).2 = 0 →
    ∃ ch, v.bind ExtfskVolume.fs = some ch ∧ Committed ext2fsFlush h ch) ∧
  ((synchronize ext2fsFlush v h.logged).2 = .ok () →
    ∃ ch, v.bind ExtfskVolume.fs = some ch ∧ Committed ext2fsFlush h ch)

end Property

/-! ## The layers -/

/-- `BlockIOHolder.sync` returns 0 whatever the flush of the resource throws. -/
theorem sync_returns_zero (res : ι → FSBlockDevice σ) {h : BlockIOHolder ι σ} {b : ι}
    (hb : h.block = some b) : (BlockIOHolder.sync res h).2 = 0 := by
  simp [BlockIOHolder.sync, hb]

/-- `ext_io_flush` returns 0 whatever `sync` returns. -/
theorem extIoFlush_returns_ok {τ : Type} (ch : IoChannel τ) (s : τ) :
    (extIoFlush ch s).2 = .ok () := by
  unfold extIoFlush
  split <;> rfl

/-- `extfsk_fsync` returns 0 on every open volume. -/
theorem extfskFsync_returns_zero (ext2fsFlush : Flush ι σ) {v : Option (ExtfskVolume ι σ)}
    {ch : IoChannel (LoggedHolder ι σ)} (hv : v.bind ExtfskVolume.fs = some ch)
    (h : LoggedHolder ι σ) : (extfskFsync ext2fsFlush v h).2 = 0 := by
  simp [extfskFsync, hv]

theorem synchronize_returns (ext2fsFlush : Flush ι σ) {v : Option (ExtfskVolume ι σ)}
    {ch : IoChannel (LoggedHolder ι σ)} (hv : v.bind ExtfskVolume.fs = some ch)
    (h : LoggedHolder ι σ) : (synchronize ext2fsFlush v h).2 = .ok () := by
  simp [synchronize, extfskFsync_returns_zero ext2fsFlush hv]

/-- A success is honest exactly where the volume is not open or nothing fails. -/
theorem fsync_iff (ext2fsFlush : Flush ι σ) (v : Option (ExtfskVolume ι σ))
    (h : BlockIOHolder ι σ) :
    Honest ext2fsFlush v h ↔
      ∀ ch, v.bind ExtfskVolume.fs = some ch → Committed ext2fsFlush h ch := by
  cases hv : v.bind ExtfskVolume.fs with
  | none =>
    have hrc : (extfskFsync ext2fsFlush v h.logged).2 = -EINVAL := by simp [extfskFsync, hv]
    refine iff_of_true ⟨fun h0 => ?_, fun h0 => ?_⟩ (by simp)
    · rw [hrc] at h0
      exact absurd h0 (by decide)
    · simp only [synchronize, hrc] at h0
      exact absurd h0 (by decide)
  | some ch =>
    constructor
    · intro hh ch' hv'
      obtain ⟨c, hc, hcommitted⟩ := hh.1 (extfskFsync_returns_zero ext2fsFlush hv h.logged)
      cases hv'
      rw [hv] at hc
      cases hc
      exact hcommitted
    · intro hc
      exact ⟨fun _ => ⟨ch, hv, hc ch rfl⟩, fun _ => ⟨ch, hv, hc ch rfl⟩⟩

/-- A disk whose flush throws. -/
def failingDisk : FSBlockDevice Unit where
  metadataRead := fun s _ len => (s, .ok (List.replicate len 0))
  delayedMetadataWrite := fun s _ _ => (s, .ok ())
  read := fun s _ len => (s, .ok (List.replicate len 0))
  write := fun s _ bytes => (s, .ok bytes.length)
  metadataFlush := some fun s => (s, .error .other)
  blockSize := 512
  blockCount := 8
  isWritable := true

/-- The volume of a disk that is in the holder. -/
def openVolume : ExtfskVolume Unit Unit :=
  ⟨some (extIoOpen (loaderIo (fun i => watch failingDisk i) () true))⟩

/-- A library that has nothing to write and flushes the channel. -/
def flushChannel : Flush Unit Unit := fun ch h =>
  match extIoFlush ch h with
  | (h, .ok ()) => (h, .ok ())
  | (h, .error _) => (h, .error (.other EIO))

/-- A library that cannot write the superblock. -/
def failToWrite : Flush Unit Unit := fun _ h => (h, .error (.other EIO))

/-- Both report success: the disk did not flush, and the library failed. -/
theorem fsync_lies :
    ¬ Honest flushChannel (some openVolume) ⟨some (), ()⟩ ∧
    ¬ Honest failToWrite (some openVolume) ⟨some (), ()⟩ := by
  constructor
  · rintro ⟨h, -⟩
    obtain ⟨ch, hch, -, hflushed⟩ := h rfl
    cases hch
    exact hflushed ((), .flush false) (List.mem_singleton_self _) rfl
  · rintro ⟨h, -⟩
    obtain ⟨ch, hch, hok, -⟩ := h rfl
    cases hok

end Ext
end Usbrw
