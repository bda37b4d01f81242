import Usbrw.Base.Mask
import Usbrw.Base.Run
import Usbrw.Ext.Channel
import Usbrw.Ext.Loader

/-!
# Ext.Alignment

The requests that reach a block resource past the shim: those of the ext channel, of `loadResource`,
and of the two readers of the boot sector.

* `Access`        — one of them; `Session` is what they act on.
* `Whole`         — the requests of an access are multiples of a block length.
* `aligned_iff`   — all requests of a run are aligned when, and only when, each access is `Whole`.
* `whole_512`     — with blocks of 512 bytes that is every access.
-/

namespace Usbrw
namespace Ext

open Block Shim Run Region

variable {σ : Type}

/-- A request in whole blocks of `b` bytes. -/
def Touch.Aligned (b : Nat) : Touch → Prop
  | .transfer off len => (b : Int) ∣ off.toInt ∧ b ∣ len
  | .flush _ => True

/-- The caller's buffer is the memory from `data 0` on. libext2fs has no blocks above 65536 bytes. -/
inductive Access where
  | bootSerial
  | readBootSector
  | readVolumeID (old : List UInt8)
  | open
  | setBlksize (blocksize : UInt32) (legal : blocksize ≤ 65536)
  | readBlk64 (block : UInt64) (count : Int)
  | writeBlk64 (block : UInt64) (count : Int) (data : Nat → UInt8)
  | writeByte (offset : UInt64) (count : Int) (data : Nat → UInt8)
  | flush

/-- The resource with its log, what `NTFSBlockDevice` keeps, the channel and its bounce buffer. -/
structure Session (σ : Type) where
  world : σ × List (Unit × Touch)
  cacheDirty : Bool
  readonly : Bool
  blockSize : UInt32
  legal : blockSize ≤ 65536
  byteBuf : ByteBuf

/-- `NTFSBlockDevice.bootSerial`: 512 bytes, of which it takes eight. -/
def bootSerial (d : FSBlockDevice σ) (w : σ) : σ × Option (List UInt8) :=
  match d.read w 0 512 with
  | (w, .error _) => (w, none)
  | (w, .ok bs) => (w, some ((bs.drop 0x48).take 8))

/-- `NTFSBlockDevice.readBootSector`. -/
def readBootSector (d : FSBlockDevice σ) (nd : NTFSBlockDevice σ) :
    NTFSBlockDevice σ × Option (List UInt8) :=
  match pread (some d.toBlockResource) nd 0 512 with
  | (nd, rc, bs) => (nd, if rc = 0 then some bs else none)

namespace Session

section Steps

variable (d : FSBlockDevice σ)

/-- The channel of the volume, on the only resource. -/
def channel (s : Session σ) : IoChannel (BlockIOHolder Unit (σ × List (Unit × Touch))) :=
  ⟨loaderIo (fun _ => watch d ()) () (!s.readonly), s.blockSize⟩

def holder (s : Session σ) : BlockIOHolder Unit (σ × List (Unit × Touch)) := ⟨some (), s.world⟩

/-- After a channel call, whatever it returned. -/
def after {α : Type} (s : Session σ)
    (r : BlockIOHolder Unit (σ × List (Unit × Touch)) × ByteBuf × Except IoErrcode α) :
    Session σ :=
  { s with world := r.1.world, byteBuf := r.2.1 }

def step (s : Session σ) : Access → Session σ
  | .bootSerial => { s with world := (bootSerial (watch d ()) s.world).1 }
  | .readBootSector =>
    let nd := (readBootSector (watch d ()) ⟨s.world, s.cacheDirty⟩).1
    { s with world := nd.resource, cacheDirty := nd.cacheDirty }
  | .readVolumeID old => { s with world := (readVolumeID (fun _ => watch d ()) () old s.world).1 }
  | .open =>
    { s with
      blockSize := (extIoOpen (s.channel d).privateData).blockSize
      legal := show (1024 : UInt32) ≤ 65536 by decide }
  | .setBlksize blocksize legal =>
    { s with blockSize := (extIoSetBlocksize (s.channel d) blocksize).blockSize, legal := legal }
  | .readBlk64 block count => s.after (extIoReadBlk64 (s.channel d) s.holder s.byteBuf block count)
  | .writeBlk64 block count data =>
    let len := if count < 0 then (-count).toNat
      else (UInt64.ofNat count.toNat * s.blockSize.toUInt64).toNat
    s.after (extIoWriteBlk64 (s.channel d) s.holder s.byteBuf block count (slice data 0 len))
  | .writeByte offset count data =>
    s.after (extIoWriteByte (s.channel d) s.holder s.byteBuf offset count
      (slice data 0 count.toNat))
  | .flush => { s with world := (extIoFlush (s.channel d) s.holder).1.world }

end Steps

/-- A request of `n` blocks of `bs` bytes from `block` on is in whole blocks of `b` bytes. -/
def WholeBlocks (b block n bs : Nat) : Prop := b ∣ block * bs ∧ b ∣ n * bs

/-- Every request so far was in whole blocks of `b` bytes. -/
def Aligned (b : Nat) (s : Session σ) : Prop := ∀ p ∈ s.world.2, p.2.Aligned b

/-- The requests of an access are in whole blocks of `b` bytes: the fixed lengths are, the blocks of
the channel are where it bounces, and otherwise the range that it asks for is. A write that the
channel refuses makes no request. -/
def Whole (b : Nat) (s : Session σ) : Access → Prop
  | .bootSerial => b ∣ 512
  | .readBootSector => b ∣ 512
  | .readVolumeID _ => b ∣ 1024
  | .open => True
  | .setBlksize _ _ => True
  | .readBlk64 block count =>
    if count < 0 then b ∣ s.blockSize.toNat
    else WholeBlocks b block.toNat (UInt64.ofNat count.toNat).toNat s.blockSize.toNat
  | .writeBlk64 block count _ =>
    s.readonly = true ∨
      if count < 0 then b ∣ s.blockSize.toNat
      else WholeBlocks b block.toNat (UInt64.ofNat count.toNat).toNat s.blockSize.toNat
  | .writeByte _ count _ => count ≤ 0 ∨ b ∣ s.blockSize.toNat
  | .flush => True

end Session

/-! ## What is added to the log -/

section Added

variable {b : Nat} {w w' w'' : σ × List (Unit × Touch)} {P Q : Prop}

/-- From `w` to `w'` the log grows by requests that are all aligned exactly if `P`. -/
def Adds (b : Nat) (P : Prop) (w w' : σ × List (Unit × Touch)) : Prop :=
  ∃ l, w'.2 = w.2 ++ l ∧ ((∀ p ∈ l, p.2.Aligned b) ↔ P)

theorem Adds.none (h : w'.2 = w.2) : Adds b True w w' :=
  ⟨[], by rw [h, List.append_nil], by simp⟩

theorem Adds.one {t : Touch} (w' : σ × List (Unit × Touch)) (h : w'.2 = w.2 ++ [((), t)]) :
    Adds b (t.Aligned b) w w' :=
  ⟨[((), t)], h, by simp⟩

theorem Adds.trans (h : Adds b P w w') (h' : Adds b Q w' w'') : Adds b (P ∧ Q) w w'' := by
  obtain ⟨l, hl, hp⟩ := h
  obtain ⟨l', hl', hq⟩ := h'
  refine ⟨l ++ l', by rw [hl', hl, List.append_assoc], ?_⟩
  rw [← hp, ← hq]
  simp only [List.mem_append, or_imp, forall_and]

theorem Adds.congr (h : Adds b P w w') (hpq : P ↔ Q) : Adds b Q w w' := by
  obtain ⟨l, hl, hp⟩ := h
  exact ⟨l, hl, hp.trans hpq⟩

theorem dvd_toInt64 {k : Nat} (hk : k ≤ 64) (x : UInt64) :
    ((2 ^ k : Nat) : Int) ∣ x.toInt64.toInt ↔ 2 ^ k ∣ x.toNat := by
  have hmod : x.toInt64.toInt = (x.toNat : Int).bmod (2 ^ 64) :=
    BitVec.toInt_eq_toNat_bmod x.toBitVec
  have hdvd : ((2 ^ k : Nat) : Int) ∣ ((2 ^ 64 : Nat) : Int) :=
    Int.natCast_dvd_natCast.mpr (Nat.pow_dvd_pow 2 hk)
  rw [hmod, ← Int.natCast_dvd_natCast, Int.dvd_iff_emod_eq_zero, Int.dvd_iff_emod_eq_zero,
    ← Int.emod_emod_of_dvd _ hdvd, Int.bmod_emod, Int.emod_emod_of_dvd _ hdvd]

/-- A product of words is a multiple of `b` when the product of the numbers is. -/
theorem dvd_toNat_mul {k : Nat} (hk : k ≤ 64) (x y : UInt64) :
    2 ^ k ∣ (x * y).toNat ↔ 2 ^ k ∣ x.toNat * y.toNat := by
  rw [UInt64.toNat_mul]
  exact (Nat.dvd_mod_iff (Nat.pow_dvd_pow 2 hk))

end Added

/-! ## The channel on the resource -/

section Channel

variable {d : FSBlockDevice σ} {k : Nat} {readonly : Bool} {bs : UInt32}
  {w : σ × List (Unit × Touch)}

/-- The channel of a session, with its block size. -/
def deviceChannel (d : FSBlockDevice σ) (readonly : Bool) (bs : UInt32) :
    IoChannel (BlockIOHolder Unit (σ × List (Unit × Touch))) :=
  ⟨loaderIo (fun _ => watch d ()) () (!readonly), bs⟩

@[simp] theorem deviceChannel_blockSize :
    (deviceChannel d readonly bs).blockSize = bs := rfl

theorem aligned_blocks (hk : k ≤ 64) (block n : UInt64) (bs : UInt32) :
    (Touch.transfer (block * bs.toUInt64).toInt64 (n * bs.toUInt64).toNat).Aligned (2 ^ k) ↔
      2 ^ k ∣ block.toNat * bs.toNat ∧ 2 ^ k ∣ n.toNat * bs.toNat := by
  rw [Touch.Aligned, dvd_toInt64 hk, dvd_toNat_mul hk, dvd_toNat_mul hk, UInt32.toNat_toUInt64]

/-- A read of blocks is one request, whatever comes of it. -/
theorem readBlocks_adds (d : FSBlockDevice σ) (readonly : Bool) (bs : UInt32) (hk : k ≤ 64)
    (block : UInt64) (count : Nat) :
    ∃ w' r, readBlocks (deviceChannel d readonly bs) ⟨some (), w⟩ block count =
        (⟨some (), w'⟩, r) ∧
      Adds (2 ^ k) (Session.WholeBlocks (2 ^ k) block.toNat (UInt64.ofNat count).toNat bs.toNat)
        w w' := by
  obtain ⟨rc, data, hr⟩ := BlockIOHolder.read_watch (fun _ => d) () w (block * bs.toUInt64)
    (UInt64.ofNat count * bs.toUInt64)
  have hadds := (Adds.one (b := 2 ^ k) (w := w)
    ((d.read w.1 (block * bs.toUInt64).toInt64 (UInt64.ofNat count * bs.toUInt64).toNat).1, _)
    rfl).congr
    (aligned_blocks hk block (UInt64.ofNat count) bs)
  simp only [readBlocks, deviceChannel, loaderIo, hr]
  by_cases hrc : rc = 0
  · rw [if_neg (not_not.mpr hrc)]
    exact ⟨_, _, rfl, hadds⟩
  · rw [if_pos hrc]
    exact ⟨_, _, rfl, hadds⟩

theorem writeBlocks_adds (d : FSBlockDevice σ) (readonly : Bool) (bs : UInt32) (hk : k ≤ 64)
    (block : UInt64) (count : Nat) (data : List UInt8)
    (hdata : (UInt64.ofNat count * bs.toUInt64).toNat ≤ data.length) :
    ∃ w' r, writeBlocks (deviceChannel d readonly bs) ⟨some (), w⟩ block count data =
        (⟨some (), w'⟩, r) ∧
      Adds (2 ^ k) (readonly = true ∨
        Session.WholeBlocks (2 ^ k) block.toNat (UInt64.ofNat count).toNat bs.toNat) w w' := by
  cases readonly with
  | true =>
    refine ⟨w, .error .erofs, rfl, (Adds.none rfl).congr ?_⟩
    simp
  | false =>
    obtain ⟨rc, hr⟩ := BlockIOHolder.write_watch (fun _ => d) () w (block * bs.toUInt64)
      (UInt64.ofNat count * bs.toUInt64) data
    rw [List.length_take_of_le hdata] at hr
    have hadds := ((Adds.one (b := 2 ^ k) (w := w)
      ((d.write w.1 (block * bs.toUInt64).toInt64
        (data.take (UInt64.ofNat count * bs.toUInt64).toNat)).1, _) rfl).congr
      (aligned_blocks hk block (UInt64.ofNat count) bs)).congr
      (Q := False ∨ Session.WholeBlocks (2 ^ k) block.toNat (UInt64.ofNat count).toNat bs.toNat)
      (by simp [Session.WholeBlocks])
    simp only [writeBlocks, deviceChannel, loaderIo, hr, Bool.not_false, Bool.not_true,
      Bool.false_eq_true, if_false]
    by_cases hrc : rc = 0
    · rw [if_neg (not_not.mpr hrc)]
      exact ⟨_, _, rfl, hadds⟩
    · rw [if_pos hrc]
      exact ⟨_, _, rfl, hadds⟩

/-- Of a single block it is enough that the length is a multiple of `b`. -/
theorem wholeBlocks_one {b block : Nat} {bs : UInt32} :
    Session.WholeBlocks b block (UInt64.ofNat 1).toNat bs.toNat ↔ b ∣ bs.toNat := by
  show b ∣ block * bs.toNat ∧ b ∣ 1 * bs.toNat ↔ _
  rw [Nat.one_mul]
  exact and_iff_right_of_imp fun h => Nat.dvd_mul_left_of_dvd h block

theorem readByteLoop_adds (d : FSBlockDevice σ) (readonly : Bool) (bs : UInt32) (hk : k ≤ 64)
    (passes : Nat) (w : σ × List (Unit × Touch))
    (g : ByteBuf) (offset : UInt64) (left : Nat) (out : List UInt8) :
    ∃ w' g' r, readByteLoop (deviceChannel d readonly bs) passes ⟨some (), w⟩ g offset left out =
        (⟨some (), w'⟩, g', r) ∧
      Adds (2 ^ k) (passes = 0 ∨ left = 0 ∨ 2 ^ k ∣ bs.toNat) w w' := by
  induction passes generalizing w g offset left out with
  | zero => exact ⟨w, g, .ok out, rfl, (Adds.none rfl).congr (by simp)⟩
  | succ passes ih =>
    by_cases hleft : left = 0
    · refine ⟨w, g, .ok out, ?_, (Adds.none rfl).congr (by simp [hleft])⟩
      rw [readByteLoop, if_pos hleft]
    · obtain ⟨w₁, r, hr, hadds⟩ := readBlocks_adds d readonly bs (w := w) hk
        (offset / bs.toUInt64) 1
      have hadds₁ := hadds.congr wholeBlocks_one
      rw [readByteLoop, if_neg hleft]
      simp only [deviceChannel_blockSize, hr]
      cases r with
      | error e => exact ⟨w₁, g, .error e, rfl, hadds₁.congr (by simp [hleft])⟩
      | ok data =>
        obtain ⟨w₂, g₂, r₂, hr₂, hadds₂⟩ := ih w₁ (g.fill data)
          (offset + UInt64.ofNat (inBlock (deviceChannel d readonly bs) offset left))
          (left - inBlock (deviceChannel d readonly bs) offset left)
          (out ++ ((g.fill data).bytes.drop (offset % bs.toUInt64).toNat).take
            (inBlock (deviceChannel d readonly bs) offset left))
        refine ⟨w₂, g₂, r₂, hr₂, (hadds₁.trans hadds₂).congr ?_⟩
        simp only [Nat.add_eq_zero_iff, Nat.one_ne_zero, and_false, hleft, false_or]
        exact and_iff_left_of_imp fun h => Or.inr (Or.inr h)

theorem writeByteLoop_adds (d : FSBlockDevice σ) (readonly : Bool) (hk : k ≤ 64)
    (hbs : bs ≤ 65536) (passes : Nat)
    (w : σ × List (Unit × Touch)) (g : ByteBuf) (offset : UInt64) (data : List UInt8) :
    ∃ w' g' r, writeByteLoop (deviceChannel d readonly bs) passes ⟨some (), w⟩ g offset data =
        (⟨some (), w'⟩, g', r) ∧
      Adds (2 ^ k) (passes = 0 ∨ data.length = 0 ∨ 2 ^ k ∣ bs.toNat) w w' := by
  have hblock : ∀ g : ByteBuf, (UInt64.ofNat 1 * bs.toUInt64).toNat ≤ g.bytes.length := by
    intro g
    have hle := UInt32.le_iff_toNat_le.mp hbs
    rw [g.size, UInt64.toNat_mul, UInt32.toNat_toUInt64]
    show 1 * bs.toNat % 2 ^ 64 ≤ 65536
    rw [Nat.mod_eq_of_lt (by have := bs.toNat_lt; omega), Nat.one_mul]
    exact hle
  induction passes generalizing w g offset data with
  | zero => exact ⟨w, g, .ok (), rfl, (Adds.none rfl).congr (by simp)⟩
  | succ passes ih =>
    by_cases hdata : data.length = 0
    · refine ⟨w, g, .ok (), ?_, (Adds.none rfl).congr (by simp [hdata])⟩
      rw [writeByteLoop, if_pos hdata]
    · obtain ⟨w₁, r, hr, hadds⟩ := readBlocks_adds d readonly bs (w := w) hk
        (offset / bs.toUInt64) 1
      have hadds₁ := hadds.congr wholeBlocks_one
      rw [writeByteLoop, if_neg hdata]
      simp only [deviceChannel_blockSize, hr]
      cases r with
      | error e => exact ⟨w₁, g, .error e, rfl, hadds₁.congr (by simp [hdata])⟩
      | ok old =>
        simp only
        generalize inBlock (deviceChannel d readonly bs) offset data.length = n
        generalize (g.fill old).copyIn (offset % bs.toUInt64).toNat (data.take n) = g₁
        obtain ⟨w₂, r₂, hr₂, hadds₂⟩ := writeBlocks_adds d readonly bs (w := w₁) hk
          (offset / bs.toUInt64) 1 g₁.bytes (hblock g₁)
        have hboth := (hadds₁.trans (hadds₂.congr (or_congr_right wholeBlocks_one))).congr
          (Q := 2 ^ k ∣ bs.toNat) (and_iff_left_of_imp Or.inr)
        rw [hr₂]
        cases r₂ with
        | error e => exact ⟨w₂, g₁, .error e, rfl, hboth.congr (by simp [hdata])⟩
        | ok u =>
          obtain ⟨w₃, g₃, r₃, hr₃, hadds₃⟩ := ih w₂ g₁ (offset + UInt64.ofNat n) (data.drop n)
          refine ⟨w₃, g₃, r₃, hr₃, (hboth.trans hadds₃).congr ?_⟩
          simp only [Nat.add_eq_zero_iff, Nat.one_ne_zero, and_false, hdata, false_or]
          exact and_iff_left_of_imp fun h => Or.inr (Or.inr h)

/-- A negative `count` is a number of bytes, read through the bounce buffer. -/
theorem readBlk64_adds (d : FSBlockDevice σ) (readonly : Bool) (bs : UInt32) (hk : k ≤ 64)
    (w : σ × List (Unit × Touch)) (g : ByteBuf) (block : UInt64) (count : Int) :
    ∃ w' g' r, extIoReadBlk64 (deviceChannel d readonly bs) ⟨some (), w⟩ g block count =
        (⟨some (), w'⟩, g', r) ∧
      Adds (2 ^ k) (if count < 0 then 2 ^ k ∣ bs.toNat else
        Session.WholeBlocks (2 ^ k) block.toNat (UInt64.ofNat count.toNat).toNat bs.toNat)
        w w' := by
  rw [extIoReadBlk64, if_neg (by simp [deviceChannel, loaderIo])]
  by_cases hneg : count < 0
  · obtain ⟨w', g', r, hr, hadds⟩ := readByteLoop_adds d readonly bs hk (-count).toNat w g
      (block * bs.toUInt64) (-count).toNat []
    have hpos : ¬ (-count).toNat = 0 := by omega
    rw [if_pos hneg, if_pos hneg]
    exact ⟨w', g', r, hr, hadds.congr (by simp [hpos])⟩
  · obtain ⟨w', r, hr, hadds⟩ := readBlocks_adds d readonly bs (w := w) hk block count.toNat
    rw [if_neg hneg, if_neg hneg, hr]
    exact ⟨w', g, r, rfl, hadds⟩

/-- `data` is long enough, as the memory behind the caller's pointer is. -/
theorem writeBlk64_adds (d : FSBlockDevice σ) (readonly : Bool) (hk : k ≤ 64) (hbs : bs ≤ 65536)
    (w : σ × List (Unit × Touch)) (g : ByteBuf) (block : UInt64) (count : Int)
    (data : List UInt8)
    (hbytes : count < 0 → data.length = (-count).toNat)
    (hblocks : ¬ count < 0 →
      (UInt64.ofNat count.toNat * bs.toUInt64).toNat ≤ data.length) :
    ∃ w' g' r, extIoWriteBlk64 (deviceChannel d readonly bs) ⟨some (), w⟩ g block count data =
        (⟨some (), w'⟩, g', r) ∧
      Adds (2 ^ k) (readonly = true ∨ if count < 0 then 2 ^ k ∣ bs.toNat else
        Session.WholeBlocks (2 ^ k) block.toNat (UInt64.ofNat count.toNat).toNat bs.toNat)
        w w' := by
  rw [extIoWriteBlk64, if_neg (by simp [deviceChannel, loaderIo])]
  by_cases hro : readonly = true
  · rw [if_pos (by simp [deviceChannel, loaderIo, hro])]
    exact ⟨w, g, .error .erofs, rfl, (Adds.none rfl).congr (by simp [hro])⟩
  · rw [if_neg (by simp [deviceChannel, loaderIo, hro])]
    by_cases hneg : count < 0
    · obtain ⟨w', g', r, hr, hadds⟩ := writeByteLoop_adds d readonly hk hbs (-count).toNat w g
        (block * bs.toUInt64) (data.take (-count).toNat)
      have hpos : ¬ (-count).toNat = 0 := by omega
      rw [if_pos hneg, if_pos hneg]
      refine ⟨w', g', r, hr, hadds.congr ?_⟩
      simp [hro, hbytes hneg, hpos]
    · obtain ⟨w', r, hr, hadds⟩ := writeBlocks_adds d readonly bs (w := w) hk block count.toNat
        data (hblocks hneg)
      rw [if_neg hneg, if_neg hneg, hr]
      exact ⟨w', g, r, rfl, hadds⟩

end Channel

/-! ## Runs -/

namespace Session

variable {d : FSBlockDevice σ} {k : Nat}

theorem channel_eq (s : Session σ) : s.channel d = deviceChannel d s.readonly s.blockSize := rfl

/-- A read of `len` bytes from the start of the device. -/
theorem aligned_start (b len : Nat) : (Touch.transfer 0 len).Aligned b ↔ b ∣ len :=
  and_iff_right (Int.dvd_zero _)

theorem bootSerial_adds (b : Nat) (w : σ × List (Unit × Touch)) :
    Adds b (b ∣ 512) w (bootSerial (watch d ()) w).1 := by
  refine (Adds.one (t := .transfer 0 512) _ ?_).congr (aligned_start b 512)
  simp only [bootSerial, watch_read]
  rcases d.read w.1 0 512 with ⟨s, e | bs⟩ <;> rfl

theorem readVolumeID_adds (b : Nat) (old : List UInt8) (w : σ × List (Unit × Touch)) :
    Adds b (b ∣ 1024) w (readVolumeID (fun _ => watch d ()) () old w).1 := by
  refine (Adds.one (t := .transfer 0 1024) _ ?_).congr (aligned_start b 1024)
  simp only [readVolumeID, watch_read]
  rcases d.read w.1 0 1024 with ⟨s, e | bs⟩ <;> rfl

theorem flushIfDirty_adds (b : Nat) (nd : NTFSBlockDevice (σ × List (Unit × Touch))) :
    Adds b True nd.resource (flushIfDirty (watch d ()).toBlockResource nd).resource := by
  unfold flushIfDirty
  split
  · exact Adds.one (t := .flush (flushResource d.toBlockResource nd.resource.1).2.isOk) _ rfl
  · exact Adds.none rfl

theorem plainRead_adds (b len : Nat) (nd : NTFSBlockDevice (σ × List (Unit × Touch))) :
    Adds b (b ∣ len) nd.resource (plainRead (watch d ()).toBlockResource nd 0 len).1.resource := by
  refine (Adds.one (t := .transfer 0 len) _ ?_).congr (aligned_start b len)
  simp only [plainRead, watch_read]
  rcases d.read nd.resource.1 0 len with ⟨s, e | bs⟩ <;> rfl

/-- The metadata read and, when it throws, the plain one after a flush: both of 512 bytes. -/
theorem readBootSector_adds (b : Nat) (nd : NTFSBlockDevice (σ × List (Unit × Touch))) :
    Adds b (b ∣ 512) nd.resource (readBootSector (watch d ()) nd).1.resource := by
  have hcut : 512 < metadataCutover := by decide
  simp only [readBootSector, pread, blockIORead, hcut, if_true, watch_metadataRead]
  generalize hw : ((d.metadataRead nd.resource.1 0 512).1,
    nd.resource.2 ++ [((), Touch.transfer 0 512)]) = w
  have hfirst : Adds b (b ∣ 512) nd.resource w :=
    (Adds.one (t := .transfer 0 512) _ (by rw [← hw])).congr (aligned_start b 512)
  rcases (d.metadataRead nd.resource.1 0 512).2 with e | bs
  · have hflush := flushIfDirty_adds (d := d) b { nd with resource := w }
    have hplain := plainRead_adds (d := d) b 512
      (flushIfDirty (watch d ()).toBlockResource { nd with resource := w })
    exact ((hfirst.trans hflush).trans hplain).congr (by simp)
  · exact hfirst

theorem step_adds (hk : k ≤ 64) (s : Session σ) (a : Access) :
    Adds (2 ^ k) (s.Whole (2 ^ k) a) s.world (s.step d a).world := by
  cases a with
  | bootSerial => exact bootSerial_adds _ s.world
  | readBootSector => exact readBootSector_adds _ ⟨s.world, s.cacheDirty⟩
  | readVolumeID old => exact readVolumeID_adds _ old s.world
  | «open» => exact Adds.none rfl
  | setBlksize blocksize legal => exact Adds.none rfl
  | readBlk64 block count =>
    obtain ⟨w', g', r, hr, hadds⟩ := readBlk64_adds d s.readonly s.blockSize hk s.world s.byteBuf
      block count
    simp only [step, after, channel_eq, holder, hr]
    exact hadds
  | writeBlk64 block count data =>
    generalize hlen : (if count < 0 then (-count).toNat
      else (UInt64.ofNat count.toNat * s.blockSize.toUInt64).toNat) = len
    obtain ⟨w', g', r, hr, hadds⟩ := writeBlk64_adds d s.readonly hk s.legal s.world s.byteBuf
      block count (slice data 0 len)
      (fun hneg => by rw [length_slice, ← hlen, if_pos hneg])
      (fun hneg => by rw [length_slice, ← hlen, if_neg hneg])
    simp only [step, after, channel_eq, holder, hlen, hr]
    exact hadds
  | writeByte offset count data =>
    simp only [step, after, channel_eq, holder, Whole]
    obtain ⟨w', g', r, hr, hadds⟩ := writeByteLoop_adds d s.readonly
      hk s.legal count.toNat s.world s.byteBuf offset
      ((slice data 0 count.toNat).take count.toNat)
    rw [extIoWriteByte, hr]
    refine hadds.congr ?_
    simp
  | flush =>
    exact (Adds.one (t := .flush (flushResource d.toBlockResource s.world.1).2.isOk) _ rfl).congr
      (iff_of_true trivial trivial)

theorem aligned_step {b : Nat} {s s' : Session σ} {P : Prop} (h : Adds b P s.world s'.world) :
    s'.Aligned b ↔ s.Aligned b ∧ P := by
  obtain ⟨l, hl, hp⟩ := h
  rw [← hp]
  simp only [Aligned, hl, List.mem_append, or_imp, forall_and]

/-- Before the first access. -/
def start (w : σ) (cacheDirty readonly : Bool) (g : ByteBuf) : Session σ where
  world := (w, [])
  cacheDirty := cacheDirty
  readonly := readonly
  blockSize := 1024
  legal := by decide
  byteBuf := g

end Session

/-- In a run past the shim every request is in whole blocks of the device exactly when each access
asks for such a range. -/
theorem aligned_iff (d : FSBlockDevice σ) (hd : Mask.IsPow2 d.blockSize) (w : σ)
    (cacheDirty readonly : Bool) (g : ByteBuf) (accesses : List Access) :
    (accesses.foldl (Session.step d) (Session.start w cacheDirty readonly g)).Aligned
        d.blockSize.toNat ↔
      Along (Session.step d) (Session.Whole d.blockSize.toNat)
        (Session.start w cacheDirty readonly g) accesses := by
  obtain ⟨k, hk⟩ := hd
  have hk64 : k ≤ 64 := by
    have hlt : 2 ^ k < 2 ^ 64 := by
      rw [← hk]
      exact Nat.lt_trans d.blockSize.toNat_lt (by decide)
    exact Nat.le_of_lt ((Nat.pow_lt_pow_iff_right (by omega)).mp hlt)
  rw [hk, foldl_iff_along (I := fun _ => True)
    (fun s a _ => ⟨trivial, Session.aligned_step (Session.step_adds hk64 s a)⟩) trivial]
  exact and_iff_right (by simp [Session.Aligned, Session.start])

/-- The blocks of a file system are multiples of 512 bytes, and so are the fixed lengths. -/
theorem Session.whole_512 (s : Session σ) (h : 512 ∣ s.blockSize.toNat) (a : Access) :
    s.Whole 512 a := by
  have hblocks : ∀ block n, WholeBlocks 512 block n s.blockSize.toNat := fun block n =>
    ⟨Nat.dvd_mul_left_of_dvd h block, Nat.dvd_mul_left_of_dvd h n⟩
  cases a with
  | bootSerial => exact Nat.dvd_refl 512
  | readBootSector => exact Nat.dvd_refl 512
  | readVolumeID old => exact ⟨2, rfl⟩
  | «open» => trivial
  | setBlksize blocksize legal => trivial
  | readBlk64 block count =>
    simp only [Whole]
    split
    · exact h
    · exact hblocks _ _
  | writeBlk64 block count data =>
    right
    split
    · exact h
    · exact hblocks _ _
  | writeByte offset count data => exact Or.inr h
  | flush => trivial

/-- A disk with blocks of `blockSize` bytes that only reads. -/
def zeroDisk (blockSize : UInt32) : FSBlockDevice Unit where
  metadataRead := fun s _ len => (s, .ok (List.replicate len 0))
  delayedMetadataWrite := fun s _ _ => (s, .error .other)
  read := fun s _ len => (s, .ok (List.replicate len 0))
  write := fun s _ _ => (s, .error .other)
  metadataFlush := none
  blockSize := blockSize
  blockCount := 8
  isWritable := false

theorem aligned_iff_512 :
    ([Access.bootSerial, .open, .readBlk64 1 (-1024)].foldl (Session.step (zeroDisk 512))
        (Session.start () false true zeroBuf)).Aligned (512 : UInt32).toNat ↔
      Along (Session.step (zeroDisk 512)) (Session.Whole (512 : UInt32).toNat)
        (Session.start () false true zeroBuf) [.bootSerial, .open, .readBlk64 1 (-1024)] :=
  aligned_iff (zeroDisk 512) ⟨9, rfl⟩ () false true zeroBuf
    [.bootSerial, .open, .readBlk64 1 (-1024)]

/-- On blocks of 4096 bytes neither the boot sector nor the superblock is read in whole blocks. -/
theorem unaligned_4096 :
    ¬ ([Access.bootSerial].foldl (Session.step (zeroDisk 4096))
        (Session.start () false true zeroBuf)).Aligned 4096 ∧
    ¬ ([Access.open, .readBlk64 1 (-1024)].foldl (Session.step (zeroDisk 4096))
        (Session.start () false true zeroBuf)).Aligned 4096 := by
  constructor
  · intro h
    exact absurd (h ((), .transfer 0 512) (List.mem_singleton_self _)).2 (by decide)
  · intro h
    exact absurd (h ((), .transfer 1024 1024) (List.mem_singleton_self _)).2 (by decide)

end Ext
end Usbrw
