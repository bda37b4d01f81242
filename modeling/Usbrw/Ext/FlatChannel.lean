import Usbrw.Base.Service
import Usbrw.Block.Settled
import Usbrw.Ext.ByteIo
import Usbrw.Ext.Kept
import Usbrw.Ext.Loader
import Usbrw.Shim.FlatDevice

/-!
# Ext.FlatChannel

The whole disk of an ext volume: the `io_manager` of libext2fs over the callbacks of `BlockIOHolder`,
over a block resource. Runs of its calls are served as by a disk that is its bytes, with a block size
that may be set again and again.

* `ChannelOp`, `channelStep` — one call of the channel.
* `FlatChannel`              — what a disk that is its bytes answers.
* `DiskIo`, `channelStep_flat` — callbacks that stand for a content answer so.
* `WholeTransfers`           — a resource that transfers all it is asked for, or throws.
* `channel_serves`           — runs of the whole.
-/

namespace Usbrw
namespace Ext

open Block Region Run Service Shim

inductive ChannelOp where
  | setBlksize (blocksize : UInt32)
  | readBlk64 (block : UInt64) (count : Int)
  | writeBlk64 (block : UInt64) (count : Int) (data : List UInt8)
  | writeByte (offset : UInt64) (count : Int) (data : List UInt8)
  | flush

inductive ChannelReply where
  | read (r : Except IoErrcode (List UInt8))
  | done (r : Except IoErrcode Unit)

/-- What the callbacks act on, `g_byte_buf`, and the block size of the channel. -/
structure ChannelState (τ : Type) where
  world : τ
  byteBuf : ByteBuf
  blockSize : UInt32

variable {τ σ : Type}

/-- A call of the channel, which is open. -/
def channelStep (io : NfskBlockio τ) (s : ChannelState τ) : ChannelOp → ChannelState τ × ChannelReply
  | .setBlksize blocksize =>
    ({ s with blockSize := (extIoSetBlocksize ⟨io, s.blockSize⟩ blocksize).blockSize },
      .done (.ok ()))
  | .readBlk64 block count =>
    match extIoReadBlk64 ⟨io, s.blockSize⟩ s.world s.byteBuf block count with
    | (w, g, r) => ({ s with world := w, byteBuf := g }, .read r)
  | .writeBlk64 block count data =>
    match extIoWriteBlk64 ⟨io, s.blockSize⟩ s.world s.byteBuf block count data with
    | (w, g, r) => ({ s with world := w, byteBuf := g }, .done r)
  | .writeByte offset count data =>
    match extIoWriteByte ⟨io, s.blockSize⟩ s.world s.byteBuf offset count data with
    | (w, g, r) => ({ s with world := w, byteBuf := g }, .done r)
  | .flush =>
    match extIoFlush ⟨io, s.blockSize⟩ s.world with
    | (w, r) => ({ s with world := w }, .done r)

/-! ## A disk that is its bytes -/

structure FlatDisk where
  img : Nat → UInt8
  blockSize : UInt32

/-- Where a block begins. -/
def place (blockSize : UInt32) (block : UInt64) : Nat := block.toNat * blockSize.toNat

/-- How many bytes `count` stands for: so many blocks, or with a minus sign so many bytes. -/
def span (blockSize : UInt32) (count : Int) : Nat :=
  if count < 0 then (-count).toNat else count.toNat * blockSize.toNat

namespace FlatDisk

def store (f : FlatDisk) (pos : Nat) (bytes : List UInt8) : FlatDisk :=
  { f with img := overwrite f.img pos bytes }

end FlatDisk

/-- A transfer may fail. Of a range of bytes the beginning may then have been stored, of blocks
nothing. -/
inductive FlatChannel (readonly : Bool) : Contract FlatDisk ChannelOp ChannelReply where
  | setBlksize {f : FlatDisk} {blocksize : UInt32} :
    FlatChannel readonly f (.setBlksize blocksize) (.done (.ok ())) ⟨f.img, blocksize⟩
  | read {f : FlatDisk} {block : UInt64} {count : Int} :
    FlatChannel readonly f (.readBlk64 block count)
      (.read (.ok (slice f.img (place f.blockSize block) (span f.blockSize count)))) f
  | readFailed {f : FlatDisk} {block : UInt64} {count : Int} :
    FlatChannel readonly f (.readBlk64 block count) (.read (.error .eio)) f
  | write {f : FlatDisk} {block : UInt64} {count : Int} {data : List UInt8}
    (hrw : readonly = false) : FlatChannel readonly f (.writeBlk64 block count data)
      (.done (.ok ())) (f.store (place f.blockSize block) (data.take (span f.blockSize count)))
  | writeFailed {f : FlatDisk} {block : UInt64} {count : Int} {data : List UInt8} {k : Nat}
    (hrw : readonly = false) (hk : k ≤ span f.blockSize count) (hblocks : 0 ≤ count → k = 0) :
    FlatChannel readonly f (.writeBlk64 block count data) (.done (.error .eio))
      (f.store (place f.blockSize block) (data.take k))
  | writeRefused {f : FlatDisk} {block : UInt64} {count : Int} {data : List UInt8}
    (hro : readonly = true) :
    FlatChannel readonly f (.writeBlk64 block count data) (.done (.error .erofs)) f
  | writeByte {f : FlatDisk} {offset : UInt64} {count : Int} {data : List UInt8}
    (hrw : readonly = false ∨ count ≤ 0) : FlatChannel readonly f (.writeByte offset count data)
      (.done (.ok ())) (f.store offset.toNat (data.take count.toNat))
  | writeByteFailed {f : FlatDisk} {offset : UInt64} {count : Int} {data : List UInt8} {k : Nat}
    (hk : k ≤ count.toNat) (hrw : readonly = true → k = 0) :
    FlatChannel readonly f (.writeByte offset count data) (.done (.error .eio))
      (f.store offset.toNat (data.take k))
  | writeByteRefused {f : FlatDisk} {offset : UInt64} {count : Int} {data : List UInt8}
    (hro : readonly = true) (hcount : 0 < count) :
    FlatChannel readonly f (.writeByte offset count data) (.done (.error .erofs)) f
  | flush {f : FlatDisk} : FlatChannel readonly f .flush (.done (.ok ())) f

/-- The bytes a call is about end before the position 2^63, there are as many of them as it says, and
libext2fs has no blocks above 65536 bytes. -/
def InReach (blockSize : UInt32) : ChannelOp → Prop
  | .setBlksize blocksize => 0 < blocksize.toNat ∧ blocksize.toNat ≤ 65536
  | .readBlk64 block count => place blockSize block + span blockSize count < 2 ^ 63
  | .writeBlk64 block count data =>
    place blockSize block + span blockSize count < 2 ^ 63 ∧ span blockSize count ≤ data.length
  | .writeByte offset count data =>
    offset.toNat + count.toNat < 2 ^ 63 ∧ count.toNat ≤ data.length
  | .flush => True

/-! ## Transfers -/

section Errors

variable {ch : IoChannel τ} {s s' : τ} {g g' : ByteBuf} {e : IoErrcode}

theorem readBlocks_error (hread : ch.privateData.read.isSome) {block : UInt64} {count : Nat}
    (h : readBlocks ch s block count = (s', .error e)) : e = .eio := by
  obtain ⟨f, hf⟩ := Option.isSome_iff_exists.mp hread
  simp only [readBlocks, hf] at h
  split at h <;> cases h
  rfl

theorem writeBlocks_error (hwrite : ch.privateData.write.isSome)
    (hrw : ch.privateData.readonly = false) {block : UInt64} {count : Nat} {data : List UInt8}
    (h : writeBlocks ch s block count data = (s', .error e)) : e = .eio := by
  obtain ⟨f, hf⟩ := Option.isSome_iff_exists.mp hwrite
  simp only [writeBlocks, hf, hrw, Bool.false_eq_true, if_false] at h
  split at h <;> cases h
  rfl

theorem readByteRuns_error (hread : ch.privateData.read.isSome) {offset : UInt64} {left : Nat}
    {out : List UInt8} (hruns : ReadByteRuns ch s g offset left out (s', g', .error e)) :
    e = .eio := by
  generalize hres : (s', g', Except.error e) = res at hruns
  induction hruns with
  | done => cases hres
  | fail hleft hr => cases hres; exact readBlocks_error hread hr
  | pass hleft hr _ ih => exact ih hres

theorem writeByteRuns_error (hread : ch.privateData.read.isSome)
    (hwrite : ch.privateData.write.isSome) (hrw : ch.privateData.readonly = false)
    {offset : UInt64} {data : List UInt8}
    (hruns : WriteByteRuns ch s g offset data (s', g', .error e)) : e = .eio := by
  generalize hres : (s', g', Except.error e) = res at hruns
  induction hruns with
  | done => cases hres
  | failRead hdata hr => cases hres; exact readBlocks_error hread hr
  | failWrite hdata hr hw => cases hres; exact writeBlocks_error hwrite hrw hw
  | pass hdata hr hw _ ih => exact ih hres

end Errors

section Transfers

variable {ch : IoChannel τ} {image : τ → Nat → UInt8} {s : τ} {g : ByteBuf} {block : UInt64}
  {count : Int} {data : List UInt8}

theorem place_toNat (ch : IoChannel τ) (block : UInt64) (h : place ch.blockSize block < 2 ^ 63) :
    (block * ch.blockSize.toUInt64).toNat = place ch.blockSize block := by
  rw [UInt64.toNat_mul, UInt32.toNat_toUInt64]
  exact Nat.mod_eq_of_lt (Nat.lt_trans h (by decide))

theorem blocks_toNat (h : ByteChannel ch image) {c : Nat} (hc : c * ch.blockSize.toNat < 2 ^ 63) :
    (UInt64.ofNat c * ch.blockSize.toUInt64).toNat = c * ch.blockSize.toNat := by
  have hle : c ≤ c * ch.blockSize.toNat := Nat.le_mul_of_pos_right c h.pos
  rw [UInt64.toNat_mul, UInt64.toNat_ofNat', UInt32.toNat_toUInt64,
    Nat.mod_eq_of_lt (a := c) (by omega), Nat.mod_eq_of_lt (by omega)]

/-- A read delivers the bytes, or fails. -/
theorem readBlk64_flat (h : ByteChannel ch image)
    (hend : place ch.blockSize block + span ch.blockSize count < 2 ^ 63) :
    image (extIoReadBlk64 ch s g block count).1 = image s ∧
      ((extIoReadBlk64 ch s g block count).2.2 =
          .ok (slice (image s) (place ch.blockSize block) (span ch.blockSize count)) ∨
        (extIoReadBlk64 ch s g block count).2.2 = .error .eio) := by
  have hplace := place_toNat ch block (by omega)
  by_cases hneg : count < 0
  · obtain ⟨m, rfl⟩ : ∃ m : Int, count = -m := ⟨-count, by omega⟩
    have hspan : span ch.blockSize (-m) = m.toNat := by
      rw [span, if_pos hneg, Int.neg_neg]
    rw [readBlk64_bytes h block (by omega)]
    rw [hspan] at hend ⊢
    have hruns := readByteLoop_runs h.pos (Nat.le_refl m.toNat) s g
      (block * ch.blockSize.toUInt64) []
    rcases hr : extIoReadByte ch s g (block * ch.blockSize.toUInt64) m with ⟨s', g', r⟩
    have hrun : readByteLoop ch m.toNat s g (block * ch.blockSize.toUInt64) m.toNat [] =
      (s', g', r) := hr
    rw [hrun] at hruns
    obtain ⟨hkeep, hout⟩ := readByteRuns_spec h hruns (by rw [hplace]; exact hend)
    refine ⟨hkeep, ?_⟩
    cases r with
    | error e => exact .inr (congrArg _ (readByteRuns_error h.hasRead hruns))
    | ok out =>
      have hdata := hout out rfl
      rw [hplace, List.nil_append] at hdata
      exact .inl (congrArg _ hdata)
  · obtain ⟨c, rfl⟩ : ∃ c : Nat, count = c := ⟨count.toNat, by omega⟩
    have hspan : span ch.blockSize c = c * ch.blockSize.toNat := by
      rw [span, if_neg hneg, Int.toNat_natCast]
    rw [readBlk64_blocks h]
    rw [hspan] at hend ⊢
    have hkeep := readBlocks_keep h s block c
    refine ⟨hkeep, ?_⟩
    rcases hr : readBlocks ch s block c with ⟨s', e | out⟩
    · exact .inr (congrArg _ (readBlocks_error h.hasRead hr))
    · have hdata := readBlocks_ok h hr
      rw [hplace, blocks_toNat h (by omega)] at hdata
      exact .inl (congrArg _ hdata)

/-- What a write ends with: all is stored, or it fails and `bytes` are stored up to some `k`, which
`small` may say more about. -/
def Stores (image : τ → Nat → UInt8) (s : τ) (pos n : Nat) (bytes : List UInt8)
    (small : Nat → Prop) (res : τ × ByteBuf × Except IoErrcode Unit) : Prop :=
  res.2.2 = .ok () ∧ image res.1 = overwrite (image s) pos (bytes.take n) ∨
    res.2.2 = .error .eio ∧ ∃ k, k ≤ n ∧ small k ∧
      image res.1 = overwrite (image s) pos (bytes.take k)

theorem writeByte_flat (h : ByteChannel ch image) {offset : UInt64}
    (hend : offset.toNat + count.toNat < 2 ^ 63) (hdata : count.toNat ≤ data.length) :
    Stores image s offset.toNat count.toNat data (fun _ => True)
      (extIoWriteByte ch s g offset count data) := by
  have hslices : SlicesDevice ch image s g offset count data := slicesDevice h hend hdata
  have hends := hslices.writeEnds
  obtain ⟨k, hk, himage, hok⟩ := hslices.write
  rcases hr : extIoWriteByte ch s g offset count data with ⟨s', g', e | u⟩
  · rw [hr] at hends himage
    have he := writeByteRuns_error h.hasRead h.hasWrite h.writable hends
    exact .inr ⟨congrArg _ he, k, hk, trivial, himage⟩
  · rw [hr] at himage hok
    rw [hok rfl] at himage
    exact .inl ⟨rfl, himage⟩

/-- Blocks are stored all or not at all. -/
theorem writeBlk64_flat (h : ByteChannel ch image)
    (hend : place ch.blockSize block + span ch.blockSize count < 2 ^ 63)
    (hdata : span ch.blockSize count ≤ data.length) :
    Stores image s (place ch.blockSize block) (span ch.blockSize count) data
      (fun k => 0 ≤ count → k = 0) (extIoWriteBlk64 ch s g block count data) := by
  have hplace := place_toNat ch block (by omega)
  by_cases hneg : count < 0
  · obtain ⟨m, rfl⟩ : ∃ m : Int, count = -m := ⟨-count, by omega⟩
    have hspan : span ch.blockSize (-m) = m.toNat := by
      rw [span, if_pos hneg, Int.neg_neg]
    rw [hspan] at hend hdata ⊢
    rw [writeBlk64_bytes h block (by omega), ← hplace]
    have hbytes : Stores image s (block * ch.blockSize.toUInt64).toNat m.toNat data (fun _ => True)
        (extIoWriteByte ch s g (block * ch.blockSize.toUInt64) m data) :=
      writeByte_flat h (by rw [hplace]; exact hend) hdata
    obtain hall | ⟨he, k, hk, _, himage⟩ := hbytes
    · exact .inl hall
    · exact .inr ⟨he, k, hk, fun h0 => absurd hneg (Int.not_lt.mpr h0), himage⟩
  · obtain ⟨c, rfl⟩ : ∃ c : Nat, count = c := ⟨count.toNat, by omega⟩
    have hspan : span ch.blockSize c = c * ch.blockSize.toNat := by
      rw [span, if_neg hneg, Int.toNat_natCast]
    rw [hspan] at hend hdata ⊢
    have hlen := blocks_toNat h (c := c) (by omega)
    rw [writeBlk64_blocks h]
    rcases hr : writeBlocks ch s block c data with ⟨s', e | u⟩
    · have himage := writeBlocks_image h (by rw [hlen]; exact hdata) hr
      rw [if_neg (by simp)] at himage
      refine .inr ⟨congrArg _ (writeBlocks_error h.hasWrite h.writable hr), 0, Nat.zero_le _,
        fun _ => rfl, ?_⟩
      rw [List.take_zero, overwrite_nil]
      exact himage
    · have himage := writeBlocks_image h (by rw [hlen]; exact hdata) hr
      rw [if_pos rfl, hplace, hlen] at himage
      exact .inl ⟨rfl, himage⟩

end Transfers

/-! ## Read-only channels -/

section ReadOnly

variable {ch : IoChannel τ} {s : τ} {g : ByteBuf} {offset : UInt64} {data : List UInt8}

/-- Not a byte is stored through a channel that is read-only, and it says so if it can read. -/
theorem writeByteRuns_readonly (hread : ch.privateData.read.isSome)
    (hwrite : ch.privateData.write.isSome) (hro : ch.privateData.readonly = true)
    {res : τ × ByteBuf × Except IoErrcode Unit} (hruns : WriteByteRuns ch s g offset data res) :
    data = [] ∧ res = (s, g, .ok ()) ∨
      0 < data.length ∧ res.1 = (readBlocks ch s (offset / ch.blockSize.toUInt64) 1).1 ∧
        (res.2.2 = .error .eio ∨ res.2.2 = .error .erofs) := by
  obtain ⟨f, hf⟩ := Option.isSome_iff_exists.mp hwrite
  have hrefuse : ∀ s block count bytes,
      writeBlocks ch s block count bytes = (s, .error .erofs) := fun s block count bytes => by
    simp only [writeBlocks, hf, hro, if_true]
  cases hruns with
  | done => exact .inl ⟨rfl, rfl⟩
  | failRead hdata hr =>
    exact .inr ⟨hdata, by rw [hr], .inl (congrArg _ (readBlocks_error hread hr))⟩
  | failWrite hdata hr hw =>
    rw [hrefuse] at hw
    cases hw
    exact .inr ⟨hdata, by rw [hr], .inr rfl⟩
  | pass hdata hr hw _ =>
    rw [hrefuse] at hw
    cases hw

/-! Reads do not ask whether a channel is read-only. -/

theorem readBlocks_readonly (io : NfskBlockio τ) (ro : Bool) (bs : UInt32) :
    readBlocks ⟨{ io with readonly := ro }, bs⟩ = readBlocks ⟨io, bs⟩ := rfl

theorem readByteLoop_readonly (io : NfskBlockio τ) (ro : Bool) (bs : UInt32) (passes : Nat) :
    readByteLoop ⟨{ io with readonly := ro }, bs⟩ passes = readByteLoop ⟨io, bs⟩ passes := by
  induction passes with
  | zero => rfl
  | succ passes ih =>
    funext s g offset left out
    simp only [readByteLoop, readBlocks_readonly, ih]
    rfl

theorem extIoReadBlk64_readonly (io : NfskBlockio τ) (ro : Bool) (bs : UInt32) :
    extIoReadBlk64 ⟨{ io with readonly := ro }, bs⟩ = extIoReadBlk64 ⟨io, bs⟩ := by
  funext s g block count
  simp only [extIoReadBlk64, extIoReadByte, readByteLoop_readonly, readBlocks_readonly]

end ReadOnly

/-! ## Callbacks that stand for a content -/

/-- As long as `I` holds, a flush changes nothing. -/
structure DiskIo (io : NfskBlockio τ) (image : τ → Nat → UInt8) (I : τ → Prop) : Prop where
  serves : Ext.Serves io image
  hasRead : io.read.isSome
  hasWrite : io.write.isSome
  reads : ReadsKeep io I
  writes : WritesKeep io I
  sync : ∀ sync, io.sync = some sync → ∀ s, I s → image (sync s).1 = image s ∧ I (sync s).1

/-- The callbacks hold the bytes of the flat disk. -/
structure Stands (image : τ → Nat → UInt8) (I : τ → Prop) (s : ChannelState τ) (f : FlatDisk) :
    Prop where
  img : image s.world = f.img
  inv : I s.world
  blockSize : s.blockSize = f.blockSize
  pos : 0 < s.blockSize.toNat
  le : s.blockSize.toNat ≤ 65536

section Steps

variable {io : NfskBlockio τ} {image : τ → Nat → UInt8} {I : τ → Prop} {s : ChannelState τ}
  {f : FlatDisk}

/-- The channel as if it might be written to. -/
theorem DiskIo.byteChannel (hD : DiskIo io image I) (h : Stands image I s f) :
    ByteChannel ⟨{ io with readonly := false }, s.blockSize⟩ image where
  serves := ⟨hD.serves.keep, hD.serves.read, hD.serves.write⟩
  hasRead := hD.hasRead
  hasWrite := hD.hasWrite
  writable := rfl
  pos := h.pos
  le := h.le

theorem DiskIo.writable (hD : DiskIo io image I) (h : Stands image I s f)
    (hrw : io.readonly = false) : ByteChannel ⟨io, s.blockSize⟩ image :=
  ⟨hD.serves, hD.hasRead, hD.hasWrite, hrw, h.pos, h.le⟩

theorem Stands.eq (h : Stands image I s f) : f = ⟨image s.world, s.blockSize⟩ := by
  obtain ⟨img, blockSize⟩ := f
  rw [h.img, h.blockSize]

/-- After a transfer that leaves the content `img`. -/
theorem Stands.transferred (h : Stands image I s f) {w : τ} {g : ByteBuf} {img : Nat → UInt8}
    (himg : image w = img) (hinv : I w) :
    Stands image I { s with world := w, byteBuf := g } { f with img := img } :=
  ⟨himg, hinv, h.blockSize, h.pos, h.le⟩

/-- A call of the channel is answered as by the flat disk. -/
def AnsweredFlat (io : NfskBlockio τ) (image : τ → Nat → UInt8) (I : τ → Prop) (s : ChannelState τ)
    (f : FlatDisk) (op : ChannelOp) : Prop :=
  ∃ f', FlatChannel io.readonly f op (channelStep io s op).2 f' ∧
    Stands image I (channelStep io s op).1 f'

theorem readBlk64_step (hD : DiskIo io image I) (h : Stands image I s f) {block : UInt64}
    {count : Int} (hop : InReach s.blockSize (.readBlk64 block count)) :
    AnsweredFlat io image I s f (.readBlk64 block count) := by
  obtain rfl := h.eq
  have hinv : I (extIoReadBlk64 ⟨io, s.blockSize⟩ s.world s.byteBuf block count).1 :=
    extIoReadBlk64_kept hD.reads s.byteBuf block count h.inv
  have hread := readBlk64_flat (s := s.world) (g := s.byteBuf) (hD.byteChannel h) hop
  rw [extIoReadBlk64_readonly] at hread
  simp only [AnsweredFlat, channelStep]
  rcases hr : extIoReadBlk64 ⟨io, s.blockSize⟩ s.world s.byteBuf block count with ⟨w, g, r⟩
  rw [hr] at hinv hread
  obtain ⟨himg, rfl | rfl⟩ := hread
  · exact ⟨_, .read, h.transferred himg hinv⟩
  · exact ⟨_, .readFailed, h.transferred himg hinv⟩

theorem writeBlk64_step (hD : DiskIo io image I) (h : Stands image I s f) {block : UInt64}
    {count : Int} {data : List UInt8} (hop : InReach s.blockSize (.writeBlk64 block count data)) :
    AnsweredFlat io image I s f (.writeBlk64 block count data) := by
  obtain rfl := h.eq
  have hinv : I (extIoWriteBlk64 ⟨io, s.blockSize⟩ s.world s.byteBuf block count data).1 :=
    extIoWriteBlk64_kept hD.reads (.inr hD.writes) s.byteBuf block count data h.inv
  simp only [AnsweredFlat, channelStep]
  rcases hr : extIoWriteBlk64 ⟨io, s.blockSize⟩ s.world s.byteBuf block count data with ⟨w, g, r⟩
  rw [hr] at hinv
  cases hro : io.readonly with
  | true =>
    have hrefused : extIoWriteBlk64 ⟨io, s.blockSize⟩ s.world s.byteBuf block count data =
        (s.world, s.byteBuf, .error .erofs) := by
      simp [extIoWriteBlk64, Option.isNone_eq_false_iff.mpr hD.hasWrite, hro]
    rw [hrefused] at hr
    cases hr
    exact ⟨_, .writeRefused rfl, h.transferred rfl hinv⟩
  | false =>
    have hwrite := writeBlk64_flat (s := s.world) (g := s.byteBuf) (hD.writable h hro) hop.1 hop.2
    rw [hr] at hwrite
    obtain ⟨rfl, himg⟩ | ⟨rfl, k, hk, hblocks, himg⟩ := hwrite
    · exact ⟨_, .write rfl, h.transferred himg hinv⟩
    · exact ⟨_, .writeFailed rfl hk hblocks, h.transferred himg hinv⟩

theorem writeByte_step (hD : DiskIo io image I) (h : Stands image I s f) {offset : UInt64}
    {count : Int} {data : List UInt8} (hop : InReach s.blockSize (.writeByte offset count data)) :
    AnsweredFlat io image I s f (.writeByte offset count data) := by
  obtain rfl := h.eq
  have hinv : I (extIoWriteByte ⟨io, s.blockSize⟩ s.world s.byteBuf offset count data).1 :=
    extIoWriteByte_kept hD.reads (.inr hD.writes) s.byteBuf offset count data h.inv
  simp only [AnsweredFlat, channelStep]
  rcases hr : extIoWriteByte ⟨io, s.blockSize⟩ s.world s.byteBuf offset count data with ⟨w, g, r⟩
  rw [hr] at hinv
  cases hro : io.readonly with
  | true =>
    have hruns : WriteByteRuns ⟨io, s.blockSize⟩ s.world s.byteBuf offset (data.take count.toNat)
        (w, g, r) := hr ▸ writeByteLoop_runs h.pos (List.length_take_le ..) _ _ _
    have hkeep := readBlocks_keep (hD.byteChannel h) s.world (offset / s.blockSize.toUInt64) 1
    rw [readBlocks_readonly] at hkeep
    obtain ⟨hnil, hres⟩ | ⟨hpos, hw, hfail⟩ :=
      writeByteRuns_readonly hD.hasRead hD.hasWrite hro hruns
    · cases hres
      have hcount : count.toNat = 0 := by
        have hlen := congrArg List.length hnil
        rw [List.length_take_of_le hop.2] at hlen
        exact hlen
      refine ⟨_, .writeByte (.inr (by omega)), h.transferred ?_ hinv⟩
      rw [hnil, overwrite_nil]
    · have himg : image w = overwrite (image s.world) offset.toNat (data.take 0) := by
        rw [List.take_zero, overwrite_nil, ← hkeep, ← hw]
      have hcount : 0 < count := by
        rw [List.length_take_of_le hop.2] at hpos
        omega
      obtain rfl | rfl := hfail
      · exact ⟨_, .writeByteFailed (Nat.zero_le _) fun _ => rfl, h.transferred himg hinv⟩
      · rw [List.take_zero, overwrite_nil] at himg
        exact ⟨_, .writeByteRefused rfl hcount, h.transferred himg hinv⟩
  | false =>
    have hwrite := writeByte_flat (s := s.world) (g := s.byteBuf) (hD.writable h hro) hop.1 hop.2
    rw [hr] at hwrite
    obtain ⟨rfl, himg⟩ | ⟨rfl, k, hk, _, himg⟩ := hwrite
    · exact ⟨_, .writeByte (.inl rfl), h.transferred himg hinv⟩
    · exact ⟨_, .writeByteFailed hk nofun, h.transferred himg hinv⟩

/-- One call of the channel, on callbacks that stand for a content. -/
theorem channelStep_flat (hD : DiskIo io image I) (h : Stands image I s f) {op : ChannelOp}
    (hop : InReach s.blockSize op) : AnsweredFlat io image I s f op := by
  cases op with
  | setBlksize blocksize => exact ⟨_, .setBlksize, h.img, h.inv, rfl, hop.1, hop.2⟩
  | readBlk64 block count => exact readBlk64_step hD h hop
  | writeBlk64 block count data => exact writeBlk64_step hD h hop
  | writeByte offset count data => exact writeByte_step hD h hop
  | flush =>
    obtain rfl := h.eq
    simp only [AnsweredFlat, channelStep, extIoFlush]
    cases hs : io.sync with
    | none => exact ⟨_, .flush, h⟩
    | some sync =>
      obtain ⟨himg, hinv⟩ := hD.sync sync hs s.world h.inv
      exact ⟨_, .flush, h.transferred himg hinv⟩

end Steps

/-! ## The callbacks of the loader -/

/-- What a transfer does not throw at begins on the device, and is transferred in full. -/
structure WholeTransfers (d : FSBlockDevice σ) : Prop where
  read : ∀ {s s' off len bs}, d.read s off len = (s', .ok bs) → 0 ≤ off.toInt ∧ bs.length = len
  write : ∀ {s s' off bytes n}, d.write s off bytes = (s', .ok n) →
    0 ≤ off.toInt ∧ n = bytes.length

/-- The bytes of the device. -/
def onDevice (v : Block.View σ) (h : BlockIOHolder Unit σ) (p : Nat) : UInt8 := v.device h.world p

section Holder

variable {d : FSBlockDevice σ} {v : Block.View σ} {writable : Bool}

theorem toNat_lt_of_nonneg {x : UInt64} (h : 0 ≤ x.toInt64.toInt) : x.toNat < 2 ^ 63 := by
  have hmod : x.toInt64.toInt = (x.toNat : Int).bmod (2 ^ 64) :=
    BitVec.toInt_eq_toNat_bmod x.toBitVec
  have hlt := x.toNat_lt
  rw [hmod, Int.bmod_def] at h
  split at h <;> omega

theorem holder_read (hR : Block.Lawful d.toBlockResource v) (hd : WholeTransfers d)
    (h : BlockIOHolder Unit σ) (off len : UInt64) :
    onDevice v (h.read (fun _ => d) off len).1 = onDevice v h ∧
      ((h.read (fun _ => d) off len).2.1 = 0 →
        (h.read (fun _ => d) off len).2.2 = slice (onDevice v h) off.toNat len.toNat) := by
  obtain ⟨block, w⟩ := h
  cases block with
  | none => exact ⟨rfl, fun h0 => absurd (show (-ENODEV : Int) = 0 from h0) (by decide)⟩
  | some b =>
    simp only [BlockIOHolder.read]
    rcases hr : d.read w off.toInt64 len.toNat with ⟨w', e | bs⟩
    · have hsame := hR.read_throws hr
      exact ⟨funext fun p => congrArg Slot.device (hsame p),
        fun h0 => absurd (show (- EIO : Int) = 0 from h0) (by decide)⟩
    · obtain ⟨_, hcarries, hsame⟩ := hR.read_ok hr
      obtain ⟨hoff, hlen⟩ := hd.read hr
      refine ⟨funext fun p => congrArg Slot.device (hsame p), fun _ => ?_⟩
      rw [← hlen]
      exact slice_of_carries (toNat_lt_of_nonneg hoff) hcarries fun p => rfl

theorem holder_write (hR : Block.Lawful d.toBlockResource v) (hd : WholeTransfers d)
    (h : BlockIOHolder Unit σ) (off len : UInt64) (buf : List UInt8) :
    onDevice v (h.write (fun _ => d) off len buf).1 =
      if (h.write (fun _ => d) off len buf).2 = 0 then
        overwrite (onDevice v h) off.toNat (buf.take len.toNat)
      else onDevice v h := by
  obtain ⟨block, w⟩ := h
  cases block with
  | none => rfl
  | some b =>
    rcases hw : d.write w off.toInt64 (buf.take len.toNat) with ⟨w', e | n⟩
    · have hcall : BlockIOHolder.write (fun _ => d) ⟨some b, w⟩ off len buf =
          (⟨some b, w'⟩, - EIO) := by
        simp only [BlockIOHolder.write, hw]
      rw [hcall, if_neg (show ¬ (- EIO : Int) = 0 by decide)]
      exact funext fun p => congrArg Slot.device (hR.write_throws hw p)
    · have hcall : BlockIOHolder.write (fun _ => d) ⟨some b, w⟩ off len buf =
          (⟨some b, w'⟩, 0) := by
        simp only [BlockIOHolder.write, hw]
      obtain ⟨hoff, rfl⟩ := hd.write hw
      rw [hcall, if_pos rfl]
      funext p
      have hslot := congrArg Slot.device ((hR.write_ok hw).2 p)
      rw [List.take_length] at hslot
      have hstore : v.device w' p = store (v.device w) off.toInt64.toInt (buf.take len.toNat) p := by
        refine hslot.trans ?_
        rw [store]
        cases cellAt (buf.take len.toNat) off.toInt64.toInt p <;> rfl
      exact hstore.trans (store_overwrite (toNat_lt_of_nonneg hoff) (fun p => rfl) p)

/-- The callbacks stand for the bytes of the device while nothing waits in its cache. -/
theorem holder_diskIo (hR : Block.Lawful d.toBlockResource v) (hd : WholeTransfers d) :
    DiskIo (loaderIo (fun _ : Unit => d) () writable) (onDevice v)
      fun h => Block.Settled v (v.device h.world) h.world where
  serves := {
    keep := by
      rintro _ ⟨⟩ h off len
      exact (holder_read hR hd h off len).1
    read := by
      rintro _ ⟨⟩ h off len
      exact (holder_read hR hd h off len).2
    write := by
      rintro _ ⟨⟩ h off len buf _
      exact holder_write hR hd h off len buf }
  hasRead := rfl
  hasWrite := rfl
  reads := by
    rintro _ ⟨⟩ ⟨block, w⟩ off len h
    cases block with
    | none => exact h
    | some b =>
      have hread := (h.read hR off.toInt64 len.toNat).self
      simp only [BlockIOHolder.read]
      rcases hr : d.read w off.toInt64 len.toNat with ⟨w', e | bs⟩ <;> rwa [hr] at hread
  writes := by
    rintro _ ⟨⟩ ⟨block, w⟩ off len buf h
    cases block with
    | none => exact h
    | some b =>
      have hwrite := h.write hR off.toInt64 (buf.take len.toNat)
      simp only [BlockIOHolder.write]
      rcases hw : d.write w off.toInt64 (buf.take len.toNat) with ⟨w', e | n⟩ <;>
        rwa [hw] at hwrite
  sync := by
    rintro _ ⟨⟩ ⟨block, w⟩ h
    cases block with
    | none => exact ⟨rfl, h⟩
    | some b =>
      have hflush := Block.Settled.flush hR h
      exact ⟨funext fun p => hflush.device p, hflush.self⟩

end Holder

/-- From a resource whose cache holds nothing back, and which transfers all or throws, the calls of the
channel are answered as by a disk that is its bytes, and in the end these are the device's. -/
theorem channel_serves {d : FSBlockDevice σ} {v : Block.View σ}
    (hR : Block.Lawful d.toBlockResource v) (hd : WholeTransfers d) {s : σ}
    (hs : ∀ q c, (v s q).cached = some c → c.dirty = false) (writable : Bool) (g : ByteBuf)
    {ops : List ChannelOp} :
    let io := loaderIo (fun _ : Unit => d) () writable
    let start : ChannelState (BlockIOHolder Unit σ) := ⟨⟨some (), s⟩, g, (extIoOpen io).blockSize⟩
    Along (fun s op => (channelStep io s op).1) (fun s op => InReach s.blockSize op) start ops →
    ∃ f, Service.Serves (FlatChannel (!writable)) ⟨fun p => v.device s p, 1024⟩
        (history (channelStep io) start ops) f ∧
      ∀ p : Nat, v.device (after (channelStep io) start ops).world.world p = f.img p := by
  intro io start hops
  have hstart : Stands (onDevice v) (fun h => Block.Settled v (v.device h.world) h.world) start
      ⟨fun p => v.device s p, 1024⟩ :=
    ⟨rfl, fun q => ⟨rfl, hs q⟩, rfl, (by decide : 0 < (1024 : UInt32).toNat),
      (by decide : (1024 : UInt32).toNat ≤ 65536)⟩
  obtain ⟨f, hserves, hend⟩ := serves_of_simulation (S := FlatChannel (!writable))
    (R := Stands (onDevice v) fun h => Block.Settled v (v.device h.world) h.world)
    (fun s f op h hop => channelStep_flat (holder_diskIo hR hd) h hop) hstart hops
  exact ⟨f, hserves, congrFun hend.img⟩

/-! ## A disk that throws before its start -/

def boundedDisk : FSBlockDevice (Int → Slot) where
  metadataRead := bufferedDisk.metadataRead
  delayedMetadataWrite := bufferedDisk.delayedMetadataWrite
  read s off len := if 0 ≤ off.toInt then bufferedDisk.read s off len else (s, .error .other)
  write s off bs := if 0 ≤ off.toInt then bufferedDisk.write s off bs else (s, .error .other)
  metadataFlush := bufferedDisk.metadataFlush
  blockSize := 512
  blockCount := 8
  isWritable := true

theorem boundedDisk_lawful : Block.Lawful boundedDisk.toBlockResource slots where
  metadataRead_ok := bufferedDisk_lawful.metadataRead_ok
  metadataRead_throws := bufferedDisk_lawful.metadataRead_throws
  delayedMetadataWrite_ok := bufferedDisk_lawful.delayedMetadataWrite_ok
  delayedMetadataWrite_throws := bufferedDisk_lawful.delayedMetadataWrite_throws
  read_ok := by
    intro s s' off len bs h
    simp only [boundedDisk] at h
    split at h
    · exact bufferedDisk_lawful.read_ok h
    · cases h
  read_throws := by
    intro s s' off len t h
    simp only [boundedDisk] at h
    split at h
    · exact bufferedDisk_lawful.read_throws h
    · cases h
      exact fun p => rfl
  write_ok := by
    intro s s' off bs n h
    simp only [boundedDisk] at h
    split at h
    · exact bufferedDisk_lawful.write_ok h
    · cases h
  write_throws := by
    intro s s' off bs t h
    simp only [boundedDisk] at h
    split at h
    · exact bufferedDisk_lawful.write_throws h
    · cases h
      exact fun p => rfl
  metadataFlush_ok := bufferedDisk_lawful.metadataFlush_ok
  metadataFlush_throws := bufferedDisk_lawful.metadataFlush_throws

theorem boundedDisk_whole : WholeTransfers boundedDisk where
  read := by
    intro s s' off len bs h
    simp only [boundedDisk] at h
    split at h
    · cases h
      exact ⟨by assumption, length_load _ _ _⟩
    · cases h
  write := by
    intro s s' off bytes n h
    simp only [boundedDisk] at h
    split at h
    · cases h
      exact ⟨by assumption, rfl⟩
    · cases h

/-- Five bytes across the end of a block of 1024, which are then read as a part of a block of 2048. -/
theorem channel_serves_across :
    ∃ f, Service.Serves (FlatChannel false) ⟨fun p => slots.device zeros p, 1024⟩
        (history (channelStep (loaderIo (fun _ : Unit => boundedDisk) () true))
          ⟨⟨some (), zeros⟩, zeroBuf, 1024⟩
          [.writeByte 1022 5 [1, 2, 3, 4, 5], .setBlksize 2048, .readBlk64 0 1, .flush]) f ∧
      ∀ p : Nat, slots.device (after (channelStep (loaderIo (fun _ : Unit => boundedDisk) () true))
        ⟨⟨some (), zeros⟩, zeroBuf, 1024⟩
        [.writeByte 1022 5 [1, 2, 3, 4, 5], .setBlksize 2048, .readBlk64 0 1,
          .flush]).world.world p = f.img p := by
  refine channel_serves boundedDisk_lawful boundedDisk_whole (fun q c hc => by cases hc) true
    zeroBuf ⟨⟨by decide, by decide⟩, ⟨by decide, by decide⟩, ?_, trivial, trivial⟩
  show place 2048 0 + span 2048 1 < 2 ^ 63
  decide

end Ext
end Usbrw
