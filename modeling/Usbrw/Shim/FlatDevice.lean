import Usbrw.Base.Service
import Usbrw.Block.ReadYourWrites
import Usbrw.Shim.Stack

/-!
# Shim.FlatDevice

The whole device: the alignment shim over the callbacks of an `NTFSBlockDevice`, over a block
resource with a buffer cache. Runs of `fskit_pread`, `fskit_pwrite` and `fskit_sync` are served as by
a device that is its bytes, as long as no call of a callback passes the cache by where the two
differ.

* `deviceStep`, `made` — one operation, and the calls it makes.
* `FlatDevice`         — what a device that is its bytes answers.
* `deviceStep_flat`    — callbacks that stand for an image answer so.
* `blockio_mirrors`    — those of the block device stand for what its clients stored.
* `device_serves`      — runs of the whole.
-/

namespace Usbrw
namespace Shim

open Block Region Run Service

variable {σ : Type}

inductive DeviceOp where
  | pread (count offset : Int64)
  | pwrite (src : List UInt8) (count offset : Int64)
  | sync

inductive DeviceReply where
  | read (r : Ret) (out : List UInt8)
  | write (r : Ret)
  | sync (rc : Int)

def deviceStep (io : NfskBlockio σ) (s : σ) : DeviceOp → σ × DeviceReply
  | .pread count offset =>
    match fskitPread io s count offset with
    | (s, r, out) => (s, .read r out)
  | .pwrite src count offset =>
    match fskitPwrite io s src count offset with
    | (s, r) => (s, .write r)
  | .sync =>
    match fskitSync io s with
    | (s, rc) => (s, .sync rc)

/-- The calls that an operation makes, each with the state it is made in. -/
def made (io : NfskBlockio σ) (s : σ) (op : DeviceOp) : List (σ × Call) :=
  (deviceStep (noted io) (s, []) op).1.2

/-- The bytes an operation is about end before the position 2^63, and there are as many of them as
it says. -/
def InRange (b : UInt32) (n : UInt64) : DeviceOp → Prop
  | .pread count offset =>
    offset.toNatClampNeg + served b n offset.toNatClampNeg count.toNatClampNeg ≤ 2 ^ 63
  | .pwrite src count offset =>
    offset.toNatClampNeg + served b n offset.toNatClampNeg count.toNatClampNeg ≤ 2 ^ 63 ∧
      count.toNatClampNeg ≤ src.length
  | .sync => True

/-- What a device with the bytes `img` answers. A transfer is cut at the end of the device, and one
that fails on the way may have stored the beginning of what it was given. -/
inductive FlatDevice (readonly : Bool) (b : UInt32) (n : UInt64) :
    Contract (Nat → UInt8) DeviceOp DeviceReply where
  | read {img : Nat → UInt8} {count offset : Int64} (hc : 0 ≤ count) (ho : 0 ≤ offset) :
    FlatDevice readonly b n img (.pread count offset)
      (.read (.done (.ofNat (served b n offset.toNatClampNeg count.toNatClampNeg)))
        (slice img offset.toNatClampNeg (served b n offset.toNatClampNeg count.toNatClampNeg))) img
  | readFailed {img : Nat → UInt8} {count offset : Int64} (hc : 0 ≤ count) (ho : 0 ≤ offset)
    (e : Int) : FlatDevice readonly b n img (.pread count offset) (.read (.fail e) []) img
  | readRefused {img : Nat → UInt8} {count offset : Int64} (h : count < 0 ∨ offset < 0) :
    FlatDevice readonly b n img (.pread count offset) (.read (.fail EINVAL) []) img
  | write {img : Nat → UInt8} {src : List UInt8} {count offset : Int64} (hc : 0 ≤ count)
    (ho : 0 ≤ offset) (hrw : readonly = false ∨ count = 0) :
    FlatDevice readonly b n img (.pwrite src count offset)
      (.write (.done (.ofNat (served b n offset.toNatClampNeg count.toNatClampNeg))))
      (overwrite img offset.toNatClampNeg
        (src.take (served b n offset.toNatClampNeg count.toNatClampNeg)))
  | writeFailed {img : Nat → UInt8} {src : List UInt8} {count offset : Int64} (hc : 0 < count)
    (ho : 0 ≤ offset) (hrw : readonly = false) (e : Int) {k : Nat} (hk : k ≤ src.length) :
    FlatDevice readonly b n img (.pwrite src count offset) (.write (.fail e))
      (overwrite img offset.toNatClampNeg (src.take k))
  | writeProtected {img : Nat → UInt8} {src : List UInt8} {count offset : Int64} (hc : 0 < count)
    (ho : 0 ≤ offset) (hro : readonly = true) :
    FlatDevice readonly b n img (.pwrite src count offset) (.write (.fail EROFS)) img
  | writeRefused {img : Nat → UInt8} {src : List UInt8} {count offset : Int64}
    (h : count < 0 ∨ offset < 0) :
    FlatDevice readonly b n img (.pwrite src count offset) (.write (.fail EINVAL)) img
  | sync {img : Nat → UInt8} (rc : Int) : FlatDevice readonly b n img .sync (.sync rc) img

section Steps

variable {io : NfskBlockio σ} {I : σ → (Nat → UInt8) → Prop} {met : σ → Call → Prop}
  {s : σ} {img : Nat → UInt8} {count offset : Int64}

theorem isNone_of_isSome {α : Type} {o : Option α} (h : o.isSome) : ¬ o.isNone = true := by
  rw [Option.isNone_iff_eq_none]
  exact Option.isSome_iff_ne_none.mp h

theorem noted_read_isSome (hread : io.read.isSome) : (noted io).read.isSome := by
  simpa [noted] using hread

/-- Where a request ends on the device. -/
abbrev requestEnd (io : NfskBlockio σ) (count offset : Int64) : UInt64 :=
  nfskClampEnd io (nfskAlignQuantum io) offset.toUInt64 (offset.toUInt64 + count.toUInt64)

theorem preadBody_noted :
    preadBody (noted io) (nfskAlignQuantum (noted io)) offset.toUInt64
      (requestEnd (noted io) count offset) (s, []) =
    preadBody (noted io) (nfskAlignQuantum io) offset.toUInt64 (requestEnd io count offset)
      (s, []) := rfl

theorem pwriteBody_noted {write : σ → UInt64 → UInt64 → List UInt8 → σ × Int}
    {src : List UInt8} :
    pwriteBody (noted io) (noteWrite write) (nfskAlignQuantum (noted io))
      (requestEnd (noted io) count offset) offset.toUInt64 src (s, []) =
    pwriteBody (noted io) (noteWrite write) (nfskAlignQuantum io) (requestEnd io count offset)
      offset.toUInt64 src (s, []) := rfl

theorem requestEnd_toNat (hb : LegalBlockSize io.blockSize)
    (hcap : io.blockCount.toNat * quantumOf io.blockSize < 2 ^ 64) (hc : 0 ≤ count)
    (ho : 0 ≤ offset) :
    (requestEnd io count offset).toNat = offset.toNatClampNeg +
      served io.blockSize io.blockCount offset.toNatClampNeg count.toNatClampNeg := by
  have h1 := offset.toNatClampNeg_lt
  have h2 := count.toNatClampNeg_lt
  have ho' := Int64.toNat_toUInt64_of_le ho
  have hc' := Int64.toNat_toUInt64_of_le hc
  rw [clampEnd_toNat hb hcap (by omega), ho', hc']

theorem requestEnd_sub (hb : LegalBlockSize io.blockSize)
    (hcap : io.blockCount.toNat * quantumOf io.blockSize < 2 ^ 64) (hc : 0 ≤ count)
    (ho : 0 ≤ offset) :
    requestEnd io count offset - offset.toUInt64 =
      .ofNat (served io.blockSize io.blockCount offset.toNatClampNeg count.toNatClampNeg) := by
  have hstop := requestEnd_toNat hb hcap hc ho
  have ho' := Int64.toNat_toUInt64_of_le ho
  have hserved := served_le io.blockSize io.blockCount offset.toNatClampNeg count.toNatClampNeg
  have hcount := count.toNatClampNeg_lt
  apply UInt64.toNat_inj.mp
  rw [toNat_stop_sub (by omega), UInt64.toNat_ofNat', Nat.mod_eq_of_lt (by omega)]
  omega

theorem fskitPread_flat (hM : Mirrors io I met) (hread : io.read.isSome)
    (hb : LegalBlockSize io.blockSize)
    (hcap : io.blockCount.toNat * quantumOf io.blockSize < 2 ^ 64) (hI : I s img)
    (hin : InRange io.blockSize io.blockCount (.pread count offset))
    (hmet : ∀ e ∈ (fskitPread (noted io) (s, []) count offset).1.2, met e.1 e.2) :
    FlatDevice io.readonly io.blockSize io.blockCount img (.pread count offset)
      (.read (fskitPread io s count offset).2.1 (fskitPread io s count offset).2.2) img ∧
      I (fskitPread io s count offset).1 img := by
  unfold fskitPread at hmet ⊢
  rw [if_neg (isNone_of_isSome hread)]
  rw [if_neg (isNone_of_isSome (noted_read_isSome hread))] at hmet
  by_cases hneg : count < 0 ∨ offset < 0
  · rw [if_pos hneg]
    exact ⟨.readRefused hneg, hI⟩
  · rw [if_neg hneg] at hmet ⊢
    have hc : 0 ≤ count := Int64.not_lt.mp fun h => hneg (.inl h)
    have ho : 0 ≤ offset := Int64.not_lt.mp fun h => hneg (.inr h)
    have hread0 := @FlatDevice.read io.readonly io.blockSize io.blockCount img _ _ hc ho
    have hsub := requestEnd_sub hb hcap hc ho
    have hstop := requestEnd_toNat hb hcap hc ho
    have ho' := Int64.toNat_toUInt64_of_le ho
    by_cases hz : count = 0
    · subst hz
      rw [if_pos rfl]
      have hzero : served io.blockSize io.blockCount offset.toNatClampNeg
          (0 : Int64).toNatClampNeg = 0 := Nat.le_zero.mp (served_le _ _ _ _)
      rw [hzero] at hread0
      exact ⟨hread0, hI⟩
    · rw [if_neg hz] at hmet ⊢
      by_cases hle : requestEnd io count offset ≤ offset.toUInt64
      · rw [if_pos hle]
        have hle' := UInt64.le_iff_toNat_le.mp hle
        have hzero : served io.blockSize io.blockCount offset.toNatClampNeg
            count.toNatClampNeg = 0 := by omega
        rw [hzero] at hread0
        exact ⟨hread0, hI⟩
      · have hle' : ¬ requestEnd (noted io) count offset ≤ offset.toUInt64 := hle
        rw [if_neg hle]
        rw [if_neg hle'] at hmet
        obtain ⟨new, hnoted, hend⟩ := preadBody_follows (l := []) hM hread
          (alignQuantum_isPow2 hb) (Nat.le_trans (Nat.le_of_eq hstop) hin) (UInt64.not_le.mp hle) s
        rw [preadBody_noted, hnoted] at hmet
        cases hrun : preadBody io (nfskAlignQuantum io) offset.toUInt64
            (requestEnd io count offset) s with
        | mk s' res =>
          rw [hrun] at hmet hend
          cases res with
          | error rc => exact ⟨.readFailed hc ho _, hend hI hmet⟩
          | ok c =>
            obtain ⟨hcopied, hcur⟩ := hend hI hmet
            refine ⟨?_, hcopied.image⟩
            have hout := hcopied.out
            rw [hcur, ho', hstop, Nat.add_sub_cancel_left] at hout
            rw [← hsub, ← hout] at hread0
            exact hread0

theorem fskitPwrite_flat {src : List UInt8} (hM : Mirrors io I met) (hread : io.read.isSome)
    (hwrite : io.write.isSome) (hb : LegalBlockSize io.blockSize)
    (hcap : io.blockCount.toNat * quantumOf io.blockSize < 2 ^ 64) (hI : I s img)
    (hin : InRange io.blockSize io.blockCount (.pwrite src count offset))
    (hmet : ∀ e ∈ (fskitPwrite (noted io) (s, []) src count offset).1.2, met e.1 e.2) :
    ∃ img', FlatDevice io.readonly io.blockSize io.blockCount img (.pwrite src count offset)
      (.write (fskitPwrite io s src count offset).2) img' ∧
      I (fskitPwrite io s src count offset).1 img' := by
  obtain ⟨write, hw⟩ := Option.isSome_iff_exists.mp hwrite
  unfold fskitPwrite at hmet ⊢
  simp only [hw, noted_write hw] at hmet ⊢
  by_cases hneg : count < 0 ∨ offset < 0
  · rw [if_pos hneg]
    exact ⟨img, .writeRefused hneg, hI⟩
  · rw [if_neg hneg] at hmet ⊢
    have hc : 0 ≤ count := Int64.not_lt.mp fun h => hneg (.inl h)
    have ho : 0 ≤ offset := Int64.not_lt.mp fun h => hneg (.inr h)
    have hsub := requestEnd_sub hb hcap hc ho
    have hstop := requestEnd_toNat hb hcap hc ho
    have ho' := Int64.toNat_toUInt64_of_le ho
    have hwrite0 := @FlatDevice.write io.readonly io.blockSize io.blockCount img src _ _ hc ho
    by_cases hz : count = 0
    · subst hz
      rw [if_pos rfl]
      have hzero : served io.blockSize io.blockCount offset.toNatClampNeg
          (0 : Int64).toNatClampNeg = 0 := Nat.le_zero.mp (served_le _ _ _ _)
      have h := hwrite0 (.inr rfl)
      rw [hzero, List.take_zero, overwrite_nil] at h
      exact ⟨img, h, hI⟩
    · rw [if_neg hz] at hmet ⊢
      have hpos : 0 < count := Int64.lt_of_le_of_ne hc fun h => hz h.symm
      by_cases hro : io.readonly = true
      · rw [if_pos hro]
        exact ⟨img, .writeProtected hpos ho hro, hI⟩
      · have hro' : ¬ (noted io).readonly = true := hro
        have hrw : io.readonly = false := Bool.eq_false_iff.mpr hro
        rw [if_neg hro]
        rw [if_neg hro'] at hmet
        by_cases hle : requestEnd io count offset ≤ offset.toUInt64
        · rw [if_pos hle]
          have hle' := UInt64.le_iff_toNat_le.mp hle
          have hzero : served io.blockSize io.blockCount offset.toNatClampNeg
              count.toNatClampNeg = 0 := by omega
          have h := hwrite0 (.inl hrw)
          rw [hzero, List.take_zero, overwrite_nil] at h
          exact ⟨img, h, hI⟩
        · have hle' : ¬ requestEnd (noted io) count offset ≤ offset.toUInt64 := hle
          rw [if_neg hle]
          rw [if_neg hle'] at hmet
          have hserved := served_le io.blockSize io.blockCount offset.toNatClampNeg
            count.toNatClampNeg
          have hlen := hin.2
          obtain ⟨new, hnoted, hend⟩ := pwriteBody_follows (l := []) src hM hread hw
            (alignQuantum_isPow2 hb) (Nat.le_trans (Nat.le_of_eq hstop) hin.1) (UInt64.not_le.mp hle) (by omega) s
          rw [pwriteBody_noted, hnoted] at hmet
          cases hrun : pwriteBody io write (nfskAlignQuantum io) (requestEnd io count offset)
              offset.toUInt64 src s with
          | mk s' res =>
            rw [hrun] at hmet hend
            cases res with
            | error rc =>
              obtain ⟨k, hk, himg⟩ := hend hI hmet
              rw [ho'] at himg
              exact ⟨_, .writeFailed hpos ho hrw _ hk, himg⟩
            | ok c =>
              obtain ⟨hsaved, hcur⟩ := hend hI hmet
              have h := hwrite0 (.inl hrw)
              have himg := hsaved.image
              rw [hcur, ho', hstop, Nat.add_sub_cancel_left] at himg
              rw [← hsub] at h
              exact ⟨_, h, himg⟩

/-- One operation on callbacks that stand for `img`, all of whose calls meet their condition. -/
theorem deviceStep_flat (hM : Mirrors io I met) (hread : io.read.isSome)
    (hwrite : io.write.isSome) (hsync : ∀ s img, I s img → I (fskitSync io s).1 img)
    (hb : LegalBlockSize io.blockSize)
    (hcap : io.blockCount.toNat * quantumOf io.blockSize < 2 ^ 64) (hI : I s img) {op : DeviceOp}
    (hin : InRange io.blockSize io.blockCount op) (hmet : ∀ e ∈ made io s op, met e.1 e.2) :
    ∃ img', FlatDevice io.readonly io.blockSize io.blockCount img op (deviceStep io s op).2 img' ∧
      I (deviceStep io s op).1 img' := by
  cases op with
  | pread count offset => exact ⟨img, fskitPread_flat hM hread hb hcap hI hin hmet⟩
  | pwrite src count offset => exact fskitPwrite_flat hM hread hwrite hb hcap hI hin hmet
  | sync => exact ⟨img, .sync _, hsync s img hI⟩

end Steps

/-! ## The callbacks of the block device -/

section Block

def Call.len : Call → UInt64
  | .read _ len => len
  | .write _ len _ => len

/-- No call goes past a cached byte that says otherwise. -/
def NotPast (br : BlockResource σ) (v : View σ) (d : NTFSBlockDevice σ) : Call → Prop
  | .read off len => MeetsRead br v d off.toInt64 len.toNat
  | .write off len src => MeetsWrite br v d off.toInt64 (src.take len.toNat)

/-- Every slot of the resource stands for its byte of `img`. -/
def StandsFor (v : View σ) (d : NTFSBlockDevice σ) (img : Nat → UInt8) : Prop :=
  ∃ stored, Coherent v d.resource stored ∧ ∀ p : Nat, stored p = img p

variable {br : BlockResource σ} {v : View σ} {readonly : Bool} {b : UInt32} {n : UInt64}
  {stored : Int → UInt8} {img : Nat → UInt8} {off : UInt64} {bs : List UInt8}

theorem lawful_some (hR : Lawful br v) : ∀ br' ∈ some br, Lawful br' v :=
  fun _ h => Option.some.inj h ▸ hR

theorem slice_of_carries (hoff : off.toNat < 2 ^ 63) (h : Carries stored off.toInt64.toInt bs)
    (himg : ∀ p : Nat, stored p = img p) : bs = slice img off.toNat bs.length := by
  rw [toInt_toInt64 hoff] at h
  apply List.ext_getElem?
  intro i
  by_cases hi : i < bs.length
  · rw [getElem?_slice hi, ← himg]
    have hcell : cellAt bs off.toNat ((off.toNat + i : Nat) : Int) = some bs[i] := by
      rw [cellAt, if_pos (by omega), List.getElem?_eq_some_iff.mpr]
      exact ⟨by omega, by congr 1; omega⟩
    rw [h _ _ hcell, List.getElem?_eq_getElem hi]
  · rw [List.getElem?_eq_none (by omega), List.getElem?_eq_none (by rw [length_slice]; omega)]

theorem store_overwrite (hoff : off.toNat < 2 ^ 63) (himg : ∀ p : Nat, stored p = img p) (p : Nat) :
    store stored off.toInt64.toInt bs p = overwrite img off.toNat bs p := by
  rw [toInt_toInt64 hoff, store, cellAt, overwrite, himg]
  by_cases hp : off.toNat ≤ p
  · rw [if_pos (by omega), if_pos hp, show ((p : Int) - off.toNat).toNat = p - off.toNat by omega]
  · rw [if_neg (by omega), if_neg hp]
    rfl

/-- Whatever geometry they are handed over with, the callbacks over a lawful resource stand for what
their clients stored, as long as no call goes past the cache. -/
theorem blockio_mirrors (hR : Lawful br v) :
    Mirrors (blockio (some br) readonly b n) (StandsFor v) (NotPast br v) where
  read := by
    rintro d off len img hoff hmet ⟨stored, hcoherent, himg⟩
    obtain ⟨hdelivers, hkeeps⟩ := step_delivers (lawful_some hR) ⟨d, stored⟩
      (.pread off.toInt64 len.toNat) hcoherent (fun _ h => Option.some.inj h ▸ hmet)
    refine ⟨⟨stored, hkeeps, himg⟩, fun h0 => ?_⟩
    obtain ⟨hlen, hcarries⟩ := hdelivers h0
    have hslice := slice_of_carries hoff hcarries himg
    rwa [hlen] at hslice
  write := by
    rintro write d off len src img hw hoff hmet ⟨stored, hcoherent, himg⟩
    cases hw
    have hkeeps := (step_delivers (lawful_some hR) ⟨d, stored⟩
      (.pwrite off.toInt64 (src.take len.toNat)) hcoherent
      (fun _ h => Option.some.inj h ▸ hmet)).2
    refine ⟨_, hkeeps, fun p => ?_⟩
    simp only [step, expected]
    split
    · exact store_overwrite hoff himg p
    · exact himg p

theorem blockio_sync (hR : Lawful br v) {d : NTFSBlockDevice σ} (h : StandsFor v d img) :
    StandsFor v (fskitSync (blockio (some br) readonly b n) d).1 img := by
  obtain ⟨stored, hcoherent, himg⟩ := h
  exact ⟨stored, Coherent.sync (lawful_some hR) hcoherent, himg⟩

theorem StandsFor.seen {d : NTFSBlockDevice σ} (h : StandsFor v d img) (p : Nat) :
    v.seen d.resource p = img p := by
  obtain ⟨stored, hcoherent, himg⟩ := h
  rw [hcoherent.seen, himg]

end Block

/-- From a resource no one has written to, operations none of whose calls goes past the cache are
answered as by a device that is its bytes, which are in the end those the cache and the device
hold. -/
theorem device_serves {br : BlockResource σ} {v : View σ} (hR : Lawful br v) (readonly : Bool)
    {b : UInt32} {n : UInt64} (hb : LegalBlockSize b) (hcap : n.toNat * quantumOf b < 2 ^ 64)
    {s : σ} (hs : Unwritten v s) {ops : List DeviceOp}
    (hops : Along (fun d op => (deviceStep (blockio (some br) readonly b n) d op).1)
      (fun d op => InRange b n op ∧
        ∀ e ∈ made (blockio (some br) readonly b n) d op, NotPast br v e.1 e.2) ⟨s, false⟩ ops) :
    let io := blockio (some br) readonly b n
    ∃ img, Serves (FlatDevice readonly b n) (fun p => v.device s p)
        (history (deviceStep io) ⟨s, false⟩ ops) img ∧
      ∀ p : Nat, v.seen (after (deviceStep io) ⟨s, false⟩ ops).resource p = img p := by
  intro io
  have hstart : StandsFor v ⟨s, false⟩ fun p => v.device s p := ⟨v.device s, hs, fun _ => rfl⟩
  obtain ⟨img, hserves, himg⟩ := serves_of_simulation
    (S := FlatDevice readonly b n) (R := StandsFor v)
    (fun d img op h hok => deviceStep_flat (blockio_mirrors hR) rfl rfl
      (fun _ _ h => blockio_sync hR h) hb hcap h hok.1 hok.2) hstart hops
  exact ⟨img, hserves, himg.seen⟩

/-- Calls shorter than `metadataCutover` do not go past the cache of the buffered disk. -/
theorem bufferedDisk_notPast {l : List (NTFSBlockDevice (Int → Slot) × Call)}
    (h : l.all (fun e => e.2.len.toNat < metadataCutover) = true) :
    ∀ e ∈ l, NotPast bufferedDisk slots e.1 e.2 := by
  rintro ⟨d, c⟩ he
  have hlt := of_decide_eq_true (List.all_eq_true.mp h _ he)
  cases c with
  | read off len => exact .inl ⟨hlt, _, _, rfl⟩
  | write off len src =>
    have hlen : (src.take len.toNat).length < metadataCutover :=
      Nat.lt_of_le_of_lt (List.length_take_le ..) hlt
    exact .inl ⟨hlen, _, rfl⟩

/-- Five bytes stored in the middle of a block, synced and read back with the rest of the block. -/
theorem device_serves_middle :
    ∃ img, Serves (FlatDevice false 512 8) (fun p => slots.device zeros p)
        (history (deviceStep (blockio (some bufferedDisk) false 512 8)) ⟨zeros, false⟩
          [.pwrite [1, 2, 3, 4, 5] 5 3, .sync, .pread 10 0]) img ∧
      ∀ p : Nat, slots.seen (after (deviceStep (blockio (some bufferedDisk) false 512 8))
        ⟨zeros, false⟩ [.pwrite [1, 2, 3, 4, 5] 5 3, .sync, .pread 10 0]).resource p = img p := by
  have hread : InRange 512 8 (.pread 10 0) := by
    unfold InRange
    decide
  have hwrite : InRange 512 8 (.pwrite [1, 2, 3, 4, 5] 5 3) := by
    unfold InRange
    decide
  refine device_serves bufferedDisk_lawful false (Or.inr ⟨⟨9, rfl⟩, by decide, by decide⟩)
    (by decide) (s := zeros) (fun p => rfl)
    ⟨⟨hwrite, ?_⟩, ⟨trivial, nofun⟩, ⟨hread, ?_⟩, trivial⟩
  · exact bufferedDisk_notPast (by decide +kernel)
  · exact bufferedDisk_notPast (by decide +kernel)

end Shim
end Usbrw
