import Usbrw.Ext.Channel
import Usbrw.Ext.Loader

/-!
# Ext.Complete

How much of a block request was transferred when it is reported to have succeeded.

* `Moved`    — a request that reached the resource: its length, and how many bytes were transferred.
* `counted`  — a resource that keeps a log of them.
* `BlkCall`  — a call of `ext_io_read_blk64` or `ext_io_write_blk64`, with a `count` of either sign.
* `complete_iff` — a call that returns 0 has transferred all exactly if one of its requests throws or
  none is cut short: `BlockIOHolder` drops the number of bytes.
-/

namespace Usbrw
namespace Ext

open Block Shim

variable {ι σ : Type}

/-- `moved` is none if the resource threw. -/
structure Moved where
  requested : Nat
  moved : Option Nat
  deriving DecidableEq

/-- The resource with a log of its plain transfers, the only ones that reach it. -/
def counted (d : FSBlockDevice σ) : FSBlockDevice (σ × List Moved) where
  metadataRead := fun t off len =>
    match d.metadataRead t.1 off len with
    | (s, r) => ((s, t.2), r)
  delayedMetadataWrite := fun t off bytes =>
    match d.delayedMetadataWrite t.1 off bytes with
    | (s, r) => ((s, t.2), r)
  read := fun t off len =>
    match d.read t.1 off len with
    | (s, .ok bs) => ((s, t.2 ++ [⟨len, some bs.length⟩]), .ok bs)
    | (s, .error e) => ((s, t.2 ++ [⟨len, none⟩]), .error e)
  write := fun t off bytes =>
    match d.write t.1 off bytes with
    | (s, .ok n) => ((s, t.2 ++ [⟨bytes.length, some n⟩]), .ok n)
    | (s, .error e) => ((s, t.2 ++ [⟨bytes.length, none⟩]), .error e)
  metadataFlush := d.metadataFlush.map fun flush t =>
    match flush t.1 with
    | (s, r) => ((s, t.2), r)
  blockSize := d.blockSize
  blockCount := d.blockCount
  isWritable := d.isWritable

abbrev CountedHolder (ι σ : Type) : Type := BlockIOHolder ι (σ × List Moved)

/-- The channel of the volume on the resource `b`. -/
def countedChannel (res : ι → FSBlockDevice σ) (b : ι) (writable : Bool) (bs : UInt32) :
    IoChannel (CountedHolder ι σ) :=
  ⟨loaderIo (fun i => counted (res i)) b writable, bs⟩

inductive BlkCall where
  | read (block : UInt64) (count : Int)
  | write (block : UInt64) (count : Int) (data : List UInt8)

/-- The state after the call, and whether it returns 0. -/
def BlkCall.run {τ : Type} (ch : IoChannel τ) (s : τ) (g : ByteBuf) : BlkCall → τ × Bool
  | read block count =>
    match extIoReadBlk64 ch s g block count with
    | (s, _, r) => (s, r.isOk)
  | write block count data =>
    match extIoWriteBlk64 ch s g block count data with
    | (s, _, r) => (s, r.isOk)

/-- Every request was transferred in full. -/
def Whole (l : List Moved) : Prop := ∀ t ∈ l, t.moved = some t.requested

def Threw (l : List Moved) : Prop := ∃ t ∈ l, t.moved = none

/-! ## What a call reports -/

/-- The requests between two states are reported to have succeeded when none of them threw. -/
def Answers (h h' : CountedHolder ι σ) (ok : Bool) : Prop :=
  h'.block = h.block ∧ ∃ l, h'.world.2 = h.world.2 ++ l ∧ (ok = true ↔ ¬ Threw l)

section Answers

variable {h h₁ h₂ : CountedHolder ι σ} {ok : Bool}

theorem Answers.refl (h : CountedHolder ι σ) : Answers h h true :=
  ⟨rfl, [], by simp, by simp [Threw]⟩

theorem Answers.trans (hfirst : Answers h h₁ true) (hrest : Answers h₁ h₂ ok) :
    Answers h h₂ ok := by
  obtain ⟨hb₁, l₁, hl₁, hok₁⟩ := hfirst
  obtain ⟨hb₂, l₂, hl₂, hok₂⟩ := hrest
  have hno : ¬ Threw l₁ := hok₁.mp rfl
  refine ⟨hb₂.trans hb₁, l₁ ++ l₂, by rw [hl₂, hl₁, List.append_assoc], hok₂.trans ?_⟩
  refine not_congr ⟨?_, ?_⟩
  · rintro ⟨t, ht, hm⟩
    exact ⟨t, List.mem_append_right l₁ ht, hm⟩
  · rintro ⟨t, ht, hm⟩
    rcases List.mem_append.mp ht with ht | ht
    · exact absurd ⟨t, ht, hm⟩ hno
    · exact ⟨t, ht, hm⟩

/-- A single request. -/
theorem Answers.one {t : Moved} (hb : h₁.block = h.block) (hlog : h₁.world.2 = h.world.2 ++ [t])
    (hok : ok = true ↔ t.moved ≠ none) : Answers h h₁ ok :=
  ⟨hb, [t], hlog, by rw [hok]; simp [Threw]⟩

/-- It is reported by what the callback returned. -/
theorem Answers.checked {α ε : Type} {t : Moved} {rc : Int} {e : ε} {a : α}
    (hb : h₁.block = h.block) (hlog : h₁.world.2 = h.world.2 ++ [t])
    (hrc : rc = 0 ↔ t.moved ≠ none) :
    Answers h (if rc ≠ 0 then (h₁, (.error e : Except ε α)) else (h₁, .ok a)).1
      (if rc ≠ 0 then (h₁, (.error e : Except ε α)) else (h₁, .ok a)).2.isOk := by
  by_cases h0 : rc = 0
  · rw [if_neg (not_not.mpr h0)]
    exact Answers.one hb hlog (iff_of_true rfl (hrc.mp h0))
  · rw [if_pos h0]
    exact Answers.one hb hlog (iff_of_false Bool.false_ne_true (mt hrc.mpr h0))

end Answers

/-! A callback answers 0 when its request did not throw. -/

section Callbacks

variable (res : ι → FSBlockDevice σ) (i : ι) (w : σ × List Moved)

theorem BlockIOHolder.read_counted (off len : UInt64) :
    ∃ s' m rc data, BlockIOHolder.read (fun i => counted (res i)) ⟨some i, w⟩ off len =
      (⟨some i, s', w.2 ++ [⟨len.toNat, m⟩]⟩, rc, data) ∧ (rc = 0 ↔ m ≠ none) := by
  simp only [BlockIOHolder.read, counted]
  rcases (res i).read w.1 off.toInt64 len.toNat with ⟨s', e | data⟩
  · exact ⟨s', none, _, _, rfl, by simp [ EIO]⟩
  · exact ⟨s', some data.length, _, _, rfl, by simp⟩

theorem BlockIOHolder.write_counted (off len : UInt64) (buf : List UInt8) :
    ∃ s' m rc, BlockIOHolder.write (fun i => counted (res i)) ⟨some i, w⟩ off len buf =
      (⟨some i, s', w.2 ++ [⟨(buf.take len.toNat).length, m⟩]⟩, rc) ∧ (rc = 0 ↔ m ≠ none) := by
  simp only [BlockIOHolder.write, counted]
  rcases (res i).write w.1 off.toInt64 (buf.take len.toNat) with ⟨s', e | n⟩
  · exact ⟨s', none, _, rfl, by simp [ EIO]⟩
  · exact ⟨s', some n, _, rfl, by simp⟩

end Callbacks

section Calls

variable (res : ι → FSBlockDevice σ) (b : ι) (writable : Bool) (bs : UInt32) {i : ι}
  {h : CountedHolder ι σ}

theorem readBlocks_answers (hb : h.block = some i) (block : UInt64) (count : Nat) :
    Answers h (readBlocks (countedChannel res b writable bs) h block count).1
      (readBlocks (countedChannel res b writable bs) h block count).2.isOk := by
  obtain ⟨_, w⟩ := h
  cases hb
  obtain ⟨s', m, rc, data, hr, hrc⟩ := BlockIOHolder.read_counted res i w (block * bs.toUInt64)
    (UInt64.ofNat count * bs.toUInt64)
  simp only [readBlocks, countedChannel, loaderIo, hr]
  exact Answers.checked rfl rfl hrc

theorem writeBlocks_answers (hb : h.block = some i) (block : UInt64) (count : Nat)
    (data : List UInt8) :
    Answers h (writeBlocks (countedChannel res b true bs) h block count data).1
      (writeBlocks (countedChannel res b true bs) h block count data).2.isOk := by
  obtain ⟨_, w⟩ := h
  cases hb
  obtain ⟨s', m, rc, hr, hrc⟩ := BlockIOHolder.write_counted res i w (block * bs.toUInt64)
    (UInt64.ofNat count * bs.toUInt64) data
  simp only [writeBlocks, countedChannel, loaderIo, hr, Bool.not_true, Bool.false_eq_true, if_false]
  exact Answers.checked rfl rfl hrc

/-- Each pass reads a block; the loop goes on while it is told that it has. -/
theorem readByteLoop_answers (hb : h.block = some i) (passes : Nat) (g : ByteBuf)
    (offset : UInt64) (left : Nat) (out : List UInt8) :
    Answers h (readByteLoop (countedChannel res b writable bs) passes h g offset left out).1
      (readByteLoop (countedChannel res b writable bs) passes h g offset left out).2.2.isOk := by
  induction passes generalizing h g offset left out with
  | zero => exact Answers.refl h
  | succ passes ih =>
    rw [readByteLoop]
    by_cases hleft : left = 0
    · rw [if_pos hleft]
      exact Answers.refl h
    rw [if_neg hleft]
    have hread := readBlocks_answers res b writable bs hb
      (offset / (countedChannel res b writable bs).blockSize.toUInt64) 1
    simp only
    cases hr : readBlocks (countedChannel res b writable bs) h
        (offset / (countedChannel res b writable bs).blockSize.toUInt64) 1 with
    | mk h₁ r =>
      rw [hr] at hread
      cases r with
      | error e => exact hread
      | ok data => exact hread.trans (ih (hread.1.trans hb) _ _ _ _)

theorem writeByteLoop_answers (hb : h.block = some i) (passes : Nat) (g : ByteBuf)
    (offset : UInt64) (data : List UInt8) :
    Answers h (writeByteLoop (countedChannel res b true bs) passes h g offset data).1
      (writeByteLoop (countedChannel res b true bs) passes h g offset data).2.2.isOk := by
  induction passes generalizing h g offset data with
  | zero => exact Answers.refl h
  | succ passes ih =>
    rw [writeByteLoop]
    by_cases hdata : data.length = 0
    · rw [if_pos hdata]
      exact Answers.refl h
    rw [if_neg hdata]
    have hread := readBlocks_answers res b true bs hb
      (offset / (countedChannel res b true bs).blockSize.toUInt64) 1
    simp only
    cases hr : readBlocks (countedChannel res b true bs) h
        (offset / (countedChannel res b true bs).blockSize.toUInt64) 1 with
    | mk h₁ r =>
      rw [hr] at hread
      cases r with
      | error e => exact hread
      | ok old =>
        simp only
        generalize (g.fill old).copyIn _ _ = g₁
        have hb₁ : h₁.block = some i := hread.1.trans hb
        have hwrite := writeBlocks_answers res b bs hb₁
          (offset / (countedChannel res b true bs).blockSize.toUInt64) 1 g₁.bytes
        cases hw : writeBlocks (countedChannel res b true bs) h₁
            (offset / (countedChannel res b true bs).blockSize.toUInt64) 1 g₁.bytes with
        | mk h₂ r₂ =>
          rw [hw] at hwrite
          cases r₂ with
          | error e => exact hread.trans hwrite
          | ok u => exact (hread.trans hwrite).trans (ih (hwrite.1.trans hb₁) _ _ _)

end Calls

/-! Before the first load there is no resource, and no request is made. -/

section NoResource

variable {res : ι → FSBlockDevice σ} {b : ι} {writable : Bool} {bs : UInt32}
  {h : CountedHolder ι σ}

theorem readBlocks_noResource (hb : h.block = none) (block : UInt64) (count : Nat) :
    readBlocks (countedChannel res b writable bs) h block count = (h, .error .eio) := by
  simp [readBlocks, countedChannel, loaderIo, BlockIOHolder.read, hb, ENODEV]

theorem writeBlocks_noResource (hb : h.block = none) (block : UInt64) (count : Nat)
    (data : List UInt8) :
    writeBlocks (countedChannel res b true bs) h block count data = (h, .error .eio) := by
  simp [writeBlocks, countedChannel, loaderIo, BlockIOHolder.write, hb, ENODEV]

theorem readByteLoop_noResource (hb : h.block = none) (passes : Nat) (g : ByteBuf)
    (offset : UInt64) (left : Nat) (out : List UInt8) :
    (readByteLoop (countedChannel res b writable bs) passes h g offset left out).1 = h := by
  cases passes with
  | zero => rfl
  | succ passes =>
    rw [readByteLoop]
    by_cases hleft : left = 0
    · rw [if_pos hleft]
    · simp only [if_neg hleft, readBlocks_noResource hb]

theorem writeByteLoop_noResource (hb : h.block = none) (passes : Nat) (g : ByteBuf)
    (offset : UInt64) (data : List UInt8) :
    (writeByteLoop (countedChannel res b writable bs) passes h g offset data).1 = h := by
  cases passes with
  | zero => rfl
  | succ passes =>
    rw [writeByteLoop]
    by_cases hdata : data.length = 0
    · rw [if_pos hdata]
    · simp only [if_neg hdata, readBlocks_noResource hb]

end NoResource

/-! ## The calls of libext2fs -/

section Run

variable (res : ι → FSBlockDevice σ) (b : ι) (writable : Bool) (bs : UInt32)
  (h : CountedHolder ι σ) (g : ByteBuf)

theorem BlkCall.read_answers (block : UInt64) (count : Int) :
    Answers h (BlkCall.run (countedChannel res b writable bs) h g (.read block count)).1
        (BlkCall.run (countedChannel res b writable bs) h g (.read block count)).2 ∨
      (BlkCall.run (countedChannel res b writable bs) h g (.read block count)).1 = h := by
  simp only [run]
  rw [extIoReadBlk64, if_neg (by simp [countedChannel, loaderIo])]
  cases hb : h.block with
  | none =>
    refine Or.inr ?_
    split
    · exact readByteLoop_noResource hb _ _ _ _ _
    · simp only [readBlocks_noResource hb]
  | some i =>
    refine Or.inl ?_
    split
    · exact readByteLoop_answers res b writable bs hb _ _ _ _ _
    · exact readBlocks_answers res b writable bs hb block count.toNat

theorem BlkCall.write_answers (block : UInt64) (count : Int) (data : List UInt8) :
    Answers h (BlkCall.run (countedChannel res b writable bs) h g (.write block count data)).1
        (BlkCall.run (countedChannel res b writable bs) h g (.write block count data)).2 ∨
      (BlkCall.run (countedChannel res b writable bs) h g (.write block count data)).1 = h := by
  simp only [run]
  rw [extIoWriteBlk64, if_neg (by simp [countedChannel, loaderIo])]
  cases writable with
  | false => exact Or.inr (by simp [countedChannel, loaderIo])
  | true =>
    rw [if_neg (by simp [countedChannel, loaderIo])]
    cases hb : h.block with
    | none =>
      refine Or.inr ?_
      split
      · exact writeByteLoop_noResource hb _ _ _ _
      · simp only [writeBlocks_noResource hb]
    | some i =>
      refine Or.inl ?_
      split
      · exact writeByteLoop_answers res b bs hb _ _ _ _
      · exact writeBlocks_answers res b bs hb block count.toNat data

/-- A call reports success when no request threw, unless it makes no request. -/
theorem BlkCall.run_answers (c : BlkCall) :
    Answers h (c.run (countedChannel res b writable bs) h g).1
        (c.run (countedChannel res b writable bs) h g).2 ∨
      (c.run (countedChannel res b writable bs) h g).1 = h := by
  cases c with
  | read block count => exact BlkCall.read_answers res b writable bs h g block count
  | write block count data => exact BlkCall.write_answers res b writable bs h g block count data

/-- The holder with an empty log. -/
def counting (h : BlockIOHolder ι σ) : CountedHolder ι σ := ⟨h.block, h.world, []⟩

/-- A call that returns 0 has transferred all that it asked for exactly if one of its requests threw,
which makes it fail, or each of them was transferred in full. -/
theorem complete_iff (h : BlockIOHolder ι σ) (c : BlkCall) :
    ((c.run (countedChannel res b writable bs) (counting h) g).2 = true →
        Whole (c.run (countedChannel res b writable bs) (counting h) g).1.world.2) ↔
      Threw (c.run (countedChannel res b writable bs) (counting h) g).1.world.2 ∨
        Whole (c.run (countedChannel res b writable bs) (counting h) g).1.world.2 := by
  rcases BlkCall.run_answers res b writable bs (counting h) g c with ⟨_, l, hl, hok⟩ | hsame
  · have hlog : (c.run (countedChannel res b writable bs) (counting h) g).1.world.2 = l := hl
    rw [hlog, hok]
    by_cases hthrew : Threw l
    · exact iff_of_true (fun hno => absurd hthrew hno) (Or.inl hthrew)
    · constructor
      · exact fun hall => Or.inr (hall hthrew)
      · exact fun hcond _ => hcond.resolve_left hthrew
  · have hnone : Whole (c.run (countedChannel res b writable bs) (counting h) g).1.world.2 := by
      rw [hsame]
      exact List.forall_mem_nil _
    exact iff_of_true (fun _ => hnone) (Or.inr hnone)

end Run

/-- A resource of zeros that transfers 512 bytes at most. -/
def shortDisk : FSBlockDevice Unit where
  metadataRead := fun s _ len => (s, .ok (List.replicate len 0))
  delayedMetadataWrite := fun s _ _ => (s, .ok ())
  read := fun s _ len => (s, .ok (List.replicate (min len 512) 0))
  write := fun s _ bytes => (s, .ok (min bytes.length 512))
  metadataFlush := none
  blockSize := 512
  blockCount := 2048
  isWritable := true

def shortChannel : IoChannel (CountedHolder Unit Unit) :=
  countedChannel (fun _ => shortDisk) () true 1024

/-- Half of a block is transferred, and the call returns 0, for a read and for a write. -/
theorem half_block :
    (∃ h, BlkCall.run shortChannel (counting ⟨some (), ()⟩) zeroBuf (.read 0 1) = (h, true) ∧
      h.world.2 = [⟨1024, some 512⟩] ∧ ¬ Whole h.world.2) ∧
    ∃ h, BlkCall.run shortChannel (counting ⟨some (), ()⟩) zeroBuf
      (.write 0 1 (List.replicate 1024 7)) = (h, true) ∧
      h.world.2 = [⟨1024, some 512⟩] ∧ ¬ Whole h.world.2 := by
  have hnot : ¬ Whole [⟨1024, some 512⟩] := by simp [Whole]
  have hread : BlkCall.run shortChannel (counting ⟨some (), ()⟩) zeroBuf (.read 0 1) =
      (⟨some (), (), [⟨1024, some 512⟩]⟩, true) := by
    simp [-List.reduceReplicate, BlkCall.run, extIoReadBlk64, readBlocks, shortChannel,
      countedChannel, loaderIo, BlockIOHolder.read, counting, counted, shortDisk,
      Except.isOk, Except.toBool]
  have hwrite : BlkCall.run shortChannel (counting ⟨some (), ()⟩) zeroBuf
      (.write 0 1 (List.replicate 1024 7)) = (⟨some (), (), [⟨1024, some 512⟩]⟩, true) := by
    simp [-List.reduceReplicate, BlkCall.run, extIoWriteBlk64, writeBlocks, shortChannel,
      countedChannel, loaderIo, BlockIOHolder.write, counting, counted, shortDisk,
      Except.isOk, Except.toBool]
  exact ⟨⟨_, hread, rfl, hnot⟩, _, hwrite, rfl, hnot⟩

end Ext
end Usbrw
