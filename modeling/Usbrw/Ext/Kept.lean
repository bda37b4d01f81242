import Usbrw.Ext.Channel
import Usbrw.Shim.Kept

/-!
# Ext.Kept

What the callbacks keep, the channel keeps. Of a read-only channel only the reads reach them.
-/

namespace Usbrw
namespace Ext

open Shim

variable {τ : Type} {ch : IoChannel τ} {I : τ → Prop} {s : τ}

theorem readBlocks_kept (hI : ReadsKeep ch.privateData I) (block : UInt64) (count : Nat)
    (h : I s) : I (readBlocks ch s block count).1 := by
  unfold readBlocks
  split
  · exact h
  · rename_i read hread
    have hcall := hI read hread s (block * ch.blockSize.toUInt64)
      (UInt64.ofNat count * ch.blockSize.toUInt64) h
    simp only
    split <;> exact hcall

theorem writeBlocks_kept (hW : ch.privateData.readonly = true ∨ WritesKeep ch.privateData I)
    (block : UInt64) (count : Nat) (data : List UInt8) (h : I s) :
    I (writeBlocks ch s block count data).1 := by
  unfold writeBlocks
  split
  · exact h
  · rename_i write hwrite
    obtain hro | hW := hW
    · rw [if_pos hro]
      exact h
    · have hcall := hW write hwrite s (block * ch.blockSize.toUInt64)
        (UInt64.ofNat count * ch.blockSize.toUInt64) data h
      split
      · exact h
      · simp only
        split <;> exact hcall

theorem readByteLoop_kept (hI : ReadsKeep ch.privateData I) (passes : Nat) (g : ByteBuf)
    (offset : UInt64) (left : Nat) (out : List UInt8) (h : I s) :
    I (readByteLoop ch passes s g offset left out).1 := by
  induction passes generalizing s g offset left out with
  | zero => exact h
  | succ passes ih =>
    have hblock := readBlocks_kept hI (offset / ch.blockSize.toUInt64) 1 h
    simp only [readByteLoop]
    split
    · exact h
    · split <;> rename_i hr <;> rw [hr] at hblock
      · exact hblock
      · exact ih _ _ _ _ hblock

theorem writeByteLoop_kept (hI : ReadsKeep ch.privateData I)
    (hW : ch.privateData.readonly = true ∨ WritesKeep ch.privateData I) (passes : Nat)
    (g : ByteBuf) (offset : UInt64) (data : List UInt8) (h : I s) :
    I (writeByteLoop ch passes s g offset data).1 := by
  induction passes generalizing s g offset data with
  | zero => exact h
  | succ passes ih =>
    have hblock := readBlocks_kept hI (offset / ch.blockSize.toUInt64) 1 h
    simp only [writeByteLoop]
    split
    · exact h
    · split <;> rename_i s₁ r hr <;> rw [hr] at hblock
      · exact hblock
      · have hstored := writeBlocks_kept hW (offset / ch.blockSize.toUInt64) 1
          ((g.fill r).copyIn (offset % ch.blockSize.toUInt64).toNat
            (data.take (inBlock ch offset data.length))).bytes hblock
        split <;> rename_i hw <;> rw [hw] at hstored
        · exact hstored
        · exact ih _ _ _ hstored

theorem extIoReadBlk64_kept (hI : ReadsKeep ch.privateData I) (g : ByteBuf) (block : UInt64)
    (count : Int) (h : I s) : I (extIoReadBlk64 ch s g block count).1 := by
  unfold extIoReadBlk64
  split
  · exact h
  split
  · exact readByteLoop_kept hI _ g _ _ [] h
  · exact readBlocks_kept hI block count.toNat h

theorem extIoWriteByte_kept (hI : ReadsKeep ch.privateData I)
    (hW : ch.privateData.readonly = true ∨ WritesKeep ch.privateData I) (g : ByteBuf)
    (offset : UInt64) (count : Int) (data : List UInt8) (h : I s) :
    I (extIoWriteByte ch s g offset count data).1 :=
  writeByteLoop_kept hI hW _ g offset _ h

theorem extIoWriteBlk64_kept (hI : ReadsKeep ch.privateData I)
    (hW : ch.privateData.readonly = true ∨ WritesKeep ch.privateData I) (g : ByteBuf)
    (block : UInt64) (count : Int) (data : List UInt8) (h : I s) :
    I (extIoWriteBlk64 ch s g block count data).1 := by
  unfold extIoWriteBlk64
  split
  · exact h
  split
  · exact h
  split
  · exact extIoWriteByte_kept hI hW g _ _ data h
  · exact writeBlocks_kept hW block count.toNat data h

end Ext
end Usbrw
