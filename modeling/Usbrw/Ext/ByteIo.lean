import Mathlib.Algebra.Group.Int.Defs
import Usbrw.Ext.Channel

/-!
# Ext.ByteIo

The byte ranges of the channel: what `ext_io_read_byte` and `ext_io_write_byte` do to the device.

* `Serves`      — callbacks on a device with a content, whose calls may fail.
* `ByteChannel` — a channel that may be written to, with blocks that fit in the bounce buffer.
* `ReadByteRuns`, `WriteByteRuns` — the loops come to an end.
* `byteIo_slices` — a read is a slice of the device, a write stores a prefix of the bytes, and a
  negative `count` of the block calls is such a range.
-/

namespace Usbrw
namespace Ext

open Shim Region

variable {τ : Type}

/-- A read that succeeds gives what the device holds, a write that succeeds stores the bytes. A call
that fails leaves the device alone. -/
structure Serves (io : NfskBlockio τ) (image : τ → Nat → UInt8) : Prop where
  keep : ∀ f, io.read = some f → ∀ s off len, image (f s off len).1 = image s
  read : ∀ f, io.read = some f → ∀ s off len, (f s off len).2.1 = 0 →
    (f s off len).2.2 = slice (image s) off.toNat len.toNat
  write : ∀ f, io.write = some f → ∀ s off len buf, len.toNat ≤ buf.length →
    image (f s off len buf).1 =
      if (f s off len buf).2 = 0 then overwrite (image s) off.toNat (buf.take len.toNat)
      else image s

structure ByteChannel (ch : IoChannel τ) (image : τ → Nat → UInt8) : Prop where
  serves : Serves ch.privateData image
  hasRead : ch.privateData.read.isSome
  hasWrite : ch.privateData.write.isSome
  writable : ch.privateData.readonly = false
  pos : 0 < ch.blockSize.toNat
  le : ch.blockSize.toNat ≤ 65536

theorem ByteChannel.reads {ch : IoChannel τ} {image : τ → Nat → UInt8} (h : ByteChannel ch image) :
    ¬ ch.privateData.read.isNone = true := by
  simp [Option.isNone_eq_false_iff.mpr h.hasRead]

theorem ByteChannel.writes {ch : IoChannel τ} {image : τ → Nat → UInt8} (h : ByteChannel ch image) :
    ¬ ch.privateData.write.isNone = true := by
  simp [Option.isNone_eq_false_iff.mpr h.hasWrite]

/-! ## The loops -/

section Runs

variable (ch : IoChannel τ)

/-- The loop of `ext_io_read_byte` ends with `r`. -/
inductive ReadByteRuns : τ → ByteBuf → UInt64 → Nat → List UInt8 →
    τ × ByteBuf × Except IoErrcode (List UInt8) → Prop where
  | done (s g offset out) : ReadByteRuns s g offset 0 out (s, g, .ok out)
  | fail {s g offset left out s' e} (hleft : 0 < left)
    (h : readBlocks ch s (offset / ch.blockSize.toUInt64) 1 = (s', .error e)) :
    ReadByteRuns s g offset left out (s', g, .error e)
  | pass {s g offset left out s' data r} (hleft : 0 < left)
    (h : readBlocks ch s (offset / ch.blockSize.toUInt64) 1 = (s', .ok data))
    (next : ReadByteRuns s' (g.fill data) (offset + UInt64.ofNat (inBlock ch offset left))
      (left - inBlock ch offset left)
      (out ++ ((g.fill data).bytes.drop (offset % ch.blockSize.toUInt64).toNat).take
        (inBlock ch offset left)) r) :
    ReadByteRuns s g offset left out r

/-- The block with the bytes that are to be stored in it. -/
def modified (g : ByteBuf) (old : List UInt8) (offset : UInt64) (data : List UInt8) : ByteBuf :=
  (g.fill old).copyIn (offset % ch.blockSize.toUInt64).toNat
    (data.take (inBlock ch offset data.length))

/-- The loop of `ext_io_write_byte` ends with `r`. -/
inductive WriteByteRuns : τ → ByteBuf → UInt64 → List UInt8 →
    τ × ByteBuf × Except IoErrcode Unit → Prop where
  | done (s g offset) : WriteByteRuns s g offset [] (s, g, .ok ())
  | failRead {s g offset data s' e} (hdata : 0 < data.length)
    (h : readBlocks ch s (offset / ch.blockSize.toUInt64) 1 = (s', .error e)) :
    WriteByteRuns s g offset data (s', g, .error e)
  | failWrite {s g offset data s₁ old s' e} (hdata : 0 < data.length)
    (h : readBlocks ch s (offset / ch.blockSize.toUInt64) 1 = (s₁, .ok old))
    (hw : writeBlocks ch s₁ (offset / ch.blockSize.toUInt64) 1
      (modified ch g old offset data).bytes = (s', .error e)) :
    WriteByteRuns s g offset data (s', modified ch g old offset data, .error e)
  | pass {s g offset data s₁ old s' r} (hdata : 0 < data.length)
    (h : readBlocks ch s (offset / ch.blockSize.toUInt64) 1 = (s₁, .ok old))
    (hw : writeBlocks ch s₁ (offset / ch.blockSize.toUInt64) 1
      (modified ch g old offset data).bytes = (s', .ok ()))
    (next : WriteByteRuns s' (modified ch g old offset data)
      (offset + UInt64.ofNat (inBlock ch offset data.length))
      (data.drop (inBlock ch offset data.length)) r) :
    WriteByteRuns s g offset data r

variable {ch}

/-- A pass takes a byte at least. -/
theorem inBlock_pos (hbs : 0 < ch.blockSize.toNat) {left : Nat} (hleft : 0 < left)
    (offset : UInt64) : 0 < inBlock ch offset left := by
  have hskip : (offset % ch.blockSize.toUInt64).toNat < ch.blockSize.toNat := by
    rw [UInt64.toNat_mod, UInt32.toNat_toUInt64]
    exact Nat.mod_lt _ hbs
  simp only [inBlock]
  omega

theorem inBlock_le (ch : IoChannel τ) (offset : UInt64) (left : Nat) :
    inBlock ch offset left ≤ left := Nat.min_le_right ..

theorem readByteLoop_runs (hbs : 0 < ch.blockSize.toNat) {passes left : Nat}
    (hpasses : left ≤ passes) (s : τ) (g : ByteBuf) (offset : UInt64) (out : List UInt8) :
    ReadByteRuns ch s g offset left out (readByteLoop ch passes s g offset left out) := by
  induction passes generalizing s g offset left out with
  | zero =>
    obtain rfl : left = 0 := by omega
    exact .done s g offset out
  | succ passes ih =>
    by_cases hleft : left = 0
    · subst hleft
      exact .done s g offset out
    have hpos := inBlock_pos hbs (Nat.pos_of_ne_zero hleft) offset
    rw [readByteLoop, if_neg hleft]
    simp only
    cases hr : readBlocks ch s (offset / ch.blockSize.toUInt64) 1 with
    | mk s' r =>
      cases r with
      | error e => exact .fail (Nat.pos_of_ne_zero hleft) hr
      | ok data => exact .pass (Nat.pos_of_ne_zero hleft) hr (ih (by omega) _ _ _ _)

theorem writeByteLoop_runs (hbs : 0 < ch.blockSize.toNat) {passes : Nat} {data : List UInt8}
    (hpasses : data.length ≤ passes) (s : τ) (g : ByteBuf) (offset : UInt64) :
    WriteByteRuns ch s g offset data (writeByteLoop ch passes s g offset data) := by
  induction passes generalizing s g offset data with
  | zero =>
    obtain rfl : data = [] := List.length_eq_zero_iff.mp (by omega)
    exact .done s g offset
  | succ passes ih =>
    by_cases hdata : data.length = 0
    · obtain rfl : data = [] := List.length_eq_zero_iff.mp hdata
      exact .done s g offset
    have hlen := Nat.pos_of_ne_zero hdata
    have hpos := inBlock_pos hbs hlen offset
    rw [writeByteLoop, if_neg hdata]
    simp only
    cases hr : readBlocks ch s (offset / ch.blockSize.toUInt64) 1 with
    | mk s₁ r =>
      cases r with
      | error e => exact .failRead hlen hr
      | ok old =>
        have hmod : (g.fill old).copyIn (offset % ch.blockSize.toUInt64).toNat
            (data.take (inBlock ch offset data.length)) = modified ch g old offset data := rfl
        simp only [hmod]
        cases hw : writeBlocks ch s₁ (offset / ch.blockSize.toUInt64) 1
            (modified ch g old offset data).bytes with
        | mk s' r' =>
          cases r' with
          | error e => exact .failWrite hlen hr hw
          | ok u =>
            refine .pass hlen hr hw (ih ?_ _ _ _)
            rw [List.length_drop]
            omega

end Runs

/-! ## One block -/

section Block

variable {ch : IoChannel τ} {image : τ → Nat → UInt8}

theorem readBlocks_keep (h : ByteChannel ch image) (s : τ) (block : UInt64) (count : Nat) :
    image (readBlocks ch s block count).1 = image s := by
  obtain ⟨f, hf⟩ := Option.isSome_iff_exists.mp h.hasRead
  have hkeep := h.serves.keep f hf s (block * ch.blockSize.toUInt64)
    (UInt64.ofNat count * ch.blockSize.toUInt64)
  simp only [readBlocks, hf]
  split <;> exact hkeep

theorem readBlocks_ok (h : ByteChannel ch image) {s s' : τ} {block : UInt64} {count : Nat}
    {data : List UInt8} (hr : readBlocks ch s block count = (s', .ok data)) :
    data = slice (image s) (block * ch.blockSize.toUInt64).toNat
      (UInt64.ofNat count * ch.blockSize.toUInt64).toNat := by
  obtain ⟨f, hf⟩ := Option.isSome_iff_exists.mp h.hasRead
  have hread := h.serves.read f hf s (block * ch.blockSize.toUInt64)
    (UInt64.ofNat count * ch.blockSize.toUInt64)
  simp only [readBlocks, hf] at hr
  split at hr
  case isTrue => cases hr
  case isFalse hrc =>
    cases hr
    exact hread (not_not.mp hrc)

theorem writeBlocks_image (h : ByteChannel ch image) {s s' : τ} {block : UInt64} {count : Nat}
    {data : List UInt8} {r : Except IoErrcode Unit}
    (hlen : (UInt64.ofNat count * ch.blockSize.toUInt64).toNat ≤ data.length)
    (hw : writeBlocks ch s block count data = (s', r)) :
    image s' = if r = .ok () then overwrite (image s) (block * ch.blockSize.toUInt64).toNat
      (data.take (UInt64.ofNat count * ch.blockSize.toUInt64).toNat) else image s := by
  obtain ⟨f, hf⟩ := Option.isSome_iff_exists.mp h.hasWrite
  have hwrite := h.serves.write f hf s (block * ch.blockSize.toUInt64)
    (UInt64.ofNat count * ch.blockSize.toUInt64) data hlen
  simp only [writeBlocks, hf, h.writable, Bool.false_eq_true, if_false] at hw
  split at hw
  case isTrue hrc =>
    cases hw
    rw [hwrite, if_neg hrc, if_neg (by simp)]
  case isFalse hrc =>
    cases hw
    rw [hwrite, if_pos (not_not.mp hrc), if_pos rfl]

end Block

/-! ## The bounce buffer -/

section Buffer

variable {data w : List UInt8} {skip : Nat}

theorem fill_bytes (g : ByteBuf) (hlen : data.length ≤ 65536) :
    ∃ t, (g.fill data).bytes = data ++ t := by
  refine ⟨(g.bytes.drop data.length).take (65536 - data.length), ?_⟩
  simp only [ByteBuf.fill, List.take_append, List.take_of_length_le hlen]

theorem patch_append (hw : skip + w.length ≤ data.length) (t : List UInt8) :
    patch (data ++ t) skip w = patch data skip w ++ t := by
  rw [patch, patch, List.take_append_of_le_length (by omega), List.drop_append_of_le_length hw]
  simp only [List.append_assoc]

theorem copyIn_take (g : ByteBuf) (hlen : data.length ≤ 65536)
    (hw : skip + w.length ≤ data.length) :
    ((g.fill data).copyIn skip w).bytes.take data.length = patch data skip w := by
  obtain ⟨t, ht⟩ := fill_bytes g hlen
  have hpatch := length_patch hw
  simp only [ByteBuf.copyIn, ht, patch_append hw, List.take_take, Nat.min_eq_left hlen]
  rw [← hpatch, List.take_left]

theorem fill_window (g : ByteBuf) {img : Nat → UInt8} {a b n : Nat} (hb : b ≤ 65536)
    (hn : skip + n ≤ b) :
    ((g.fill (slice img a b)).bytes.drop skip).take n = slice img (a + skip) n := by
  obtain ⟨t, ht⟩ : ∃ t, (g.fill (slice img a b)).bytes = slice img a b ++ t :=
    fill_bytes g (by simpa using hb)
  have hlen : n ≤ ((slice img a b).drop skip).length := by
    rw [List.length_drop, length_slice]
    omega
  rw [ht, List.drop_append_of_le_length (by simp only [length_slice]; omega),
    List.take_append_of_le_length hlen, window_slice hn]

end Buffer

/-! ## Where a pass is -/

section Position

variable {ch : IoChannel τ} {image : τ → Nat → UInt8} {offset : UInt64} {left : Nat}

theorem block_length (ch : IoChannel τ) :
    (UInt64.ofNat 1 * ch.blockSize.toUInt64).toNat = ch.blockSize.toNat := by
  have hlt := ch.blockSize.toNat_lt
  rw [UInt64.toNat_mul, UInt32.toNat_toUInt64]
  show 1 * ch.blockSize.toNat % 2 ^ 64 = _
  omega

theorem block_start (ch : IoChannel τ) (offset : UInt64) :
    (offset / ch.blockSize.toUInt64 * ch.blockSize.toUInt64).toNat +
      (offset % ch.blockSize.toUInt64).toNat = offset.toNat := by
  have hle := Nat.div_mul_le_self offset.toNat ch.blockSize.toNat
  have hlt := offset.toNat_lt
  rw [UInt64.toNat_mul, UInt64.toNat_div, UInt64.toNat_mod, UInt32.toNat_toUInt64,
    Nat.mod_eq_of_lt (by omega)]
  exact Nat.div_add_mod' ..

theorem skip_add_inBlock (h : ByteChannel ch image) (offset : UInt64) (left : Nat) :
    (offset % ch.blockSize.toUInt64).toNat + inBlock ch offset left ≤ ch.blockSize.toNat := by
  have hskip : (offset % ch.blockSize.toUInt64).toNat < ch.blockSize.toNat := by
    rw [UInt64.toNat_mod, UInt32.toNat_toUInt64]
    exact Nat.mod_lt _ h.pos
  simp only [inBlock]
  omega

theorem toNat_advance (ch : IoChannel τ) (hend : offset.toNat + left < 2 ^ 63) :
    (offset + UInt64.ofNat (inBlock ch offset left)).toNat =
      offset.toNat + inBlock ch offset left := by
  have hle := inBlock_le ch offset left
  rw [UInt64.toNat_add, UInt64.toNat_ofNat']
  omega

end Position

/-! ## Byte ranges -/

section Ranges

variable {ch : IoChannel τ} {image : τ → Nat → UInt8}

/-- What the loop has read so far is followed by what is left of the range. -/
theorem readByteRuns_spec (h : ByteChannel ch image) {s s' : τ} {g g' : ByteBuf} {offset : UInt64}
    {left : Nat} {out : List UInt8} {r : Except IoErrcode (List UInt8)}
    (hruns : ReadByteRuns ch s g offset left out (s', g', r)) (hend : offset.toNat + left < 2 ^ 63) :
    image s' = image s ∧
      ∀ data, r = .ok data → data = out ++ slice (image s) offset.toNat left := by
  generalize hres : (s', g', r) = res at hruns
  induction hruns with
  | done s g offset out =>
    cases hres
    exact ⟨rfl, fun data hd => by cases hd; simp⟩
  | @fail s g offset left out s₁ e hleft hr =>
    cases hres
    have hkeep := readBlocks_keep h s (offset / ch.blockSize.toUInt64) 1
    rw [hr] at hkeep
    exact ⟨hkeep, fun data hd => nomatch hd⟩
  | @pass s g offset left out s₁ block r₁ hleft hr _ ih =>
    have hkeep := readBlocks_keep h s (offset / ch.blockSize.toUInt64) 1
    rw [hr] at hkeep
    have hblock := readBlocks_ok h hr
    rw [block_length] at hblock
    have hle := inBlock_le ch offset left
    have hadv := toNat_advance ch hend
    obtain ⟨himage, hout⟩ := ih (by omega) hres
    refine ⟨himage.trans hkeep, fun data hd => ?_⟩
    have hsplit : slice (image s) offset.toNat left =
        slice (image s) offset.toNat (inBlock ch offset left) ++
          slice (image s) (offset.toNat + inBlock ch offset left)
            (left - inBlock ch offset left) := by
      rw [← slice_add, Nat.add_sub_cancel' hle]
    rw [hout data hd, hkeep, hadv, hblock, fill_window g h.le (skip_add_inBlock h offset left),
      block_start, List.append_assoc, hsplit]

/-- Reading a block, changing bytes of it and writing it back stores these bytes alone. -/
theorem writeBack_image (h : ByteChannel ch image) {s s₁ s₂ : τ} {g : ByteBuf} {offset : UInt64}
    {old data : List UInt8} {r : Except IoErrcode Unit}
    (hr : readBlocks ch s (offset / ch.blockSize.toUInt64) 1 = (s₁, .ok old))
    (hw : writeBlocks ch s₁ (offset / ch.blockSize.toUInt64) 1
      (modified ch g old offset data).bytes = (s₂, r)) :
    image s₂ = if r = .ok () then
      overwrite (image s) offset.toNat (data.take (inBlock ch offset data.length))
      else image s := by
  have hkeep := readBlocks_keep h s (offset / ch.blockSize.toUInt64) 1
  rw [hr] at hkeep
  have hold := readBlocks_ok h hr
  rw [block_length] at hold
  have holdlen : old.length = ch.blockSize.toNat := by rw [hold, length_slice]
  have hwindow : (offset % ch.blockSize.toUInt64).toNat +
      (data.take (inBlock ch offset data.length)).length ≤ old.length := by
    have := skip_add_inBlock h offset data.length
    rw [List.length_take_of_le (inBlock_le ch offset data.length), holdlen]
    exact this
  have hlen : (UInt64.ofNat 1 * ch.blockSize.toUInt64).toNat ≤
      (modified ch g old offset data).bytes.length := by
    rw [block_length, ByteBuf.size]
    exact h.le
  have hstored : (modified ch g old offset data).bytes.take ch.blockSize.toNat =
      patch old (offset % ch.blockSize.toUInt64).toNat
        (data.take (inBlock ch offset data.length)) := by
    rw [← holdlen]
    exact copyIn_take g (by rw [holdlen]; exact h.le) hwindow
  have himage := writeBlocks_image h hlen hw
  rw [block_length, hstored, hkeep, hold, overwrite_patch_slice (by rwa [← holdlen]),
    block_start] at himage
  exact himage

/-- A prefix of the bytes is stored, all of them if the loop succeeds. -/
theorem writeByteRuns_spec (h : ByteChannel ch image) {s s' : τ} {g g' : ByteBuf}
    {offset : UInt64} {data : List UInt8} {r : Except IoErrcode Unit}
    (hruns : WriteByteRuns ch s g offset data (s', g', r))
    (hend : offset.toNat + data.length < 2 ^ 63) :
    ∃ k, k ≤ data.length ∧ image s' = overwrite (image s) offset.toNat (data.take k) ∧
      (r = .ok () → k = data.length) := by
  generalize hres : (s', g', r) = res at hruns
  induction hruns with
  | done s g offset =>
    cases hres
    exact ⟨0, Nat.le_refl _, by simp, fun _ => rfl⟩
  | @failRead s g offset data s₁ e hdata hr =>
    cases hres
    have hkeep := readBlocks_keep h s (offset / ch.blockSize.toUInt64) 1
    rw [hr] at hkeep
    exact ⟨0, Nat.zero_le _, by simpa using hkeep, fun hok => nomatch hok⟩
  | @failWrite s g offset data s₁ old s₂ e hdata hr hw =>
    cases hres
    have himage := writeBack_image h hr hw
    exact ⟨0, Nat.zero_le _, by simpa using himage, fun hok => nomatch hok⟩
  | @pass s g offset data s₁ old s₂ r₁ hdata hr hw _ ih =>
    have himage := writeBack_image h hr hw
    rw [if_pos rfl] at himage
    have hle := inBlock_le ch offset data.length
    have hadv := toNat_advance ch hend
    obtain ⟨k, hk, hrest, hok⟩ := ih (by rw [List.length_drop]; omega) hres
    rw [List.length_drop] at hk hok
    refine ⟨inBlock ch offset data.length + k, by omega, ?_, fun hr => ?_⟩
    · rw [hrest, himage, hadv, List.take_add, overwrite_append,
        List.length_take_of_le hle]
    · have := hok hr
      omega

end Ranges

/-! ## Calls that do not fail -/

structure NoFailure (io : NfskBlockio τ) : Prop where
  read : ∀ f, io.read = some f → ∀ s off len, (f s off len).2.1 = 0
  write : ∀ f, io.write = some f → ∀ s off len buf, (f s off len buf).2 = 0

section NoFailure

variable {ch : IoChannel τ} {image : τ → Nat → UInt8}

theorem readBlocks_noFailure (h : ByteChannel ch image) (hno : NoFailure ch.privateData) (s : τ)
    (block : UInt64) (count : Nat) : ∃ s' data, readBlocks ch s block count = (s', .ok data) := by
  obtain ⟨f, hf⟩ := Option.isSome_iff_exists.mp h.hasRead
  have hrc := hno.read f hf s (block * ch.blockSize.toUInt64)
    (UInt64.ofNat count * ch.blockSize.toUInt64)
  simp only [readBlocks, hf, hrc, ne_eq, not_true_eq_false, if_false]
  exact ⟨_, _, rfl⟩

theorem writeBlocks_noFailure (h : ByteChannel ch image) (hno : NoFailure ch.privateData) (s : τ)
    (block : UInt64) (count : Nat) (data : List UInt8) :
    ∃ s', writeBlocks ch s block count data = (s', .ok ()) := by
  obtain ⟨f, hf⟩ := Option.isSome_iff_exists.mp h.hasWrite
  have hrc := hno.write f hf s (block * ch.blockSize.toUInt64)
    (UInt64.ofNat count * ch.blockSize.toUInt64) data
  simp only [writeBlocks, hf, h.writable, Bool.false_eq_true, if_false, hrc, ne_eq,
    not_true_eq_false]
  exact ⟨_, rfl⟩

theorem readByteRuns_noFailure (h : ByteChannel ch image) (hno : NoFailure ch.privateData) {s : τ}
    {g : ByteBuf} {offset : UInt64} {left : Nat} {out : List UInt8}
    {r : τ × ByteBuf × Except IoErrcode (List UInt8)}
    (hruns : ReadByteRuns ch s g offset left out r) : ∃ s' g' data, r = (s', g', .ok data) := by
  induction hruns with
  | done s g offset out => exact ⟨s, g, out, rfl⟩
  | fail hleft hr =>
    obtain ⟨s', data, hok⟩ := readBlocks_noFailure h hno _ _ _
    cases hok.symm.trans hr
  | pass hleft hr _ ih => exact ih

theorem writeByteRuns_noFailure (h : ByteChannel ch image) (hno : NoFailure ch.privateData) {s : τ}
    {g : ByteBuf} {offset : UInt64} {data : List UInt8} {r : τ × ByteBuf × Except IoErrcode Unit}
    (hruns : WriteByteRuns ch s g offset data r) : ∃ s' g', r = (s', g', .ok ()) := by
  induction hruns with
  | done s g offset => exact ⟨s, g, rfl⟩
  | failRead hdata hr =>
    obtain ⟨s', old, hok⟩ := readBlocks_noFailure h hno _ _ _
    cases hok.symm.trans hr
  | failWrite hdata hr hw =>
    obtain ⟨s', hok⟩ := writeBlocks_noFailure h hno _ _ _ _
    cases hok.symm.trans hw
  | pass hdata hr hw _ ih => exact ih

end NoFailure

/-! ## The entry points -/

section Entry

variable (ch : IoChannel τ) (image : τ → Nat → UInt8) (s : τ) (g : ByteBuf)

/-- A byte range is a slice of the device, and what is stored is a prefix of `data`. -/
structure SlicesDevice (offset : UInt64) (count : Int) (data : List UInt8) : Prop where
  readEnds : ReadByteRuns ch s g offset count.toNat [] (extIoReadByte ch s g offset count)
  read : ∀ s' g' out, extIoReadByte ch s g offset count = (s', g', .ok out) →
    out = slice (image s) offset.toNat count.toNat
  readKeeps : image (extIoReadByte ch s g offset count).1 = image s
  writeEnds : WriteByteRuns ch s g offset (data.take count.toNat)
    (extIoWriteByte ch s g offset count data)
  write : ∃ k, k ≤ count.toNat ∧
    image (extIoWriteByte ch s g offset count data).1 =
      overwrite (image s) offset.toNat (data.take k) ∧
    ((extIoWriteByte ch s g offset count data).2.2 = .ok () → k = count.toNat)

/-- A `count` of `-m` stands for `m` bytes. -/
structure NegativeCount (block : UInt64) (m : Int) (data : List UInt8) : Prop where
  read : extIoReadBlk64 ch s g block (-m) =
    extIoReadByte ch s g (block * ch.blockSize.toUInt64) m
  write : extIoWriteBlk64 ch s g block (-m) data =
    extIoWriteByte ch s g (block * ch.blockSize.toUInt64) m data

/-- As many bytes as `c` blocks hold are these blocks. -/
structure AgreesWithBlocks (block : UInt64) (c : Nat) (data : List UInt8) : Prop where
  read : ∀ s₁ g₁ out₁ s₂ g₂ out₂,
    extIoReadBlk64 ch s g block (-(c * ch.blockSize.toNat : Nat)) = (s₁, g₁, .ok out₁) →
    extIoReadBlk64 ch s g block c = (s₂, g₂, .ok out₂) → out₁ = out₂ ∧ image s₁ = image s₂
  write : ∀ s₁ g₁ s₂ g₂,
    extIoWriteBlk64 ch s g block (-(c * ch.blockSize.toNat : Nat)) data = (s₁, g₁, .ok ()) →
    extIoWriteBlk64 ch s g block c data = (s₂, g₂, .ok ()) → image s₁ = image s₂
  readOk : NoFailure ch.privateData →
    (∃ s₁ g₁ out, extIoReadBlk64 ch s g block (-(c * ch.blockSize.toNat : Nat)) =
      (s₁, g₁, .ok out)) ∧ ∃ s₂ g₂ out, extIoReadBlk64 ch s g block c = (s₂, g₂, .ok out)
  writeOk : NoFailure ch.privateData →
    (∃ s₁ g₁, extIoWriteBlk64 ch s g block (-(c * ch.blockSize.toNat : Nat)) data =
      (s₁, g₁, .ok ())) ∧ ∃ s₂ g₂, extIoWriteBlk64 ch s g block c data = (s₂, g₂, .ok ())

variable {ch image s g}

theorem slicesDevice (h : ByteChannel ch image) {offset : UInt64} {count : Int}
    (hend : offset.toNat + count.toNat < 2 ^ 63) {data : List UInt8}
    (hdata : count.toNat ≤ data.length) : SlicesDevice ch image s g offset count data := by
  have hlen : (data.take count.toNat).length = count.toNat := List.length_take_of_le hdata
  have hread : ReadByteRuns ch s g offset count.toNat [] (extIoReadByte ch s g offset count) :=
    readByteLoop_runs h.pos (Nat.le_refl _) s g offset []
  have hwrite : WriteByteRuns ch s g offset (data.take count.toNat)
      (extIoWriteByte ch s g offset count data) :=
    writeByteLoop_runs h.pos (by omega) s g offset
  obtain ⟨k, hk, himage, hok⟩ := writeByteRuns_spec h hwrite (by omega)
  rw [hlen] at hk hok
  rw [List.take_take, Nat.min_eq_left hk] at himage
  refine ⟨hread, fun s' g' out hr => ?_, ?_, hwrite, k, hk, himage, hok⟩
  · rw [hr] at hread
    simpa using (readByteRuns_spec h hread hend).2 out rfl
  · exact (readByteRuns_spec h hread hend).1

theorem readBlk64_bytes (h : ByteChannel ch image) (block : UInt64) {m : Int} (hm : 0 < m) :
    extIoReadBlk64 ch s g block (-m) =
      extIoReadByte ch s g (block * ch.blockSize.toUInt64) m := by
  rw [extIoReadBlk64, if_neg h.reads, if_pos (by omega), Int.neg_neg]

theorem writeBlk64_bytes (h : ByteChannel ch image) (block : UInt64) {m : Int} (hm : 0 < m)
    (data : List UInt8) : extIoWriteBlk64 ch s g block (-m) data =
      extIoWriteByte ch s g (block * ch.blockSize.toUInt64) m data := by
  rw [extIoWriteBlk64, if_neg h.writes, if_neg (by simp [h.writable]), if_pos (by omega), Int.neg_neg]

theorem readBlk64_blocks (h : ByteChannel ch image) (block : UInt64) (c : Nat) :
    extIoReadBlk64 ch s g block c =
      ((readBlocks ch s block c).1, g, (readBlocks ch s block c).2) := by
  rw [extIoReadBlk64, if_neg h.reads, if_neg (by omega), Int.toNat_natCast]

theorem writeBlk64_blocks (h : ByteChannel ch image) (block : UInt64) (c : Nat)
    (data : List UInt8) : extIoWriteBlk64 ch s g block c data =
      ((writeBlocks ch s block c data).1, g, (writeBlocks ch s block c data).2) := by
  rw [extIoWriteBlk64, if_neg h.writes, if_neg (by simp [h.writable]), if_neg (by omega),
    Int.toNat_natCast]

theorem agreesWithBlocks (h : ByteChannel ch image) {block : UInt64} {c : Nat}
    (hm : 0 < c * ch.blockSize.toNat) (hm' : c * ch.blockSize.toNat < 2 ^ 31)
    (hend : (block * ch.blockSize.toUInt64).toNat + c * ch.blockSize.toNat < 2 ^ 63)
    {data : List UInt8} (hdata : c * ch.blockSize.toNat ≤ data.length) :
    AgreesWithBlocks ch image s g block c data := by
  have hslices : SlicesDevice ch image s g (block * ch.blockSize.toUInt64)
      (c * ch.blockSize.toNat : Nat) data := slicesDevice h hend hdata
  have hneg : (0 : Int) < (c * ch.blockSize.toNat : Nat) := by omega
  have hc : c ≤ c * ch.blockSize.toNat := Nat.le_mul_of_pos_right c h.pos
  have hlen : (UInt64.ofNat c * ch.blockSize.toUInt64).toNat = c * ch.blockSize.toNat := by
    rw [UInt64.toNat_mul, UInt64.toNat_ofNat', UInt32.toNat_toUInt64,
      Nat.mod_eq_of_lt (a := c) (by omega), Nat.mod_eq_of_lt (by omega)]
  refine ⟨?_, ?_, fun hno => ⟨?_, ?_⟩, fun hno => ⟨?_, ?_⟩⟩
  · intro s₁ g₁ out₁ s₂ g₂ out₂ hbyte hblk
    rw [readBlk64_bytes h block hneg] at hbyte
    rw [readBlk64_blocks h] at hblk
    have hkeep := readBlocks_keep h s block c
    cases hr : readBlocks ch s block c with
    | mk s' r =>
      rw [hr] at hblk hkeep
      cases hblk
      have hout₂ := readBlocks_ok h hr
      rw [hlen] at hout₂
      have hkeep₁ := hslices.readKeeps
      rw [hbyte] at hkeep₁
      exact ⟨(hslices.read _ _ _ hbyte).trans hout₂.symm, hkeep₁.trans hkeep.symm⟩
  · intro s₁ g₁ s₂ g₂ hbyte hblk
    rw [writeBlk64_bytes h block hneg] at hbyte
    rw [writeBlk64_blocks h] at hblk
    obtain ⟨k, hk, himage, hok⟩ := hslices.write
    rw [hbyte] at himage hok
    cases hw : writeBlocks ch s block c data with
    | mk s' r =>
      rw [hw] at hblk
      cases hblk
      have himage₂ := writeBlocks_image h (by rw [hlen]; exact hdata) hw
      rw [if_pos rfl, hlen] at himage₂
      rw [himage, hok rfl, himage₂, Int.toNat_natCast]
  · rw [readBlk64_bytes h block hneg]
    exact readByteRuns_noFailure h hno hslices.readEnds
  · obtain ⟨s', out, hr⟩ := readBlocks_noFailure h hno s block c
    exact ⟨s', g, out, by rw [readBlk64_blocks h, hr]⟩
  · rw [writeBlk64_bytes h block hneg]
    exact writeByteRuns_noFailure h hno hslices.writeEnds
  · obtain ⟨s', hw⟩ := writeBlocks_noFailure h hno s block c data
    exact ⟨s', g, by rw [writeBlk64_blocks h, hw]⟩

/-- Byte ranges of a channel are slices of its device, whatever calls fail, and a negative `count` of
the block calls is a byte range. -/
theorem byteIo_slices (h : ByteChannel ch image) (s : τ) (g : ByteBuf) (data : List UInt8) :
    (∀ (offset : UInt64) (count : Int), 0 ≤ count → count < 2 ^ 31 →
      offset.toNat + count.toNat < 2 ^ 63 → count.toNat ≤ data.length →
      SlicesDevice ch image s g offset count data) ∧
    (∀ (block : UInt64) (m : Int), 0 < m → m < 2 ^ 31 → NegativeCount ch s g block m data) ∧
    ∀ (block : UInt64) (c : Nat), 0 < c * ch.blockSize.toNat →
      c * ch.blockSize.toNat < 2 ^ 31 →
      (block * ch.blockSize.toUInt64).toNat + c * ch.blockSize.toNat < 2 ^ 63 →
      c * ch.blockSize.toNat ≤ data.length → AgreesWithBlocks ch image s g block c data :=
  ⟨fun _ _ _ _ hend hdata => slicesDevice h hend hdata,
    fun block _ hm _ => ⟨readBlk64_bytes h block hm, writeBlk64_bytes h block hm data⟩,
    fun _ _ hm hm' hend hdata => agreesWithBlocks h hm hm' hend hdata⟩

end Entry

/-! ## A device -/

/-- The callbacks of a device of `size` bytes, which refuse what ends past it. -/
def diskIo (size : Nat) : NfskBlockio (Nat → UInt8) where
  read := some fun s off len =>
    if off.toNat + len.toNat ≤ size then (s, 0, slice s off.toNat len.toNat) else (s, - EIO, [])
  write := some fun s off len buf =>
    if off.toNat + len.toNat ≤ size then (overwrite s off.toNat (buf.take len.toNat), 0)
    else (s, - EIO)
  sync := some fun s => (s, 0)
  readonly := false
  blockSize := 512
  blockCount := UInt64.ofNat (size / 512)

theorem diskIo_serves (size : Nat) : Serves (diskIo size) id where
  keep := by
    rintro _ ⟨⟩ s off len
    simp only
    split <;> rfl
  read := by
    rintro _ ⟨⟩ s off len hrc
    by_cases h : off.toNat + len.toNat ≤ size
    · simp [h]
    · simp [h, EIO] at hrc
  write := by
    rintro _ ⟨⟩ s off len buf _
    by_cases h : off.toNat + len.toNat ≤ size
    · simp [h]
    · simp [h, EIO]

def diskChannel : IoChannel (Nat → UInt8) := ⟨diskIo 65536, 1024⟩

theorem diskChannel_byteChannel : ByteChannel diskChannel id where
  serves := diskIo_serves 65536
  hasRead := rfl
  hasWrite := rfl
  writable := rfl
  pos := by decide
  le := by decide

/-- Three blocks are touched by 1500 bytes from 1000 on. -/
theorem byteIo_slices_unaligned : SlicesDevice diskChannel id (fun p => UInt8.ofNat p) zeroBuf 1000
    1500 (List.replicate 1500 7) :=
  (byteIo_slices diskChannel_byteChannel _ _ _).1 1000 1500 (by decide) (by decide) (by decide)
    (by rw [List.length_replicate]; decide)

end Ext
end Usbrw
