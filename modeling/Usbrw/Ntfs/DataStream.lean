import Usbrw.Base.Region

/-!
# Ntfs.DataStream

The unnamed `$DATA` attribute of a record: its size, and how much of it was ever written. What was
not written reads as zero.

* `Truncated`, `Written` — what `ntfs_attr_truncate` and `ntfs_attr_pwrite` make of it.
* `Stored`, `Attempted`  — what a run of writes makes of it, and a write that may have failed.
* `Ragged`               — a write may cut it.
* `Resized`, `Patched`   — what a caller asks for that sets the size, or stores bytes.
-/

namespace Usbrw
namespace Ntfs

def ATTR_COMPRESSION_MASK : UInt16 := 0x00ff

/-- `byte` is what is read at a position, and zero where nothing is. -/
structure DataStream where
  flags : UInt16
  size : Nat
  initialized : Nat
  byte : Nat → UInt8
  initialized_le : initialized ≤ size
  zero : ∀ p, initialized ≤ p → byte p = 0

namespace DataStream

def Compressed (d : DataStream) : Prop := d.flags &&& ATTR_COMPRESSION_MASK ≠ 0

instance (d : DataStream) : Decidable d.Compressed := inferInstanceAs (Decidable (_ ≠ _))

/-- How long the stream is once something was stored up to `n`: a compressed one ends where what was
ever written of it does. -/
def sizeAfter (d : DataStream) (n : Nat) : Nat :=
  if d.Compressed ∧ d.initialized < n then n else max d.size n

/-- A compressed stream that was not written up to its end, and is now to be past what was. -/
def Ragged (d : DataStream) (n : Nat) : Prop :=
  d.Compressed ∧ d.initialized < n ∧ d.initialized < d.size

instance (d : DataStream) (n : Nat) : Decidable (d.Ragged n) :=
  inferInstanceAs (Decidable (_ ∧ _ ∧ _))

structure Truncated (d : DataStream) (n : Nat) (d' : DataStream) : Prop where
  size : d'.size = n
  kept : ∀ p, p < n → d'.byte p = d.byte p

/-- Where the stream was written to its end, how it is compressed may have changed. -/
structure Written (d : DataStream) (pos : Nat) (bytes : List UInt8) (d' : DataStream) : Prop where
  size : d'.size = d.sizeAfter (pos + bytes.length)
  initialized : d'.initialized = max d.initialized (pos + bytes.length)
  compressed : d'.initialized < d'.size → (d'.Compressed ↔ d.Compressed)
  byte : d'.byte = Region.overwrite d.byte pos bytes

structure Resized (d : DataStream) (n : Nat) (d' : DataStream) : Prop where
  size : d'.size = n
  kept : ∀ p, p < min d.size n → d'.byte p = d.byte p
  grown : ∀ p, d.size ≤ p → p < n → d'.byte p = 0

/-- What writing `bytes` in one piece or in several leaves: nothing else for no bytes at all. -/
structure Stored (d : DataStream) (pos : Nat) (bytes : List UInt8) (d' : DataStream) : Prop where
  nothing : bytes = [] → d' = d
  written : bytes ≠ [] → d.Written pos bytes d'

/-- What a write of `bytes` leaves that reports the first `part` of them. Where it may cut the stream,
nothing is known of one that fails, or ends in what was written before. -/
def Attempted (d : DataStream) (pos : Nat) (bytes : List UInt8) (part : Nat) (d' : DataStream) : Prop :=
  (d.Ragged (pos + bytes.length) → 0 < part ∧ d.initialized < pos + part) →
    d.Stored pos (bytes.take part) d'

/-- Nothing but `bytes` is new, and zeros before them if the stream ended there. -/
structure Patched (d : DataStream) (pos : Nat) (bytes : List UInt8) (d' : DataStream) : Prop where
  size : d'.size = if bytes = [] then d.size else max d.size (pos + bytes.length)
  byte : d'.byte = Region.overwrite d.byte pos bytes

/-! ## Streams that the library makes -/

theorem truncate_zero (d : DataStream) (n p : Nat) (h : min d.initialized n ≤ p) :
    (if p < n then d.byte p else 0) = 0 := by
  split
  · exact d.zero p (by omega)
  · rfl

def truncate (d : DataStream) (n : Nat) : DataStream where
  flags := d.flags
  size := n
  initialized := min d.initialized n
  byte p := if p < n then d.byte p else 0
  initialized_le := Nat.min_le_right ..
  zero := d.truncate_zero n

theorem write_initialized_le (d : DataStream) (n : Nat) : max d.initialized n ≤ d.sizeAfter n := by
  have h := d.initialized_le
  unfold sizeAfter
  split <;> omega

theorem write_zero (d : DataStream) (pos : Nat) (bytes : List UInt8) (p : Nat)
    (h : max d.initialized (pos + bytes.length) ≤ p) : Region.overwrite d.byte pos bytes p = 0 := by
  rw [Region.overwrite_outside (by omega)]
  exact d.zero p (by omega)

def write (d : DataStream) (pos : Nat) (bytes : List UInt8) : DataStream where
  flags := d.flags
  size := d.sizeAfter (pos + bytes.length)
  initialized := max d.initialized (pos + bytes.length)
  byte := Region.overwrite d.byte pos bytes
  initialized_le := d.write_initialized_le (pos + bytes.length)
  zero := d.write_zero pos bytes

theorem truncate_truncated (d : DataStream) (n : Nat) : d.Truncated n (d.truncate n) :=
  ⟨rfl, fun _ hp => if_pos hp⟩

theorem write_written (d : DataStream) (pos : Nat) (bytes : List UInt8) :
    d.Written pos bytes (d.write pos bytes) := ⟨rfl, rfl, fun _ => Iff.rfl, rfl⟩

theorem write_stored (d : DataStream) (pos : Nat) {bytes : List UInt8} (hne : bytes ≠ []) :
    d.Stored pos bytes (d.write pos bytes) :=
  ⟨fun h => absurd h hne, fun _ => d.write_written pos bytes⟩

variable {d d' d'' : DataStream} {n pos p : Nat} {bytes bytes' : List UInt8}

/-! ## Bytes written piece by piece -/

theorem Stored.refl (d : DataStream) (pos : Nat) : d.Stored pos [] d :=
  ⟨fun _ => rfl, fun h => absurd rfl h⟩

theorem Stored.byte (h : d.Stored pos bytes d') :
    d'.byte = Region.overwrite d.byte pos bytes := by
  by_cases hb : bytes = []
  · rw [h.nothing hb, hb, Region.overwrite_nil]
  · exact (h.written hb).byte

theorem sizeAfter_of_not_ragged (h : ¬ d.Ragged n) : d.sizeAfter n = max d.size n := by
  have hle := d.initialized_le
  unfold sizeAfter
  by_cases hc : d.Compressed ∧ d.initialized < n
  · have hfull : ¬ d.initialized < d.size := fun hlt => h ⟨hc.1, hc.2, hlt⟩
    rw [if_pos hc]
    omega
  · rw [if_neg hc]

/-- A stream that is written to its end ends where the next write does, or where it did. -/
theorem sizeAfter_of_full (h : d.initialized = d.size) (n : Nat) : d.sizeAfter n = max d.size n :=
  sizeAfter_of_not_ragged fun hr => absurd hr.2.2 (by omega)

/-- A compressed stream that was written to past its old data is written to its end. -/
theorem Written.full (h : d.Written pos bytes d') (hc : d.Compressed)
    (hlt : d.initialized < pos + bytes.length) : d'.initialized = d'.size := by
  rw [h.size, h.initialized, sizeAfter, if_pos ⟨hc, hlt⟩]
  omega

/-- What a write leaves can be cut only if it could before, and the write ended in what had been
written then. -/
theorem Written.ragged (h : d.Written pos bytes d') (hr : d'.Ragged n) :
    d.Ragged n ∧ pos + bytes.length ≤ d.initialized := by
  have hc := (h.compressed hr.2.2).mp hr.1
  have hle : pos + bytes.length ≤ d.initialized := by
    by_contra hlt
    have hfull := h.full hc (by omega)
    have hragged := hr.2.2
    omega
  have hinit := h.initialized
  have hsize := h.size
  have hd := d.initialized_le
  rw [sizeAfter, if_neg (by omega)] at hsize
  refine ⟨⟨hc, ?_, ?_⟩, hle⟩
  · have hn := hr.2.1
    omega
  · have hragged := hr.2.2
    omega

theorem Written.append (h : d.Written pos bytes d')
    (h' : d'.Written (pos + bytes.length) bytes' d'') : d.Written pos (bytes ++ bytes') d'' := by
  have hd := d.initialized_le
  have hinit := h.initialized
  have hsize := h.size
  have hinit' := h'.initialized
  have hsize' := h'.size
  have hlen : pos + (bytes ++ bytes').length = pos + bytes.length + bytes'.length := by
    rw [List.length_append, Nat.add_assoc]
  have hbyte : d''.byte = Region.overwrite d.byte pos (bytes ++ bytes') := by
    rw [h'.byte, h.byte, Region.overwrite_append]
  by_cases hfull : d'.initialized = d'.size
  · rw [sizeAfter_of_full hfull] at hsize'
    refine ⟨?_, by omega, fun hlt => absurd hlt (by omega), hbyte⟩
    rw [hlen]
    unfold sizeAfter at hsize ⊢
    by_cases hc : d.Compressed ∧ d.initialized < pos + bytes.length
    · rw [if_pos hc] at hsize
      rw [if_pos ⟨hc.1, by omega⟩]
      omega
    · rw [if_neg hc] at hsize
      by_cases hc' : d.Compressed ∧ d.initialized < pos + bytes.length + bytes'.length
      · have hle : ¬ d.initialized < pos + bytes.length := fun h => hc ⟨hc'.1, h⟩
        rw [if_pos hc']
        omega
      · rw [if_neg hc']
        omega
  · have hlt : d'.initialized < d'.size := Nat.lt_of_le_of_ne d'.initialized_le hfull
    have hiff := h.compressed hlt
    have hpast : ¬ (d.Compressed ∧ d.initialized < pos + bytes.length) := fun hc =>
      hfull (h.full hc.1 hc.2)
    rw [sizeAfter, if_neg hpast] at hsize
    refine ⟨?_, by omega, fun hlt' => (h'.compressed hlt').trans hiff, hbyte⟩
    have hsame : (d'.Compressed ∧ d'.initialized < pos + bytes.length + bytes'.length) ↔
        (d.Compressed ∧ d.initialized < pos + bytes.length + bytes'.length) := by
      rw [hiff]
      refine and_congr_right fun hc => ?_
      have hle : ¬ d.initialized < pos + bytes.length := fun h => hpast ⟨hc, h⟩
      omega
    rw [hlen, hsize']
    unfold sizeAfter
    simp only [hsame]
    split <;> omega

theorem Stored.append (h : d.Stored pos bytes d')
    (h' : d'.Written (pos + bytes.length) bytes' d'') (hne : bytes' ≠ []) :
    d.Stored pos (bytes ++ bytes') d'' where
  nothing hnil := absurd (List.append_eq_nil_iff.mp hnil).2 hne
  written _ := by
    by_cases hb : bytes = []
    · rw [h.nothing hb, hb] at h'
      rw [hb]
      exact h'
    · exact (h.written hb).append h'

/-- All that was stored changed, and the stream is no shorter than before. -/
theorem Stored.patched (h : d.Stored pos bytes d')
    (hr : d.Ragged (pos + bytes.length) → d.size ≤ pos + bytes.length) : d.Patched pos bytes d' where
  size := by
    by_cases hb : bytes = []
    · rw [if_pos hb, h.nothing hb]
    · rw [if_neg hb, (h.written hb).size]
      by_cases hcut : d.Ragged (pos + bytes.length)
      · have hle := hr hcut
        rw [sizeAfter, if_pos ⟨hcut.1, hcut.2.1⟩]
        omega
      · exact sizeAfter_of_not_ragged hcut
  byte := h.byte

/-! ## A new size -/

theorem zero_of_size_le (d : DataStream) (h : d.size ≤ p) : d.byte p = 0 :=
  d.zero p (Nat.le_trans d.initialized_le h)

theorem Truncated.resized (h : d.Truncated n d') : d.Resized n d' where
  size := h.size
  kept p hp := h.kept p (by omega)
  grown p hp hn := by rw [h.kept p hn, d.zero_of_size_le hp]

/-- Storing a zero where a zero is read changes no byte. -/
theorem Written.byte_of_zero (h : d.Written pos [0] d') (hpos : d.byte pos = 0) :
    d'.byte = d.byte := by
  funext p
  rw [h.byte]
  by_cases hp : p = pos
  · subst hp
    simp [Region.overwrite, hpos]
  · exact Region.overwrite_outside (by simp; omega)

/-- A zero stored at the last position of the new size makes a compressed stream end there. -/
theorem Written.resized (h : d.Written (n - 1) [0] d') (hc : d.Compressed) (hn : d.initialized < n) :
    d.Resized n d' := by
  have hbyte := h.byte_of_zero (d.zero (n - 1) (by omega))
  have hlast : n - 1 + [(0 : UInt8)].length = n := by
    rw [List.length_singleton, Nat.sub_add_cancel (by omega)]
  refine ⟨?_, fun p _ => by rw [hbyte], fun p hp _ => ?_⟩
  · rw [h.size, hlast, sizeAfter, if_pos ⟨hc, hn⟩]
  · rw [hbyte, d.zero_of_size_le hp]

end DataStream

end Ntfs
end Usbrw
