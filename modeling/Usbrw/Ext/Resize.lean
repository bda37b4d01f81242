import Usbrw.Ext.File
import Usbrw.Ext.Reference

/-!
# Ext.Resize

What a successful `extfsk_write` does to the size of the file and to the bytes around the write.

* `GrowsOnly` — the size is the larger of the old one and the end of the write, and the old bytes
  outside it stay.
* `ReachesEnd` — the write ends at or past the end of the file, and its 32-bit position is its
  offset as far as the file's bytes can tell.

The size is set to `offset + written` whatever it was, so a write inside the file cuts off the rest
of it (`overwrite_shrinks`).
-/

namespace Usbrw
namespace Ext

open Call Region

/-- A write of `n` bytes at `offset` keeps every other old byte in the file. -/
def GrowsOnly (v v' : Volume) (ino : UInt32) (offset n : Nat) : Prop :=
  let old := (v.node ino).size.toNat
  let size := (v'.node ino).size.toNat
  size = (if n = 0 then old else max old (offset + n)) ∧
    ∀ p, p < old → p < offset ∨ offset + n ≤ p → p < size ∧ v'.data ino p = v.data ino p

/-- The end of a write of `w` bytes of `buf` at `offset` is representable and not before the end of
the file (an empty one is exactly there), and where the position that the offset narrows to lies
elsewhere in the file, the bytes there are the ones written. -/
def ReachesEnd (v : Volume) (ino : UInt32) (offset : Nat) (buf : List UInt8) (w : Nat) : Prop :=
  let old := (v.node ino).size.toNat
  (if w = 0 then offset = old else offset + w < 2 ^ 64 ∧ old ≤ offset + w) ∧
    ∀ i, i < w → offset % 2 ^ 32 + i < old →
      offset % 2 ^ 32 + i < offset ∨ offset + w ≤ offset % 2 ^ 32 + i →
      buf[i]? = some (v.data ino (offset % 2 ^ 32 + i))

section Iff

variable {v : Volume} {ino : UInt32} {offset : UInt64} {buf : List UInt8} {n : UInt32}

/-- The volume `extfsk_write` leaves: see `extfskWrite_spec`. -/
def afterWrite (v : Volume) (ino : UInt32) (offset : UInt64) (buf : List UInt8) (n : UInt32) :
    Volume :=
  (v.store ino offset.toUInt32.toNat (buf.take n.toNat)).resize ino (offset + n.toUInt64)

theorem afterWrite_size :
    ((afterWrite v ino offset buf n).node ino).size.toNat = (offset.toNat + n.toNat) % 2 ^ 64 := by
  simp [afterWrite, Volume.resize]

theorem afterWrite_data : (afterWrite v ino offset buf n).data ino =
    overwrite (v.data ino) (offset.toNat % 2 ^ 32) (buf.take n.toNat) := by
  simp [afterWrite]

theorem growsOnly_iff (hn : n.toNat ≤ buf.length) :
    GrowsOnly v (afterWrite v ino offset buf n) ino offset.toNat n.toNat ↔
      ReachesEnd v ino offset.toNat buf n.toNat := by
  have hlen : (buf.take n.toNat).length = n.toNat := by simp; omega
  have hoff := offset.toNat_lt
  have hold := (v.node ino).size.toNat_lt
  have hinside : ∀ i, i < n.toNat →
      some (overwrite (v.data ino) (offset.toNat % 2 ^ 32) (buf.take n.toNat)
        (offset.toNat % 2 ^ 32 + i)) = buf[i]? := by
    intro i hi
    rw [overwrite_inside (by omega) (by omega), Nat.add_sub_cancel_left, List.getElem?_take_of_lt hi]
  simp only [GrowsOnly, ReachesEnd, afterWrite_size, afterWrite_data]
  constructor
  · rintro ⟨hsize, hkeep⟩
    refine ⟨?_, ?_⟩
    · by_cases h0 : n.toNat = 0
      · rw [if_pos h0] at hsize ⊢
        omega
      · rw [if_neg h0] at hsize ⊢
        omega
    · intro i hi hlt hout
      rw [← hinside i hi, (hkeep _ hlt hout).2]
  · rintro ⟨hend, hsame⟩
    have hsize : (offset.toNat + n.toNat) % 2 ^ 64 =
        if n.toNat = 0 then (v.node ino).size.toNat
        else max (v.node ino).size.toNat (offset.toNat + n.toNat) := by
      by_cases h0 : n.toNat = 0
      · rw [if_pos h0] at hend ⊢
        omega
      · rw [if_neg h0] at hend ⊢
        omega
    refine ⟨hsize, ?_⟩
    intro p hp hout
    refine ⟨?_, ?_⟩
    · rw [hsize]
      split <;> omega
    · by_cases hw : p < offset.toNat % 2 ^ 32 ∨ offset.toNat % 2 ^ 32 + n.toNat ≤ p
      · exact overwrite_outside (by omega)
      · obtain ⟨i, rfl⟩ := Nat.exists_eq_add_of_le (show offset.toNat % 2 ^ 32 ≤ p by omega)
        have hi : i < n.toNat := by omega
        have hb := hsame i hi hp hout
        rw [← hinside i hi] at hb
        exact Option.some.inj hb

end Iff

/-- A write that succeeds only grows the file exactly when it reaches the file's end. -/
theorem extfskWrite_growsOnly {σ : Type} {fs : Ext2fs σ} {V : View σ} (hL : Lawful fs V)
    {s s' : σ} {ino offset : UInt64} {buf : List UInt8} {n : UInt32}
    (h : extfskWrite fs ino offset buf s = .ok n s') :
    GrowsOnly (V.volume s) (V.volume s') ino.toUInt32 offset.toNat n.toNat ↔
      ReachesEnd (V.volume s) ino.toUInt32 offset.toNat buf (buf.length % 2 ^ 32) := by
  obtain ⟨hn, hv⟩ := (extfskWrite_spec hL (V.volume s) ino offset buf).ok rfl h
  have hw : n.toNat = buf.length % 2 ^ 32 := by rw [hn, UInt32.toNat_ofNat']
  have hle : n.toNat ≤ buf.length := by rw [hw]; exact Nat.mod_le _ _
  rw [hv.eq, ← hw]
  exact growsOnly_iff hle

/-- Appending two bytes to a file of three. -/
theorem append_growsOnly :
    ∃ s', extfskWrite (refLibrary fun _ => []) 12 3 [1, 2] (oneFile 12 3 fun _ => 0) = .ok 2 s' ∧
      GrowsOnly (oneFile 12 3 fun _ => 0).volume s'.volume 12 3 2 := by
  obtain ⟨s', hrun⟩ : ∃ s', extfskWrite (refLibrary fun _ => []) 12 3 [1, 2]
      (oneFile 12 3 fun _ => 0) = .ok 2 s' := ⟨_, rfl⟩
  have hiff := extfskWrite_growsOnly (refLibrary_lawful _) hrun
  refine ⟨s', hrun, hiff.mpr ⟨by decide, ?_⟩⟩
  intro i _ hold _
  -- the file ends where the write starts
  have hend : 3 % 2 ^ 32 + i < 3 := hold
  omega

/-- Writing ten bytes at the start of a file of a hundred leaves a file of ten. -/
theorem overwrite_shrinks :
    Lawful (refLibrary fun _ => []) RefState.view ∧
    ∃ s', extfskWrite (refLibrary fun _ => []) 12 0 (List.replicate 10 1)
        (oneFile 12 100 fun _ => 0) = .ok 10 s' ∧
      (s'.volume.node 12).size = 10 ∧ ¬ GrowsOnly (oneFile 12 100 fun _ => 0).volume s'.volume 12 0 10 := by
  refine ⟨refLibrary_lawful _, _, rfl, rfl, ?_⟩
  rintro ⟨hsize, _⟩
  exact absurd hsize (by decide)

end Ext
end Usbrw
