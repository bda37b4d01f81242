import Usbrw.Ext.File
import Usbrw.Ext.Reference

/-!
# Ext.Addressing

Which bytes of a file `extfsk_read` and `extfsk_write` reach. The volume admits files of up to
`maximumFileSize` bytes, but the library's position is an `ext2_off_t` of 32 bits.

* `ReadsAt`, `WritesAt` — a call acts on the bytes from its offset on.
* `AddressesExactly`    — every call at the offset does, whatever library, file and length.
* `addressesExactly_iff` — which is so exactly below 2^32.
-/

namespace Usbrw
namespace Ext

open Call Region

def maximumFileSize : Nat := 16 <<< 40

section

variable {σ : Type} (fs : Ext2fs σ) (V : View σ) (s : σ) (ino : UInt32) (offset : UInt64)

def ReadsAt (len : UInt64) : Prop :=
  ∀ bs s', extfskRead fs ino.toUInt64 offset len s = .ok bs s' →
    bs = (V.volume s).bytesAt ino offset.toNat len.toNat

/-- The bytes are stored from the offset on, all of them unless the call fails, and no other byte
of any file changes. -/
def WritesAt (buf : List UInt8) : Prop :=
  match extfskWrite fs ino.toUInt64 offset buf s with
  | .ok n s' => n.toNat = buf.length ∧
      (V.volume s').data = ((V.volume s).store ino offset.toNat buf).data
  | .error _ s' => PartlyStored (V.volume s) ino offset.toNat buf buf.length (V.volume s')

end

def AddressesExactly (offset : UInt64) : Prop :=
  ∀ (σ : Type) (fs : Ext2fs σ) (V : View σ), Lawful fs V → ∀ (s : σ) (ino : UInt32),
    ((V.volume s).node ino).size.toNat ≤ maximumFileSize →
    (∀ len : UInt64, len.toNat < 2 ^ 32 → ReadsAt fs V s ino offset len) ∧
      ∀ buf : List UInt8, buf.length < 2 ^ 32 → WritesAt fs V s ino offset buf

section Exact

variable {σ : Type} {fs : Ext2fs σ} {V : View σ} {offset : UInt64}

theorem readsAt_of_lt (hL : Lawful fs V) (h : offset.toNat < 2 ^ 32) (s : σ) (ino : UInt32)
    {len : UInt64} (hlen : len.toNat < 2 ^ 32) : ReadsAt fs V s ino offset len := by
  intro bs s' hrun
  obtain ⟨hbs, _⟩ := (extfskRead_spec hL (V.volume s) ino.toUInt64 offset len).ok rfl hrun
  have ho : offset.toUInt32.toNat = offset.toNat := by
    rw [UInt64.toNat_toUInt32, Nat.mod_eq_of_lt h]
  have hl : len.toUInt32.toNat = len.toNat := by
    rw [UInt64.toNat_toUInt32, Nat.mod_eq_of_lt hlen]
  rw [hbs, ho, hl, UInt32.toUInt32_toUInt64]

theorem writesAt_of_lt (hL : Lawful fs V) (h : offset.toNat < 2 ^ 32) (s : σ) (ino : UInt32)
    {buf : List UInt8} (hlen : buf.length < 2 ^ 32) : WritesAt fs V s ino offset buf := by
  have ho : offset.toUInt32.toNat = offset.toNat := by
    rw [UInt64.toNat_toUInt32, Nat.mod_eq_of_lt h]
  have hn : (UInt32.ofNat buf.length).toNat = buf.length := by
    rw [UInt32.toNat_ofNat', Nat.mod_eq_of_lt hlen]
  have hspec := extfskWrite_spec hL (V.volume s) ino.toUInt64 offset buf
  rw [ho, hn, UInt32.toUInt32_toUInt64] at hspec
  unfold WritesAt
  cases hrun : extfskWrite fs ino.toUInt64 offset buf s with
  | ok n s' =>
    obtain ⟨rfl, hv⟩ := hspec.ok rfl hrun
    refine ⟨hn, ?_⟩
    rw [hv.eq, hn, List.take_length, Volume.resize_data]
  | error e s' => exact hspec.error rfl hrun

end Exact

/-- A file of the largest size that is zero except for a one at `offset`. -/
def oneByte (offset : Nat) : RefState :=
  oneFile 12 (UInt64.ofNat maximumFileSize) fun p => if p = offset then 1 else 0

theorem oneByte_bytesAt (offset pos : Nat) : (oneByte offset).volume.bytesAt 12 pos 1 =
    if pos < maximumFileSize then [if pos = offset then 1 else 0] else [] := by
  have hsize : (((oneByte offset).volume.node 12).size.toNat) = maximumFileSize := rfl
  rw [Volume.bytesAt, hsize]
  by_cases h : pos < maximumFileSize
  · rw [if_pos h, Nat.min_eq_left (by omega)]
    rfl
  · rw [if_neg h, show maximumFileSize - pos = 0 by omega]
    rfl

/-- A read of one byte past 4 GiB returns the byte 4 GiB or more before it. -/
theorem not_readsAt {offset : UInt64} (h : 2 ^ 32 ≤ offset.toNat) :
    ¬ ReadsAt (refLibrary fun _ => []) RefState.view (oneByte offset.toNat) 12 offset 1 := by
  intro hreads
  obtain ⟨bs, s', hrun⟩ : ∃ bs s', extfskRead (refLibrary fun _ => []) 12 offset 1
      (oneByte offset.toNat) = .ok bs s' := ⟨_, _, rfl⟩
  have hspec := (extfskRead_spec (refLibrary_lawful _) _ 12 offset 1).ok rfl hrun
  have hgot : bs = (oneByte offset.toNat).volume.bytesAt 12 offset.toUInt32.toNat 1 := hspec.1
  have hexp : bs = (oneByte offset.toNat).volume.bytesAt 12 offset.toNat 1 := hreads bs s' hrun
  have hpos := offset.toUInt32.toNat_lt
  have hlow : offset.toUInt32.toNat < maximumFileSize := Nat.lt_trans hpos (by decide)
  have hne : offset.toUInt32.toNat ≠ offset.toNat := by omega
  rw [hgot, oneByte_bytesAt, oneByte_bytesAt, if_pos hlow, if_neg hne, if_pos rfl] at hexp
  split at hexp <;> simp at hexp

/-- In the file whose only byte other than 0 is at 4 GiB, a read of that byte returns byte 0. -/
theorem read_past_4GiB :
    Lawful (refLibrary fun _ => []) RefState.view ∧
    (∃ s', extfskRead (refLibrary fun _ => []) 12 4294967296 1 (oneByte (2 ^ 32)) = .ok [0] s') ∧
      (oneByte (2 ^ 32)).volume.bytesAt 12 (2 ^ 32) 1 = [1] ∧ ¬ AddressesExactly 4294967296 := by
  refine ⟨refLibrary_lawful _, ⟨_, rfl⟩, by rw [oneByte_bytesAt]; decide, ?_⟩
  intro h
  obtain ⟨hread, _⟩ := h RefState (refLibrary fun _ => []) RefState.view (refLibrary_lawful _)
    (oneByte (2 ^ 32)) 12 (Nat.le_refl maximumFileSize)
  exact not_readsAt (by decide) (hread 1 (by decide))

/-- The calls act at their offset, whatever the library and the file, exactly below 4 GiB. -/
theorem addressesExactly_iff (offset : UInt64) :
    AddressesExactly offset ↔ offset.toNat < 2 ^ 32 := by
  constructor
  · intro h
    by_contra hge
    obtain ⟨hread, _⟩ := h RefState (refLibrary fun _ => []) RefState.view (refLibrary_lawful _)
      (oneByte offset.toNat) 12 (Nat.le_refl maximumFileSize)
    exact not_readsAt (by omega) (hread 1 (by decide))
  · intro h σ fs V hL s ino _
    exact ⟨fun len hlen => readsAt_of_lt hL h s ino hlen,
      fun buf hlen => writesAt_of_lt hL h s ino hlen⟩

end Ext
end Usbrw
