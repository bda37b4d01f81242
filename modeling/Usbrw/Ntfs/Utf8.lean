import Mathlib.Data.List.Basic
import Usbrw.Errno
import Usbrw.Ntfs.Library

/-!
# Ntfs.Utf8

Names between UTF-16 and UTF-8, as `ntfs_ucstombs` and `ntfs_mbstoucs` convert them where no unit is
half of a surrogate pair. Each is the other's inverse.
-/

namespace Usbrw
namespace Ntfs

def unitChar (u : UInt16) : Char := Char.ofNat u.toNat

def charUnit (c : Char) : UInt16 := c.toNat.toUInt16

/-- UTF-8 for units that are characters by themselves. -/
def utf8Ucstombs (name : List UInt16) : Option (List UInt8) :=
  if name.all fun u => u.toNat.isValidChar then
    some ((name.map unitChar).flatMap String.utf8EncodeChar)
  else none

def utf8Mbstoucs (bytes : List UInt8) : Except Errno (List UInt16) :=
  match bytes.toByteArray.utf8Decode? with
  | none => .error ⟨EILSEQ, EILSEQ_pos⟩
  | some cs =>
    if cs.toList.all fun c => c.toNat < 0x10000 then .ok (cs.toList.map charUnit)
    else .error ⟨EILSEQ, EILSEQ_pos⟩

theorem toNat_unitChar {u : UInt16} (h : u.toNat.isValidChar) : (unitChar u).toNat = u.toNat := by
  rw [unitChar, Char.ofNat, dif_pos h]
  exact UInt32.toNat_ofNatLT

theorem charUnit_unitChar {u : UInt16} (h : u.toNat.isValidChar) : charUnit (unitChar u) = u := by
  rw [charUnit, toNat_unitChar h]
  exact UInt16.ofNat_toNat

theorem toNat_charUnit {c : Char} (h : c.toNat < 0x10000) : (charUnit c).toNat = c.toNat :=
  UInt16.toNat_ofNat_of_lt' h

theorem unitChar_charUnit {c : Char} (h : c.toNat < 0x10000) : unitChar (charUnit c) = c := by
  rw [unitChar, toNat_charUnit h, Char.ofNat_toNat]

theorem map_map_self {α β : Type} {f : α → β} {g : β → α} {xs : List α}
    (h : ∀ x ∈ xs, g (f x) = x) : (xs.map f).map g = xs := by
  rw [List.map_map]
  exact (List.map_congr_left h).trans (List.map_id xs)

theorem utf8Mbstoucs_encode (cs : List Char) :
    utf8Mbstoucs (cs.flatMap String.utf8EncodeChar) =
      if cs.all fun c => c.toNat < 0x10000 then .ok (cs.map charUnit)
      else .error ⟨EILSEQ, EILSEQ_pos⟩ := by
  have hdecode : (cs.flatMap String.utf8EncodeChar).toByteArray.utf8Decode? = some cs.toArray :=
    List.utf8Decode?_utf8Encode
  simp only [utf8Mbstoucs, hdecode]

theorem utf8_inverse (name : List UInt16) (mbs : List UInt8) :
    utf8Ucstombs name = some mbs ↔ utf8Mbstoucs mbs = .ok name := by
  constructor
  · intro h
    unfold utf8Ucstombs at h
    by_cases hvalid : name.all fun u => u.toNat.isValidChar
    · rw [if_pos hvalid] at h
      simp only [List.all_eq_true, decide_eq_true_eq] at hvalid
      have hsmall : (name.map unitChar).all fun c => c.toNat < 0x10000 := by
        simp only [List.all_eq_true, decide_eq_true_eq]
        intro c hc
        obtain ⟨u, hu, rfl⟩ := List.mem_map.mp hc
        rw [toNat_unitChar (hvalid u hu)]
        exact u.toNat_lt
      rw [← Option.some.inj h, utf8Mbstoucs_encode, if_pos hsmall,
        map_map_self fun u hu => charUnit_unitChar (hvalid u hu)]
    · rw [if_neg hvalid] at h
      cases h
  · intro h
    have hsome : mbs.toByteArray.utf8Decode?.isSome = true := by
      unfold utf8Mbstoucs at h
      cases hd : mbs.toByteArray.utf8Decode? with
      | none => simp [hd] at h
      | some cs => rfl
    obtain ⟨cs, hcs⟩ := ByteArray.isSome_utf8Decode?_iff.mp hsome
    have hbytes : mbs = cs.flatMap String.utf8EncodeChar := List.toByteArray_inj.mp hcs
    rw [hbytes, utf8Mbstoucs_encode] at h
    by_cases hsmall : cs.all fun c => c.toNat < 0x10000
    · rw [if_pos hsmall] at h
      simp only [List.all_eq_true, decide_eq_true_eq] at hsmall
      have hvalid : (cs.map charUnit).all fun u => u.toNat.isValidChar := by
        simp only [List.all_eq_true, decide_eq_true_eq]
        intro u hu
        obtain ⟨c, hc, rfl⟩ := List.mem_map.mp hu
        rw [toNat_charUnit (hsmall c hc)]
        exact c.valid
      rw [← Except.ok.inj h, utf8Ucstombs, if_pos hvalid,
        map_map_self fun c hc => unitChar_charUnit (hsmall c hc), hbytes]
    · rw [if_neg hsmall] at h
      cases h

theorem utf8Ucstombs_cons {u : UInt16} (h : u.toNat.isValidChar) (name : List UInt16) :
    utf8Ucstombs (u :: name) =
      (utf8Ucstombs name).map (String.utf8EncodeChar (unitChar u) ++ ·) := by
  unfold utf8Ucstombs
  rw [List.all_cons, decide_eq_true h, Bool.true_and]
  by_cases hvalid : name.all fun u => u.toNat.isValidChar
  · rw [if_pos hvalid, if_pos hvalid]
    rfl
  · rw [if_neg hvalid, if_neg hvalid]
    rfl

theorem ascii_converts :
    utf8Ucstombs [0x61] = some [0x61] ∧ utf8Ucstombs [0x62] = some [0x62] := by decide

end Ntfs
end Usbrw
