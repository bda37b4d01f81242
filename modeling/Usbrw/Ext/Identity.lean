import Usbrw.Ext.Loader

/-!
# Ext.Identity

The container ID and the volume ID of an ext volume. Both are taken from byte 104 of a buffer that
begins at byte 0 of the device, while `s_uuid` is at byte 104 of the superblock, which begins at byte
1024.

* `SameOutside`  — equal but for the six bits that `uuid(fromSuperblock:)` forces.
* `Mounting`     — a resource that holds one image when it is probed and when it is loaded.
* `identity_iff` — the IDs are those of `s_uuid` when the boot sector happens to agree with it.
-/

namespace Usbrw
namespace Ext

open Block Shim Region

/-- The bits of byte `i` that `uuid(fromSuperblock:)` keeps. -/
def keptBits (i : Nat) : UInt8 := if i = 6 then 0x0F else if i = 8 then 0x3F else 0xFF

def SameOutside (a b : List UInt8) : Prop :=
  ∀ i < 16, a.getD i 0 &&& keptBits i = b.getD i 0 &&& keptBits i

instance (a b : List UInt8) : Decidable (SameOutside a b) :=
  inferInstanceAs (Decidable (∀ i < 16, _))

theorem forced_and {x m c : UInt8} (h : c &&& m = 0) : (x &&& m ||| c) &&& m = x &&& m := by
  apply UInt8.toBitVec_inj.mp
  have hbits := congrArg UInt8.toBitVec h
  ext i hi
  have hbit := congrArg (fun v => v.getLsbD i) hbits
  simp only [UInt8.toBitVec_and, UInt8.toBitVec_or, BitVec.getElem_and, BitVec.getElem_or,
    BitVec.getLsbD_eq_getElem hi] at hbit ⊢
  revert hbit
  cases x.toBitVec[i] <;> cases m.toBitVec[i] <;> cases c.toBitVec[i] <;> simp

theorem forced_inj {x y m c : UInt8} (h : c &&& m = 0) :
    x &&& m ||| c = y &&& m ||| c ↔ x &&& m = y &&& m := by
  constructor
  · intro e
    rw [← forced_and (x := x) h, e, forced_and h]
  · intro e
    rw [e]

theorem getD_uuidFromSuperblock {b : List UInt8} (hb : b.length = 16) (i : Nat) :
    (uuidFromSuperblock b).getD i 0 =
      if i = 6 then b.getD 6 0 &&& 0x0F ||| 0x40
      else if i = 8 then b.getD 8 0 &&& 0x3F ||| 0x80 else b.getD i 0 := by
  simp only [uuidFromSuperblock, List.getD_eq_getElem?_getD, List.getElem?_set, List.length_set, hb]
  by_cases h6 : i = 6
  · simp [h6]
  · by_cases h8 : i = 8
    · simp [h8]
    · simp [h6, h8, Ne.symm h6, Ne.symm h8]

/-- Two fields give one ID exactly when they agree outside the forced bits. -/
theorem uuidFromSuperblock_eq_iff {a b : List UInt8} (ha : a.length = 16) (hb : b.length = 16) :
    uuidFromSuperblock a = uuidFromSuperblock b ↔ SameOutside a b := by
  have hbyte : ∀ i, (uuidFromSuperblock a).getD i 0 = (uuidFromSuperblock b).getD i 0 ↔
      a.getD i 0 &&& keptBits i = b.getD i 0 &&& keptBits i := by
    intro i
    rw [getD_uuidFromSuperblock ha, getD_uuidFromSuperblock hb, keptBits]
    by_cases h6 : i = 6
    · simp only [h6, if_true]
      exact forced_inj (by decide)
    · by_cases h8 : i = 8
      · simp only [h8, if_true]
        exact forced_inj (by decide)
      · have hall : ∀ x : UInt8, x &&& 0xFF = x := fun x => UInt8.and_neg_one
        simp only [h6, h8, if_false, hall]
  have hla : (uuidFromSuperblock a).length = 16 := by simp [uuidFromSuperblock, ha]
  have hlb : (uuidFromSuperblock b).length = 16 := by simp [uuidFromSuperblock, hb]
  constructor
  · intro h i _
    rw [← hbyte, h]
  · intro h
    apply List.ext_getElem (hla.trans hlb.symm)
    intro i h1 h2
    have hi := (hbyte i).mpr (h i (by omega))
    simpa [List.getD_eq_getElem?_getD, List.getElem?_eq_getElem h1, List.getElem?_eq_getElem h2]
      using hi

/-- A read of `len` bytes from the start of the device delivers the image. -/
def Delivers {σ : Type} (d : FSBlockDevice σ) (img : Nat → UInt8) (len : Nat) (w : σ) : Prop :=
  (d.read w 0 len).2 = .ok (slice img 0 len)

/-- The holder after `extfsk_open` made its calls. -/
def openedHolder {ι σ : Type} (res : ι → FSBlockDevice σ) (forceReadOnly : Bool)
    (h : BlockIOHolder ι σ) (b : ι) (calls : List IoCall) : BlockIOHolder ι σ :=
  calls.foldl (IoCall.run (loaderIo res b ((res b).isWritable && !forceReadOnly))) (h.setup b)

/-- The resource `b` delivers the 2048 bytes of `img` that the probe asks for and accepts, and the
first 1024 of them when its volume reads its ID. -/
structure Mounting (ι σ : Type) where
  res : ι → FSBlockDevice σ
  b : ι
  img : Nat → UInt8
  probed : σ
  probeBuffer : List UInt8
  holder : BlockIOHolder ι σ
  forceReadOnly : Bool
  calls : List IoCall
  loadBuffer : List UInt8
  delivered : Delivers (res b) img 2048 probed
  delivers : Delivers (res b) img 1024 (openedHolder res forceReadOnly holder b calls).world
  accepted : superblockOk (slice img 0 2048) = true

/-- The field `s_uuid` of the superblock. -/
def sUuid (img : Nat → UInt8) : List UInt8 := slice img (1024 + 104) 16

namespace Mounting

variable {ι σ ι' σ' : Type}

def containerID (m : Mounting ι σ) : Option (List UInt8) :=
  (probeResource m.res m.b m.probeBuffer m.probed).2

def volumeID (m : Mounting ι σ) : Option (List UInt8) :=
  (loadResource m.res m.forceReadOnly m.holder m.b m.calls true m.loadBuffer).2.bind
    EXTVolume.volumeID

/-- Both IDs are that of `s_uuid`. -/
def Identified (m : Mounting ι σ) : Prop :=
  m.containerID = some (uuidFromSuperblock (sUuid m.img)) ∧
    m.volumeID = some (uuidFromSuperblock (sUuid m.img))

/-- Bytes 104 to 119 of the device agree with `s_uuid`. -/
def BootAgrees (m : Mounting ι σ) : Prop := SameOutside (slice m.img 104 16) (sUuid m.img)

theorem getD_filled (old : List UInt8) {bs : List UInt8} {i : Nat} (h : i < bs.length) :
    (filled old bs).getD i 0 = bs.getD i 0 := by
  simp [filled, List.getD_eq_getElem?_getD, List.getElem?_append_left h]

/-- A full read leaves nothing of the old buffer in the superblock. -/
theorem superblockOk_filled (old : List UInt8) {bs : List UInt8} (h : bs.length = 2048) :
    superblockOk (filled old bs) = superblockOk bs := by
  have h16 : ∀ i, i + 1 < 2048 → le16 (filled old bs) i = le16 bs i := by
    intro i hi
    rw [le16, getD_filled old (by omega), getD_filled old (by omega), le16]
  have h32 : ∀ i, i + 3 < 2048 → le32 (filled old bs) i = le32 bs i := by
    intro i hi
    rw [le32, h16 i (by omega), h16 (i + 2) (by omega), le32]
  rw [superblockOk, h16 _ (by omega), h32 _ (by omega), h32 _ (by omega), h32 _ (by omega),
    superblockOk]

theorem getD_slice (img : Nat → UInt8) {n i : Nat} (h : i < n) :
    (slice img 0 n).getD i 0 = img i := by
  rw [List.getD_eq_getElem?_getD, getElem?_slice h]
  simp

theorem range_slice (img : Nat → UInt8) {n : Nat} (hn : 120 ≤ n) (old : List UInt8) :
    ((List.range 16).map fun i => (filled old (slice img 0 n)).getD (104 + i) 0) =
      slice img 104 16 := by
  show _ = (List.range 16).map fun i => img (104 + i)
  apply List.map_congr_left
  intro i hi
  have hlt : 104 + i < n := by
    have := List.mem_range.mp hi
    omega
  rw [getD_filled old (by rwa [length_slice]), getD_slice img hlt]

theorem containerID_eq (m : Mounting ι σ) :
    m.containerID = some (uuidFromSuperblock (slice m.img 104 16)) := by
  have hread := m.delivered
  rw [Delivers] at hread
  have hok : superblockOk (filled m.probeBuffer (slice m.img 0 2048)) = true := by
    rw [superblockOk_filled m.probeBuffer (length_slice ..), m.accepted]
  unfold containerID probeResource
  rcases hr : (m.res m.b).read m.probed 0 2048 with ⟨w, r⟩
  rw [hr] at hread
  cases hread
  simp only [hok, if_true, range_slice m.img (show 120 ≤ 2048 by omega)]

theorem volumeID_eq (m : Mounting ι σ) :
    m.volumeID = some (uuidFromSuperblock (slice m.img 104 16)) := by
  have hread := m.delivers
  simp only [Delivers, openedHolder] at hread
  unfold volumeID loadResource readVolumeID
  simp only [if_true]
  rcases hr : (m.res m.b).read _ 0 1024 with ⟨w, r⟩
  rw [hr] at hread
  cases hread
  simp only [range_slice m.img (show 120 ≤ 1024 by omega), Option.bind_some]

instance (m : Mounting ι σ) : Decidable m.BootAgrees :=
  inferInstanceAs (Decidable (SameOutside _ _))

theorem identified_iff (m : Mounting ι σ) : m.Identified ↔ m.BootAgrees := by
  have hlen : ∀ a, (slice m.img a 16).length = 16 := fun a => length_slice ..
  show _ ↔ SameOutside (slice m.img 104 16) (slice m.img (1024 + 104) 16)
  rw [← uuidFromSuperblock_eq_iff (hlen _) (hlen _), Identified, containerID_eq,
    volumeID_eq, and_self, Option.some.injEq]
  rfl

end Mounting

/-- The IDs of two volumes are those of their superblocks, and so tell the volumes apart as `s_uuid`
does, exactly when both boot sectors agree with `s_uuid`. -/
theorem identity_iff {ι σ ι' σ' : Type} (m : Mounting ι σ) (m' : Mounting ι' σ') :
    (m.Identified ∧ m'.Identified ∧
      (m.containerID = m'.containerID ↔ SameOutside (sUuid m.img) (sUuid m'.img)) ∧
      (m.volumeID = m'.volumeID ↔ SameOutside (sUuid m.img) (sUuid m'.img))) ↔
    m.BootAgrees ∧ m'.BootAgrees := by
  rw [← m.identified_iff, ← m'.identified_iff]
  constructor
  · rintro ⟨h, h', _⟩
    exact ⟨h, h'⟩
  · rintro ⟨h, h'⟩
    have hsame := uuidFromSuperblock_eq_iff (a := sUuid m.img) (b := sUuid m'.img)
      (length_slice ..) (length_slice ..)
    refine ⟨h, h', ?_, ?_⟩
    · rw [h.1, h'.1, Option.some.injEq, hsame]
    · rw [h.2, h'.2, Option.some.injEq, hsame]

/-- A superblock with one inode and one block, whose `s_uuid` begins with `u`; all else is 0. -/
def bareSuperblock (u : UInt8) : Nat → UInt8 := fun p =>
  if p = 1024 then 1 else if p = 1028 then 1 else if p = 1080 then 0x53
  else if p = 1081 then 0xEF else if p = 1128 then u else 0

/-- A resource that only reads. -/
def readOnlyDisk (img : Nat → UInt8) : FSBlockDevice Unit where
  metadataRead := fun s off len => (s, .ok (slice img off.toNatClampNeg len))
  delayedMetadataWrite := fun s _ _ => (s, .error .other)
  read := fun s off len => (s, .ok (slice img off.toNatClampNeg len))
  write := fun s _ _ => (s, .error .other)
  metadataFlush := none
  blockSize := 512
  blockCount := 8
  isWritable := false

theorem bareSuperblock_ok (u : UInt8) :
    superblockOk (slice (bareSuperblock u) 0 2048) = true := by
  have h16 : ∀ i, i + 1 < 2048 → le16 (slice (bareSuperblock u) 0 2048) i =
      (bareSuperblock u i).toUInt16 ||| (bareSuperblock u (i + 1)).toUInt16 <<< 8 := by
    intro i hi
    rw [le16, Mounting.getD_slice _ (by omega), Mounting.getD_slice _ hi]
  rw [superblockOk, le32, le32, le32, h16 _ (by omega), h16 _ (by omega), h16 _ (by omega),
    h16 _ (by omega), h16 _ (by omega), h16 _ (by omega), h16 _ (by omega)]
  simp only [bareSuperblock, Nat.reduceAdd, Nat.reduceEqDiff, if_true, if_false]
  decide

def bareMounting (u : UInt8) : Mounting Unit Unit where
  res := fun _ => readOnlyDisk (bareSuperblock u)
  b := ()
  img := bareSuperblock u
  probed := ()
  probeBuffer := []
  holder := ⟨none, ()⟩
  forceReadOnly := false
  calls := []
  loadBuffer := []
  delivered := rfl
  delivers := rfl
  accepted := bareSuperblock_ok u

/-- A volume whose `s_uuid` is zero, as the boot sector is. -/
example : (bareMounting 0).Identified := (bareMounting 0).identified_iff.mpr (by decide)

/-- Two volumes with different `s_uuid` and equal boot sectors get one ID, that of neither. -/
theorem one_id_for_two :
    ¬ (bareMounting 7).Identified ∧ ¬ (bareMounting 9).Identified ∧
      (bareMounting 7).containerID = (bareMounting 9).containerID ∧
      (bareMounting 7).volumeID = (bareMounting 9).volumeID ∧
      ¬ SameOutside (sUuid (bareMounting 7).img) (sUuid (bareMounting 9).img) := by
  have hboot : slice (bareSuperblock 7) 104 16 = slice (bareSuperblock 9) 104 16 := by decide
  simp only [Mounting.identified_iff, Mounting.containerID_eq, Mounting.volumeID_eq]
  refine ⟨by decide, by decide, ?_, ?_, by decide⟩
  · exact congrArg (fun b => some (uuidFromSuperblock b)) hboot
  · exact congrArg (fun b => some (uuidFromSuperblock b)) hboot

end Ext
end Usbrw
