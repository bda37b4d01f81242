import Usbrw.Ext.Alignment
import Usbrw.Ext.Identity
import Usbrw.Shim.FlatDevice

/-!
# Dispatch

`NTFSFileSystem.swift`, the file system of the extension. What has no boot sector of NTFS goes on to
the ext engine, when it is probed and once more when it is loaded.

* `probeResource`, `mountVolume`, `loadResource` — the code, down to the engine and the identifiers.
* `Shows`       — the first 1024 bytes of a resource; any read of it may fail.
* `Mounted`     — a resource that was probed and then loaded.
* `probed_by`, `loaded_by` — what an engine and an ID say about the boot sector.
* `mounted_identity` — one engine takes the resource both times, and what the IDs have in common.
-/

namespace Usbrw
namespace Dispatch

open Block Ext Region Service Shim

variable {σ σ' : Type}

inductive Engine where
  | ntfs
  | ext
  deriving DecidableEq

/-- `"NTFS    "` -/
def oemID : List UInt8 := [0x4E, 0x54, 0x46, 0x53, 0x20, 0x20, 0x20, 0x20]

def isNTFS (boot : List UInt8) : Bool := 11 ≤ boot.length && (boot.drop 3).take 8 == oemID

/-- The serial number, as the bytes that `littleEndian` leaves it. -/
def serial (boot : List UInt8) : List UInt8 := (boot.drop 0x48).take 8

/-- `uuid(fromSerial:)` -/
def uuidFromSerial (serial : List UInt8) : List UInt8 :=
  let bytes := serial ++ List.replicate 8 0
  let bytes := bytes.set 6 ((bytes.getD 6 0 &&& 0x0F) ||| 0x40)
  bytes.set 8 ((bytes.getD 8 0 &&& 0x3F) ||| 0x80)

/-- The ID of an NTFS volume, from that of its container. -/
def volumeUUID (u : List UInt8) : List UInt8 := u.set 15 (u.getD 15 0 ^^^ 0x5A)

/-- The volume ID that goes with a container ID. -/
def Engine.volumeID : Engine → List UInt8 → List UInt8
  | .ntfs, u => volumeUUID u
  | .ext, u => u

section Code

variable (d : FSBlockDevice σ)

/-- The engine that finds its volume, and the container ID. `init` of the device has read the serial
number before; `old` is the fresh buffer of the ext engine. -/
def probeResource (old : List UInt8) (w : σ) : σ × Option (Engine × List UInt8) :=
  match readBootSector d ⟨(bootSerial d w).1, false⟩ with
  | (nd, boot) =>
    match boot.filter isNTFS with
    | some boot => (nd.resource, some (.ntfs, uuidFromSerial (serial boot)))
    | none =>
      match Ext.probeResource (fun _ : Unit => d) () old nd.resource with
      | (w, id) => (w, id.map fun id => (.ext, id))

/-- What the two engines do with a resource that they open: `readonly` and `forceReadOnly` are what
the settings say, `ops` and `calls` what the libraries ask of it up to the name of the volume,
`opened` is whether that succeeds, and `old` the fresh buffer of the ext engine. -/
structure Opening where
  readonly : Bool
  forceReadOnly : Bool
  ops : List DeviceOp
  calls : List IoCall
  opened : Bool
  old : List UInt8

/-- The device while the volume is opened. -/
def Opening.open (o : Opening) (nd : NTFSBlockDevice σ) : NTFSBlockDevice σ :=
  after (deviceStep (blockio (some d.toBlockResource) o.readonly d.blockSize d.blockCount)) nd o.ops

/-- The volume ID: a random one, here none, when the boot sector cannot be read again. -/
def mountVolume (o : Opening) (nd : NTFSBlockDevice σ) :
    NTFSBlockDevice σ × Option (Option (List UInt8)) :=
  let nd := if o.readonly then nd else { nd with resource := (bootSerial d nd.resource).1 }
  let nd := o.open d nd
  if o.opened then
    match readBootSector d nd with
    | (nd, boot) => (nd, some (boot.map fun boot => volumeUUID (uuidFromSerial (serial boot))))
  else (nd, none)

/-- The engine that makes the volume, and the volume ID. -/
def loadResource (o : Opening) (h : BlockIOHolder Unit σ) :
    BlockIOHolder Unit σ × Option (Engine × Option (List UInt8)) :=
  match readBootSector d ⟨(bootSerial d h.world).1, false⟩ with
  | (nd, boot) =>
    if boot.any isNTFS then
      match mountVolume d o nd with
      | (nd, id) => ({ h with world := nd.resource }, id.map fun id => (.ntfs, id))
    else
      match Ext.loadResource (fun _ : Unit => d) o.forceReadOnly { h with world := nd.resource } ()
        o.calls o.opened o.old with
      | (h, v) => (h, v.map fun v => (.ext, v.volumeID))

/-- The boot sector as it is read first of all. -/
def firstRead (w : σ) : Option (List UInt8) := (readBootSector d ⟨(bootSerial d w).1, false⟩).2

end Code

/-! ## A resource that keeps its first bytes -/

/-- `bs` is what a read of `len` bytes from the start of an image gives that begins with `boot`. -/
def Begins (boot : Nat → UInt8) (len : Nat) (bs : List UInt8) : Prop :=
  ∃ img : Nat → UInt8, (∀ p < 1024, img p = boot p) ∧ bs = slice img 0 len

/-- In the states of `I` the resource begins with `boot`, and reading and flushing keep to them. -/
structure Shows (d : FSBlockDevice σ) (boot : Nat → UInt8) (I : σ → Prop) : Prop where
  read : ∀ w len, I w →
    I (d.read w 0 len).1 ∧ ∀ bs, (d.read w 0 len).2 = .ok bs → Begins boot len bs
  metadataRead : ∀ w len, I w →
    I (d.metadataRead w 0 len).1 ∧ ∀ bs, (d.metadataRead w 0 len).2 = .ok bs → Begins boot len bs
  flush : ∀ w, I w → I (flushResource d.toBlockResource w).1

/-- Opening a volume keeps to them too: neither library writes to its boot sector. -/
structure Opening.Keeps (o : Opening) (d : FSBlockDevice σ) (I : σ → Prop) : Prop where
  ops : ∀ nd : NTFSBlockDevice σ, I nd.resource → I (o.open d nd).resource
  calls : ∀ h, I h.world → I (openedHolder (fun _ : Unit => d) o.forceReadOnly h () o.calls).world

theorem Begins.window {boot : Nat → UInt8} {len a n : Nat} {bs : List UInt8}
    (h : Begins boot len bs) (hlen : a + n ≤ len) (hn : a + n ≤ 1024) :
    (bs.drop a).take n = slice boot a n := by
  obtain ⟨img, himg, rfl⟩ := h
  rw [window_slice hlen, Nat.zero_add]
  exact slice_congr fun p _ hp => himg p (by omega)

theorem Begins.uuid {boot : Nat → UInt8} {len : Nat} {bs old : List UInt8} (h : Begins boot len bs)
    (hlen : 120 ≤ len) :
    ((List.range 16).map fun i => (filled old bs).getD (104 + i) 0) = slice boot 104 16 := by
  obtain ⟨img, himg, rfl⟩ := h
  rw [Mounting.range_slice img hlen old]
  exact slice_congr fun p _ hp => himg p (by omega)

section Reads

variable {d : FSBlockDevice σ} {boot : Nat → UInt8} {I : σ → Prop}

theorem Shows.bootSerial (hS : Shows d boot I) {w : σ} (h : I w) : I (bootSerial d w).1 := by
  have hread := (hS.read w 512 h).1
  unfold Ext.bootSerial
  rcases hr : d.read w 0 512 with ⟨w', e | bs⟩ <;> rwa [hr] at hread

theorem Shows.flushIfDirty (hS : Shows d boot I) {nd : NTFSBlockDevice σ} (h : I nd.resource) :
    I (flushIfDirty d.toBlockResource nd).resource := by
  unfold Block.flushIfDirty
  split
  · exact hS.flush _ h
  · exact h

theorem Shows.plainRead (hS : Shows d boot I) {nd : NTFSBlockDevice σ} (h : I nd.resource)
    (len : Nat) :
    I (plainRead d.toBlockResource nd 0 len).1.resource ∧
      ((plainRead d.toBlockResource nd 0 len).2.1 = 0 →
        Begins boot len (plainRead d.toBlockResource nd 0 len).2.2) := by
  obtain ⟨hkept, hbytes⟩ := hS.read nd.resource len h
  unfold Block.plainRead
  cases hr : d.read nd.resource 0 len with
  | mk w r =>
    rw [hr] at hkept hbytes
    cases r with
    | error t => exact ⟨hkept, fun hrc => absurd hrc t.rc_ne_zero⟩
    | ok bs => exact ⟨hkept, fun _ => hbytes bs rfl⟩

/-- The boot sector, if it can be read through the cache or past it. -/
theorem Shows.readBootSector (hS : Shows d boot I) {nd : NTFSBlockDevice σ} (h : I nd.resource) :
    I (readBootSector d nd).1.resource ∧
      ∀ bs, (readBootSector d nd).2 = some bs → Begins boot 512 bs := by
  have hpread : I (blockIORead d.toBlockResource nd 0 512).1.resource ∧
      ((blockIORead d.toBlockResource nd 0 512).2.1 = 0 →
        Begins boot 512 (blockIORead d.toBlockResource nd 0 512).2.2) := by
    obtain ⟨hkept, hbytes⟩ := hS.metadataRead nd.resource 512 h
    have hsmall : 512 < metadataCutover := by decide
    simp only [blockIORead, if_pos hsmall]
    cases hr : d.metadataRead nd.resource 0 512 with
    | mk w r =>
      rw [hr] at hkept hbytes
      cases r with
      | ok bs => exact ⟨hkept, fun _ => hbytes bs rfl⟩
      | error t => exact hS.plainRead (hS.flushIfDirty hkept) 512
  have hrun : Ext.readBootSector d nd = ((blockIORead d.toBlockResource nd 0 512).1,
      if (blockIORead d.toBlockResource nd 0 512).2.1 = 0 then
        some (blockIORead d.toBlockResource nd 0 512).2.2 else none) := rfl
  rw [hrun]
  rcases hp : blockIORead d.toBlockResource nd 0 512 with ⟨nd', rc, bs'⟩
  rw [hp] at hpread
  refine ⟨hpread.1, fun bs hbs => ?_⟩
  by_cases hrc : rc = 0
  · simp only [if_pos hrc] at hbs
    cases hbs
    exact hpread.2 hrc
  · simp only [if_neg hrc] at hbs
    cases hbs

/-! ## What an engine and an ID say -/

/-- The container ID that an engine gives. -/
def containerOf (boot : Nat → UInt8) : Engine → List UInt8
  | .ntfs => uuidFromSerial (slice boot 0x48 8)
  | .ext => uuidFromSuperblock (slice boot 104 16)

/-- The engine that a boot sector calls for. -/
def engineOf (boot : Nat → UInt8) : Engine := if isNTFS (slice boot 0 512) then .ntfs else .ext

theorem Begins.eq_slice {bs : List UInt8} (h : Begins boot 512 bs) : bs = slice boot 0 512 := by
  obtain ⟨img, himg, hbs⟩ := h
  rw [hbs]
  exact slice_congr fun p _ hp => himg p (by omega)

theorem Begins.serial {bs : List UInt8} (h : Begins boot 512 bs) : serial bs = slice boot 0x48 8 :=
  h.window (by omega) (by omega)

/-- A boot sector that was read decides, and NTFS is never taken without one. -/
theorem engine_read {bs : Option (List UInt8)} (h : ∀ b, bs = some b → Begins boot 512 b) :
    (bs.any isNTFS = true → engineOf boot = .ntfs) ∧
      (bs.isSome = true → engineOf boot = if bs.any isNTFS then .ntfs else .ext) := by
  cases bs with
  | none => exact ⟨fun hany => (nomatch hany), fun hsome => (nomatch hsome)⟩
  | some b =>
    have hengine : engineOf boot = if isNTFS b then .ntfs else .ext := by
      rw [engineOf, ← (h b rfl).eq_slice]
    exact ⟨fun hany => hengine.trans (if_pos hany), fun _ => hengine⟩

/-- The container ID of the ext engine. -/
theorem Shows.probeResource (hS : Shows d boot I) {w : σ} (hw : I w) {old id : List UInt8}
    (h : (Ext.probeResource (fun _ : Unit => d) () old w).2 = some id) :
    id = containerOf boot .ext := by
  obtain ⟨_, hbytes⟩ := hS.read w 2048 hw
  unfold Ext.probeResource at h
  rcases hr : d.read w 0 2048 with ⟨w', t | buf⟩
  · simp [hr] at h
  · rw [hr] at hbytes
    simp only [hr] at h
    split at h
    · cases h
      rw [(hbytes buf rfl).uuid (by omega)]
      rfl
    · cases h

/-- And its volume ID, if it is not a random one. -/
theorem Shows.readVolumeID (hS : Shows d boot I) {w : σ} (hw : I w) {old id : List UInt8}
    (h : (Ext.readVolumeID (fun _ : Unit => d) () old w).2 = some id) :
    id = containerOf boot .ext := by
  obtain ⟨_, hbytes⟩ := hS.read w 1024 hw
  unfold Ext.readVolumeID at h
  rcases hr : d.read w 0 1024 with ⟨w', t | buf⟩
  · simp [hr] at h
  · rw [hr] at hbytes
    simp only [hr] at h
    cases h
    rw [(hbytes buf rfl).uuid (by omega)]
    rfl

theorem probed_by (hS : Shows d boot I) {w : σ} (hw : I w) {old : List UInt8} {e : Engine}
    {id : List UInt8} (h : (probeResource d old w).2 = some (e, id)) :
    id = containerOf boot e ∧ ((firstRead d w).isSome = true → e = engineOf boot) := by
  have hfirst : I (⟨(Ext.bootSerial d w).1, false⟩ : NTFSBlockDevice σ).resource :=
    hS.bootSerial hw
  have hread := hS.readBootSector hfirst
  unfold firstRead
  unfold probeResource at h
  rcases hr : Ext.readBootSector d ⟨(Ext.bootSerial d w).1, false⟩ with ⟨nd, bs⟩
  rw [hr] at hread h
  obtain ⟨hkept, hbegins⟩ := hread
  obtain ⟨hntfs, hdecides⟩ := engine_read hbegins
  cases hboot : bs.filter isNTFS with
  | some b =>
    simp only [hboot] at h
    cases h
    obtain ⟨rfl, hb⟩ := Option.filter_eq_some_iff.mp hboot
    exact ⟨by rw [(hbegins b rfl).serial]; rfl, fun _ => (hntfs hb).symm⟩
  | none =>
    simp only [hboot] at h
    have hany : bs.any isNTFS = false := by
      cases bs with
      | none => rfl
      | some b => simpa using hboot
    rw [hany] at hdecides
    obtain ⟨id', hid, hpair⟩ := Option.map_eq_some_iff.mp h
    cases hpair
    exact ⟨hS.probeResource hkept hid, fun hsome => (hdecides hsome).symm⟩

/-- An engine opens a volume of its own kind, and gives it the ID that goes with the container's. -/
theorem loaded_by (hS : Shows d boot I) {o : Opening} (hk : o.Keeps d I) {h : BlockIOHolder Unit σ}
    (hh : I h.world) {e : Engine} {id : Option (List UInt8)}
    (hload : (loadResource d o h).2 = some (e, id)) :
    (∀ u, id = some u → u = e.volumeID (containerOf boot e)) ∧
      ((firstRead d h.world).isSome = true → e = engineOf boot) := by
  have hfirst : I (⟨(Ext.bootSerial d h.world).1, false⟩ : NTFSBlockDevice σ).resource :=
    hS.bootSerial hh
  have hread := hS.readBootSector hfirst
  unfold firstRead
  unfold loadResource at hload
  rcases hr : Ext.readBootSector d ⟨(Ext.bootSerial d h.world).1, false⟩ with ⟨nd, bs⟩
  rw [hr] at hread hload
  obtain ⟨hkept, hbegins⟩ := hread
  obtain ⟨hntfs, hdecides⟩ := engine_read hbegins
  by_cases hany : bs.any isNTFS = true
  · simp only [if_pos hany] at hload
    rw [if_pos hany] at hdecides
    have hmount : ∀ id, (mountVolume d o nd).2 = some id →
        ∀ u, id = some u → u = volumeUUID (containerOf boot .ntfs) := by
      intro id hid u hu
      have hserial : I (if o.readonly then nd
          else { nd with resource := (Ext.bootSerial d nd.resource).1 }).resource := by
        split
        · exact hkept
        · exact hS.bootSerial hkept
      have hagain := (hS.readBootSector (hk.ops _ hserial)).2
      by_cases hopened : o.opened = true
      · simp only [mountVolume, if_pos hopened] at hid
        cases hid
        obtain ⟨b, hb, rfl⟩ := Option.map_eq_some_iff.mp hu
        rw [(hagain b hb).serial]
        rfl
      · simp only [mountVolume, if_neg hopened] at hid
        cases hid
    obtain ⟨v, hv, hpair⟩ := Option.map_eq_some_iff.mp hload
    cases hpair
    exact ⟨hmount id hv, fun hsome => (hdecides hsome).symm⟩
  · simp only [if_neg hany] at hload
    rw [if_neg hany] at hdecides
    obtain ⟨v, hv, hpair⟩ := Option.map_eq_some_iff.mp hload
    cases hpair
    refine ⟨fun u hu => ?_, fun hsome => (hdecides hsome).symm⟩
    have hworld := hk.calls { h with world := nd.resource } hkept
    by_cases hopened : o.opened = true
    · simp only [Ext.loadResource, if_pos hopened] at hv
      cases hv
      exact hS.readVolumeID hworld hu
    · simp only [Ext.loadResource, if_neg hopened] at hv
      cases hv

end Reads

/-! ## Two resources -/

/-- The bits of the serial numbers that `uuid(fromSerial:)` keeps are the same: all but the highest
four of the seventh byte. -/
def SameSerial (boot boot' : Nat → UInt8) : Prop :=
  ∀ i < 8, boot (0x48 + i) &&& keptBits i = boot' (0x48 + i) &&& keptBits i

instance (boot boot' : Nat → UInt8) : Decidable (SameSerial boot boot') :=
  inferInstanceAs (Decidable (∀ i < 8, _))

theorem getD_serial (boot : Nat → UInt8) (i : Nat) :
    (slice boot 0x48 8 ++ List.replicate 8 0).getD i 0 = if i < 8 then boot (0x48 + i) else 0 := by
  rw [List.getD_eq_getElem?_getD]
  by_cases hi : i < 8
  · rw [List.getElem?_append_left (by rwa [length_slice]), getElem?_slice hi, if_pos hi]
    rfl
  · rw [List.getElem?_append_right (by rw [length_slice]; omega), if_neg hi,
      List.getElem?_replicate]
    split <;> rfl

theorem uuidFromSerial_eq_iff (boot boot' : Nat → UInt8) :
    uuidFromSerial (slice boot 0x48 8) = uuidFromSerial (slice boot' 0x48 8) ↔
      SameSerial boot boot' := by
  have hlen : ∀ b : Nat → UInt8, (slice b 0x48 8 ++ List.replicate 8 0).length = 16 := by
    intro b
    rw [List.length_append, length_slice, List.length_replicate]
  refine (uuidFromSuperblock_eq_iff (hlen boot) (hlen boot')).trans ?_
  unfold SameOutside SameSerial
  simp only [getD_serial]
  constructor
  · intro h i hi
    simpa [hi] using h i (by omega)
  · intro h i _
    by_cases hi : i < 8
    · simpa [hi] using h i hi
    · simp [hi]

theorem length_uuidFromSerial (boot : Nat → UInt8) :
    (uuidFromSerial (slice boot 0x48 8)).length = 16 := by
  simp [uuidFromSerial]

/-- Flipped twice the bits are what they were. -/
theorem volumeUUID_volumeUUID {u : List UInt8} (h : u.length = 16) :
    volumeUUID (volumeUUID u) = u := by
  have hflip : ∀ x : UInt8, x ^^^ 0x5A ^^^ 0x5A = x := by
    intro x
    rw [UInt8.xor_assoc, UInt8.xor_self, UInt8.xor_zero]
  have hlast : u.getD 15 0 = u[15] := by simp [List.getD_eq_getElem?_getD, h]
  simp only [volumeUUID, List.set_set, hlast]
  have hset : (u.set 15 (u[15] ^^^ 0x5A)).getD 15 0 = u[15] ^^^ 0x5A := by
    simp [List.getD_eq_getElem?_getD, h]
  rw [hset, hflip, List.set_getElem_self]

/-- A resource that keeps its first bytes, probed and later loaded. Both times its boot sector can
be read. -/
structure Mounted (σ : Type) where
  d : FSBlockDevice σ
  boot : Nat → UInt8
  inv : σ → Prop
  shows : Shows d boot inv
  probed : σ
  probedInv : inv probed
  probeBuffer : List UInt8
  opening : Opening
  keeps : opening.Keeps d inv
  holder : BlockIOHolder Unit σ
  holderInv : inv holder.world
  probedBy : Engine
  containerID : List UInt8
  loadedBy : Engine
  volumeID : Option (List UInt8)
  probe : (probeResource d probeBuffer probed).2 = some (probedBy, containerID)
  load : (loadResource d opening holder).2 = some (loadedBy, volumeID)
  readable : (firstRead d probed).isSome = true
  readableAgain : (firstRead d holder.world).isSome = true

theorem Mounted.identity (m : Mounted σ) :
    m.probedBy = engineOf m.boot ∧ m.loadedBy = engineOf m.boot ∧
      m.containerID = containerOf m.boot m.probedBy ∧
      ∀ u, m.volumeID = some u → u = m.probedBy.volumeID (containerOf m.boot m.probedBy) := by
  obtain ⟨hcontainer, hprobed⟩ := probed_by m.shows m.probedInv m.probe
  obtain ⟨hvolume, hloaded⟩ := loaded_by m.shows m.keeps m.holderInv m.load
  have hsame : m.loadedBy = m.probedBy :=
    (hloaded m.readableAgain).trans (hprobed m.readable).symm
  refine ⟨hprobed m.readable, hloaded m.readableAgain, hcontainer, fun u hu => ?_⟩
  rw [← hsame]
  exact hvolume u hu

/-- The engine that finds a volume on a resource loads it, and its ID, unless it is a random one, is
that of the container, or differs from it in the last byte alone. Two NTFS volumes have one ID, and
so do their containers, exactly if the bits that are kept of their serial numbers agree. -/
theorem mounted_identity (m : Mounted σ) (m' : Mounted σ') :
    (m.loadedBy = m.probedBy ∧
      ∀ u, m.volumeID = some u → u = m.probedBy.volumeID m.containerID) ∧
    (m.probedBy = .ntfs → m'.probedBy = .ntfs →
      (m.containerID = m'.containerID ↔ SameSerial m.boot m'.boot) ∧
      ∀ u u', m.volumeID = some u → m'.volumeID = some u' →
        (u = u' ↔ SameSerial m.boot m'.boot)) := by
  obtain ⟨hp, hl, hc, hv⟩ := m.identity
  obtain ⟨_, _, hc', hv'⟩ := m'.identity
  refine ⟨⟨hl.trans hp.symm, fun u hu => by rw [hc]; exact hv u hu⟩, fun hntfs hntfs' => ?_⟩
  rw [hntfs] at hc hv
  rw [hntfs'] at hc' hv'
  have hids : m.containerID = m'.containerID ↔ SameSerial m.boot m'.boot := by
    rw [hc, hc']
    exact uuidFromSerial_eq_iff m.boot m'.boot
  refine ⟨hids, fun u u' hu hu' => ?_⟩
  rw [hv u hu, hv' u' hu', ← uuidFromSerial_eq_iff]
  constructor
  · intro heq
    rw [← volumeUUID_volumeUUID (length_uuidFromSerial m.boot),
      ← volumeUUID_volumeUUID (length_uuidFromSerial m'.boot)]
    exact congrArg volumeUUID heq
  · intro heq
    exact congrArg volumeUUID heq

/-- An NTFS boot sector whose serial number has `a` for its first byte and `b` for its seventh. -/
def ntfsBoot (a b : UInt8) : Nat → UInt8 := fun p =>
  if p = 0x48 then a else if p = 0x4E then b else if 3 ≤ p then oemID.getD (p - 3) 0 else 0

theorem isNTFS_ntfsBoot (a b : UInt8) : isNTFS (slice (ntfsBoot a b) 0 512) = true := by
  have hoem : slice (ntfsBoot a b) (0 + 3) 8 = oemID := rfl
  simp only [isNTFS, length_slice, window_slice (show 3 + 8 ≤ 512 by omega), hoem]
  rfl

theorem readBootSector_readOnlyDisk (img : Nat → UInt8) (nd : NTFSBlockDevice Unit) :
    readBootSector (readOnlyDisk img) nd = (nd, some (slice img 0 512)) := by
  have hsmall : 512 < metadataCutover := by decide
  simp only [readBootSector, pread, blockIORead, if_pos hsmall, readOnlyDisk]
  rfl

theorem serial_ntfsBoot (img : Nat → UInt8) : serial (slice img 0 512) = slice img 0x48 8 :=
  window_slice (by omega)

def ntfsMounted (a b : UInt8) : Mounted Unit where
  d := readOnlyDisk (ntfsBoot a b)
  boot := ntfsBoot a b
  inv := fun _ => True
  shows :=
    { read := fun _ _ _ => ⟨trivial, fun _ h => ⟨_, fun _ _ => rfl, (Except.ok.inj h).symm⟩⟩
      metadataRead := fun _ _ _ =>
        ⟨trivial, fun _ h => ⟨_, fun _ _ => rfl, (Except.ok.inj h).symm⟩⟩
      flush := fun _ _ => trivial }
  probed := ()
  probedInv := trivial
  probeBuffer := []
  opening := ⟨true, false, [], [], true, []⟩
  keeps := ⟨fun _ _ => trivial, fun _ _ => trivial⟩
  holder := ⟨none, ()⟩
  holderInv := trivial
  probedBy := .ntfs
  containerID := containerOf (ntfsBoot a b) .ntfs
  loadedBy := .ntfs
  volumeID := some (volumeUUID (containerOf (ntfsBoot a b) .ntfs))
  probe := by
    simp only [probeResource, readBootSector_readOnlyDisk, Option.filter_some, isNTFS_ntfsBoot,
      if_true, serial_ntfsBoot]
    rfl
  load := by
    simp only [loadResource, readBootSector_readOnlyDisk, Option.any_some, isNTFS_ntfsBoot, if_true,
      mountVolume, Option.map_some, serial_ntfsBoot]
    rfl
  readable := by rw [firstRead, readBootSector_readOnlyDisk]; rfl
  readableAgain := by rw [firstRead, readBootSector_readOnlyDisk]; rfl

/-- Serial numbers that differ in the highest bits of the seventh byte alone give one ID. -/
theorem mounted_identity_nibble :
    (ntfsMounted 1 0x05).containerID = (ntfsMounted 1 0x35).containerID :=
  ((mounted_identity (ntfsMounted 1 0x05) (ntfsMounted 1 0x35)).2 rfl rfl).1.mpr (by decide)

end Dispatch
end Usbrw
