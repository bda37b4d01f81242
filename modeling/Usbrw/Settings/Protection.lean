import Usbrw.Block.Settled
import Usbrw.Ext.Alignment
import Usbrw.Ext.Kept
import Usbrw.Settings.Preferences
import Usbrw.Shim.FlatDevice

/-!
# Settings.Protection

A disk that is to be read-only stays as it is: what the app chose reaches the flag of the callbacks,
and behind the flag nothing is written, whatever libntfs and libext2fs ask for.

* `deviceStep_settled`, `Session.step_settled` — a step of a read-only device, and anything that an
  ext volume does to its disk.
* `Prefs.protects`, `Prefs.protectsExt` — the preferences that make a disk read-only.
* `read_only_disk` — after any calls of the app and the extension, runs of both leave a disk that is
  protected byte for byte as it was.
-/

namespace Usbrw

variable {σ : Type}

/-! ## The shim -/

namespace Shim

open Block

/-- A step of a read-only device. -/
theorem deviceStep_settled {br : BlockResource σ} {v : View σ} (hR : Lawful br v) (b : UInt32)
    (n : UInt64) {was : Int → UInt8} (d : NTFSBlockDevice σ) (op : DeviceOp)
    (h : Settled v was d.resource) :
    Settled v was (deviceStep (blockio (some br) true b n) d op).1.resource := by
  cases op with
  | pread count offset =>
    have hreads : ReadsKeep (blockio (some br) true b n) fun d => Settled v was d.resource := by
      rintro _ ⟨⟩ d off len h
      exact h.pread hR off.toInt64 len.toNat
    exact hreads.fskitPread count offset h
  | pwrite src count offset =>
    have hsame := @fskitPwrite_readonly _ (blockio (some br) true b n) rfl d src count offset
    simp only [deviceStep, hsame]
    exact h
  | sync => exact h.sync hR

end Shim

/-! ## The channel -/

namespace Ext

open Block Shim

section Session

variable {d : FSBlockDevice σ} {v : Block.View σ} {was : Int → UInt8}

/-! Watching a resource changes nothing in it. -/

theorem plainRead_watch (t : σ × List (Unit × Touch)) (c : Bool) (off : Int64) (len : Nat) :
    (plainRead (watch d ()).toBlockResource ⟨t, c⟩ off len).1.resource.1 =
      (plainRead d.toBlockResource ⟨t.1, c⟩ off len).1.resource := by
  simp only [plainRead, watch_read]
  cases hr : d.read t.1 off len with
  | mk s r => cases r <;> rfl

theorem flushIfDirty_watch (t : σ × List (Unit × Touch)) (c : Bool) :
    ∃ l, flushIfDirty (watch d ()).toBlockResource ⟨t, c⟩ =
      ⟨((flushIfDirty d.toBlockResource ⟨t.1, c⟩).resource, l),
        (flushIfDirty d.toBlockResource ⟨t.1, c⟩).cacheDirty⟩ := by
  cases c with
  | true => exact ⟨_, rfl⟩
  | false => exact ⟨t.2, rfl⟩

theorem blockIORead_watch (t : σ × List (Unit × Touch)) (c : Bool) (off : Int64) (len : Nat) :
    (blockIORead (watch d ()).toBlockResource ⟨t, c⟩ off len).1.resource.1 =
      (blockIORead d.toBlockResource ⟨t.1, c⟩ off len).1.resource := by
  simp only [blockIORead, watch_metadataRead]
  split
  · cases hr : d.metadataRead t.1 off len with
    | mk s r =>
      cases r with
      | ok bs => rfl
      | error e =>
        obtain ⟨l, hflush⟩ := flushIfDirty_watch (d := d)
          (s, t.2 ++ [((), .transfer off len)]) c
        simp only [hflush]
        exact plainRead_watch _ _ off len
  · exact plainRead_watch t c off len

theorem readBootSector_settled (hR : Block.Lawful d.toBlockResource v)
    {t : σ × List (Unit × Touch)} (c : Bool) (h : Block.Settled v was t.1) :
    Block.Settled v was (readBootSector (watch d ()) ⟨t, c⟩).1.resource.1 := by
  have hread : Block.Settled v was (blockIORead d.toBlockResource ⟨t.1, c⟩ 0 512).1.resource :=
    blockIORead_keeps hR (fun _ _ e h => h.settle e) h
  rw [← blockIORead_watch] at hread
  exact hread

/-- Anything that is done to the disk of a read-only ext volume. -/
theorem Session.step_settled (hR : Block.Lawful d.toBlockResource v) {s : Session σ}
    (hro : s.readonly = true) (a : Access) (h : Block.Settled v was s.world.1) :
    Block.Settled v was (s.step d a).world.1 ∧ (s.step d a).readonly = true := by
  have hI : ReadsKeep (s.channel d).privateData fun h => Block.Settled v was h.world.1 := by
    rintro _ ⟨⟩ ⟨block, w⟩ off len h
    cases block with
    | none => exact h
    | some b =>
      obtain ⟨rc, data, hread⟩ := BlockIOHolder.read_watch (fun _ : Unit => d) b w off len
      rw [hread]
      exact h.read hR _ _
  have hchannel : (s.channel d).privateData.readonly = true := by
    simp [Session.channel, loaderIo, hro]
  cases a with
  | bootSerial =>
    have hread := h.read hR 0 512
    refine ⟨?_, hro⟩
    simp only [Session.step, bootSerial, watch_read]
    rcases hr : d.read s.world.1 0 512 with ⟨w, e | bs⟩ <;> rwa [hr] at hread
  | readBootSector => exact ⟨readBootSector_settled hR s.cacheDirty h, hro⟩
  | readVolumeID old =>
    have hread := h.read hR 0 1024
    refine ⟨?_, hro⟩
    simp only [Session.step, readVolumeID, watch_read]
    rcases hr : d.read s.world.1 0 1024 with ⟨w, e | bs⟩ <;> rwa [hr] at hread
  | «open» => exact ⟨h, hro⟩
  | setBlksize blocksize legal => exact ⟨h, hro⟩
  | readBlk64 block count =>
    exact ⟨extIoReadBlk64_kept hI s.byteBuf block count h, hro⟩
  | writeBlk64 block count data =>
    exact ⟨extIoWriteBlk64_kept hI (.inl hchannel) s.byteBuf block count _ h, hro⟩
  | writeByte offset count data =>
    exact ⟨extIoWriteByte_kept hI (.inl hchannel) s.byteBuf offset count _ h, hro⟩
  | flush => exact ⟨h.flush hR, hro⟩

end Session

end Ext

/-! ## The preferences -/

namespace Settings

open Block Ext Run Service Shim

/-- After any calls, what the extension takes from the settings is what the preferences say. -/
theorem reflects_after (io : Ntfs.Locked.NfskBlockio) (group appSuite extSuite : Bool)
    (calls : List Request) :
    Reflects (after (World.step io) (World.fresh group appSuite extSuite) calls)
      (after Prefs.step (Prefs.fresh group) calls) :=
  (history_eq_of_simulation (fun _ _ r h => h.step io r) calls
    (Reflects.fresh group appSuite extSuite)).2

/-- On a disk that nothing waits to be written to, whatever is asked of it: if the preferences protect
it, no byte of the disk changes. -/
theorem read_only_disk {dev : FSBlockDevice σ} {v : Block.View σ}
    (hR : Block.Lawful dev.toBlockResource v) {s : σ}
    (hs : ∀ q c, (v s q).cached = some c → c.dirty = false) (io : Ntfs.Locked.NfskBlockio)
    (group appSuite extSuite : Bool) (calls : List Request) (bootSerial : Option String)
    (cacheDirty : Bool) :
    let p := after Prefs.step (Prefs.fresh group) calls
    let d := (after (World.step io) (World.fresh group appSuite extSuite) calls).defaults .extension
    (p.protects dev.isWritable bootSerial = true → ∀ (ops : List DeviceOp) (q : Int),
      v.device (after (deviceStep (blockio (some dev.toBlockResource)
        (deviceReadonly d dev.isWritable bootSerial) dev.blockSize dev.blockCount))
        ⟨s, cacheDirty⟩ ops).resource q = v.device s q) ∧
    (p.protectsExt dev.isWritable = true → ∀ (g : ByteBuf) (accesses : List Access) (q : Int),
      v.device (accesses.foldl (Session.step dev)
        (Session.start s cacheDirty (!extWritable d dev.isWritable) g)).world.1 q =
          v.device s q) := by
  intro p d
  have hreflects := reflects_after io group appSuite extSuite calls
  have hstart : Block.Settled v (v.device s) s := fun q => ⟨rfl, hs q⟩
  refine ⟨fun hprotects ops q => ?_, fun hprotects g accesses q => ?_⟩
  · have hro : deviceReadonly d dev.isWritable bootSerial = true :=
      (hreflects.deviceReadonly dev.isWritable bootSerial).trans hprotects
    rw [hro]
    exact (inv_foldl (I := fun d : NTFSBlockDevice σ => Block.Settled v (v.device s) d.resource)
      (fun d op h => deviceStep_settled hR dev.blockSize dev.blockCount d op h)
      (s := ⟨s, cacheDirty⟩) hstart ops q).1
  · have hro : (!extWritable d dev.isWritable) = true := by
      rw [hreflects.extWritable, Bool.not_not]
      exact hprotects
    exact (inv_foldl
      (I := fun t : Ext.Session σ => Block.Settled v (v.device s) t.world.1 ∧ t.readonly = true)
      (fun t a h => Session.step_settled hR h.2 a h.1)
      (s := Session.start s cacheDirty (!extWritable d dev.isWritable) g) ⟨hstart, hro⟩
      accesses).1 q |>.1

/-- The buffered disk, which could be written. -/
def bufferedDevice : FSBlockDevice (Int → Slot) where
  toBlockResource := bufferedDisk
  blockSize := 512
  blockCount := 8
  isWritable := true

/-- The app forces read-only mounts; then both libraries try to store three bytes at the start. -/
theorem read_only_disk_forced :
    let d := (after (World.step ⟨1, 1, 1, 1, 0, 512, 8⟩) (World.fresh true false false)
      [.setForceReadOnly true]).defaults .extension
    slots.device (after (deviceStep (blockio (some bufferedDisk)
      (deviceReadonly d true (some "1f")) 512 8)) ⟨zeros, false⟩
      [.pwrite [1, 2, 3] 3 0, .sync]).resource 0 = slots.device zeros 0 ∧
    slots.device ([Access.writeByte 0 3 fun _ => 7, .flush].foldl (Session.step bufferedDevice)
      (Session.start zeros false (!extWritable d true) zeroBuf)).world.1 0 =
        slots.device zeros 0 := by
  have h := @read_only_disk _ bufferedDevice slots bufferedDisk_lawful zeros
    (fun q c hc => by cases hc) ⟨1, 1, 1, 1, 0, 512, 8⟩ true false false [.setForceReadOnly true]
    (some "1f") false
  exact ⟨h.1 rfl _ 0, h.2 rfl zeroBuf _ 0⟩

end Settings

end Usbrw
