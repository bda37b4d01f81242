import Usbrw.Block.Reference
import Usbrw.Ntfs.Data
import Usbrw.Shim.Failure

/-!
# Ntfs.Signs

A failed transfer on its way up: the callback's return code, negated into `errno` by the shim, left
there by libntfs, and negated again by the bridge. So what `nfsk_read` and `nfsk_write` return is the
callback's code, and a positive one passes for a byte count.

* `DeviceFails`  — an operation of the device failed because of a callback.
* `signs`        — when each callback returns 0 or a negated code, and that it decides the sign of
  what the bridge returns.
* `volumeResult` — what Swift makes of that.
-/

namespace Usbrw
namespace Ntfs

open Block Shim

variable {σ : Type}

/-- A device operation with legal arguments fails and stores `e` in `errno`. A read-only device is
not written. -/
inductive DeviceFails (io : NfskBlockio σ) (d d' : σ) (e : Int) : Prop where
  | pread {count offset : Int64} {out : List UInt8} (hc : 0 ≤ count) (ho : 0 ≤ offset)
      (h : fskitPread io d count offset = (d', .fail e, out))
  | pwrite {count offset : Int64} {src : List UInt8} (hrw : io.readonly = false) (hc : 0 ≤ count)
      (ho : 0 ≤ offset) (h : fskitPwrite io d src count offset = (d', .fail e))

/-- The callback of an `NTFSBlockDevice` that made the operation fail. -/
theorem DeviceFails.ends {blockResource : Option (BlockResource σ)} {readonly : Bool}
    {blockSize : UInt32} {blockCount : UInt64} {d d' : NTFSBlockDevice σ} {e : Int}
    (h : DeviceFails (blockio blockResource readonly blockSize blockCount) d d' e) :
    ∃ d₁ c rc, Ends (blockio blockResource readonly blockSize blockCount) d d' d₁ c rc ∧
      e = -rc ∧ (rc < 0 ↔ c.Reports blockResource d₁) := by
  have hsign : ∀ {d₁ c rc}, Ends (blockio blockResource readonly blockSize blockCount) d d' d₁ c rc →
      (rc < 0 ↔ c.Reports blockResource d₁) := by
    intro d₁ c rc hends
    have hne := hends.failed
    rw [← c.run_nonpos_iff blockResource readonly blockSize blockCount d₁, hends.run]
    show rc < 0 ↔ rc ≤ 0
    omega
  cases h with
  | pread hc ho h =>
    obtain ⟨d₁, c, rc, hends, he⟩ := fskitPread_fails rfl hc ho h
    exact ⟨d₁, c, rc, hends, he, hsign hends⟩
  | pwrite hrw hc ho h =>
    obtain ⟨d₁, c, rc, hends, he⟩ := fskitPwrite_fails rfl hrw hc ho h
    exact ⟨d₁, c, rc, hends, he, hsign hends⟩

/-- Each callback returns 0 or a negated code exactly under its condition. Where a device operation
fails before `nfsk_read` or `nfsk_write` has transferred a byte, and libntfs leaves its `errno`, the
call returns the code of the callback that failed: a negative one exactly under that callback's
condition. -/
theorem signs (blockResource : Option (BlockResource σ)) :
    (∀ d offset len, (pread blockResource d offset len).2.1 ≤ 0 ↔
      ReadReports blockResource d offset len) ∧
    (∀ d offset bytes, (pwrite blockResource d offset bytes).2 ≤ 0 ↔
      WriteReports blockResource d offset bytes) ∧
    (∀ d, (sync blockResource d).2 ≤ 0 ↔ SyncReports blockResource d) ∧
    ∀ readonly blockSize blockCount d d' e,
      DeviceFails (blockio blockResource readonly blockSize blockCount) d d' e →
      ∃ d₁ c rc, Ends (blockio blockResource readonly blockSize blockCount) d d' d₁ c rc ∧
        e = -rc ∧
        (∀ {τ : Type} (lib : Libdata τ) noatime mft offset len env,
          ReadFailsFirst lib mft offset len env e →
          (nfskRead lib noatime mft offset len env).2.1 = rc ∧
            ((nfskRead lib noatime mft offset len env).2.1 < 0 ↔ c.Reports blockResource d₁)) ∧
        (∀ {τ : Type} (lib : Libdata τ) mft offset len buf env,
          WriteFailsFirst lib mft offset len buf env e →
          (nfskWrite lib mft offset len buf env).2 = rc ∧
            ((nfskWrite lib mft offset len buf env).2 < 0 ↔ c.Reports blockResource d₁)) := by
  refine ⟨pread_nonpos_iff blockResource, pwrite_nonpos_iff blockResource,
    sync_nonpos_iff blockResource, ?_⟩
  intro readonly blockSize blockCount d d' e hfails
  obtain ⟨d₁, c, rc, hends, he, hsign⟩ := hfails.ends
  have hback : -e = rc := by omega
  refine ⟨d₁, c, rc, hends, he, ?_, ?_⟩
  · intro τ lib noatime mft offset len env hfirst
    rw [nfskRead_fails lib noatime hfirst, hback]
    exact ⟨rfl, hsign⟩
  · intro τ lib mft offset len buf env hfirst
    rw [nfskWrite_fails lib hfirst, hback]
    exact ⟨rfl, hsign⟩

/-- What `NTFSVolume` makes of the result: an error thrown, or a count. -/
def volumeResult (n : Int) : Except Int Int := if n < 0 then .error (-n) else .ok n

/-! ## A library that only transfers -/

/-- The data of every file are the device's bytes, `size` of them. -/
def flatLibrary (io : NfskBlockio σ) (size : Int64) : Libdata σ where
  inodeOpen mft env := (env, some ⟨mft, false, false⟩)
  inodeClose _ env := (env, false)
  attrOpen ni env := (env, some ⟨ni, size⟩)
  attrClose _ env := env
  attrPread _ off count env :=
    match fskitPread io env.state count off with
    | (s, r, bs) => (⟨s, r.errno.getD env.errno⟩, r.ret, bs)
  attrPwrite _ off count src env :=
    match fskitPwrite io env.state src count off with
    | (s, r) => (⟨s, r.errno.getD env.errno⟩, r.ret)
  setArchive _ env := env
  inodeUpdateTimes _ _ env := env

/-- Every call throws: the metadata calls something else, the plain ones `ENOSPC`. -/
def throwing : BlockResource Unit where
  metadataRead s _ _ := (s, .error .other)
  delayedMetadataWrite s _ _ := (s, .error .other)
  read s _ _ := (s, .error (.posix 28 (by decide)))
  write s _ _ := (s, .error (.posix 28 (by decide)))
  metadataFlush := none

/-- Plain transfers are short. -/
def short : BlockResource Unit where
  metadataRead s _ _ := (s, .error .other)
  delayedMetadataWrite s _ _ := (s, .error .other)
  read s _ _ := (s, .ok [])
  write s _ _ := (s, .ok 0)
  metadataFlush := some fun s => (s, .error .other)

/-- `nfsk_read` of the first 512 bytes. -/
def bridgeRead (blockResource : Option (BlockResource Unit)) : Int :=
  (nfskRead (flatLibrary (blockio blockResource false 512 0) 4096) true 64 0 512
    ⟨⟨(), false⟩, 0⟩).2.1

theorem bridgeRead_fails {blockResource : Option (BlockResource Unit)} {e : Int}
    {d' : NTFSBlockDevice Unit} {out : List UInt8}
    (h : fskitPread (blockio blockResource false 512 0) ⟨(), false⟩ 512 0 = (d', .fail e, out)) :
    ReadFailsFirst (flatLibrary (blockio blockResource false 512 0) 4096) 64 0 512 ⟨⟨(), false⟩, 0⟩
      e := by
  have hread : (flatLibrary (blockio blockResource false 512 0) 4096).attrPread
      ⟨⟨64, false, false⟩, 4096⟩ 0 512 ⟨⟨(), false⟩, 0⟩ = (⟨d', e⟩, -1, out) := by
    simp only [flatLibrary, h]
    rfl
  exact .transfer (by decide) rfl rfl rfl (by decide) (by decide) hread rfl

theorem throwing_pread : fskitPread (blockio (some throwing) false 512 0) ⟨(), false⟩ 512 0 =
    (⟨(), false⟩, .fail 28, []) :=
  rfl

/-- A `POSIXError` arrives with its sign. -/
theorem signs_posix : bridgeRead (some throwing) = -28 := by
  have hfails : DeviceFails (blockio (some throwing) false 512 0) ⟨(), false⟩ ⟨(), false⟩ 28 :=
    .pread (by decide) (by decide) throwing_pread
  obtain ⟨d₁, c, rc, _, he, hread, _⟩ :=
    (signs (some throwing)).2.2.2 _ _ _ _ _ _ hfails
  have hrc := (hread _ true _ _ _ _ (bridgeRead_fails throwing_pread)).1
  rw [bridgeRead, hrc]
  omega

/-- A short transfer, a missing resource and a failed flush are positive codes; the first two arrive
in Swift as reads of 5 and of 19 bytes. -/
theorem short_read_counted :
    (pread (some short) ⟨(), false⟩ 0 512).2.1 = EIO ∧
    (pread (none : Option (BlockResource Unit)) ⟨(), false⟩ 0 512).2.1 = ENODEV ∧
    (pwrite (some short) ⟨(), false⟩ 0 [1]).2 = EIO ∧ (sync (some short) ⟨(), false⟩).2 = EIO ∧
    volumeResult (bridgeRead (some short)) = .ok 5 ∧ volumeResult (bridgeRead none) = .ok 19 := by
  refine ⟨by decide, by decide, by decide, by decide, ?_, ?_⟩
  · have hfails : fskitPread (blockio (some short) false 512 0) ⟨(), false⟩ 512 0 =
      (⟨(), false⟩, .fail (-5), []) := rfl
    rw [bridgeRead, nfskRead_fails _ true (bridgeRead_fails hfails)]
    decide
  · have hfails : fskitPread (blockio (none : Option (BlockResource Unit)) false 512 0)
        ⟨(), false⟩ 512 0 = (⟨(), false⟩, .fail (-19), []) := rfl
    rw [bridgeRead, nfskRead_fails _ true (bridgeRead_fails hfails)]
    decide

end Ntfs
end Usbrw
