import Usbrw.Block.ReadYourWrites

/-!
# Block.Reports

The return codes of the callbacks: 0 for a whole transfer, a negated code for a `POSIXError`, and a
positive `errno` for everything else.

* `Sound`              — the plain transfer was whole, or it threw a `POSIXError`.
* `pread_nonpos_iff`, `pwrite_nonpos_iff`, `sync_nonpos_iff` — when the return code is 0 or negative.
-/

namespace Usbrw
namespace Block

variable {σ α : Type}

/-- The transfer moved `whole`, or what it threw has a code of its own. -/
def Sound (whole : α → Prop) : σ × Except Thrown α → Prop
  | (_, .ok a) => whole a
  | (_, .error (.posix _ _)) => True
  | (_, .error .other) => False

section Conditions

variable (blockResource : Option (BlockResource σ)) (d : NTFSBlockDevice σ) (offset : Int64)

/-- The cache serves the read, or the plain read is whole or throws a `POSIXError`. -/
def ReadReports (len : Nat) : Prop :=
  ∃ br, blockResource = some br ∧
    (ReadCached br d offset len ∨ ¬ ReadCached br d offset len ∧
      Sound (fun bs => bs.length = len)
        (br.read (plainReadState br d offset len).resource offset len))

def WriteCached (br : BlockResource σ) (bytes : List UInt8) : Prop :=
  bytes.length < metadataCutover ∧
    ∃ s, br.delayedMetadataWrite d.resource offset bytes = (s, .ok ())

/-- The cache takes the write, or the plain write is whole or throws a `POSIXError`. -/
def WriteReports (bytes : List UInt8) : Prop :=
  ∃ br, blockResource = some br ∧
    (WriteCached d offset br bytes ∨ ¬ WriteCached d offset br bytes ∧
      Sound (fun n => n = bytes.length)
        (br.write (plainWriteState br d offset bytes) offset bytes))

/-- There is a resource, and it is flushed or needs no flush. -/
def SyncReports : Prop :=
  ∃ br, blockResource = some br ∧ ∃ s, flushResource br d.resource = (s, .ok ())

end Conditions

section Codes

variable {br : BlockResource σ} {d : NTFSBlockDevice σ} {offset : Int64}

theorem Thrown.rc_nonpos_iff {whole : α → Prop} {s : σ} (t : Thrown) :
    t.rc ≤ 0 ↔ Sound whole (s, .error t) := by
  cases t with
  | posix code pos =>
    simp only [Thrown.rc, Sound, iff_true]
    omega
  | other => simp [Thrown.rc, Sound, EIO]

theorem short_nonpos_iff (φ : Prop) [Decidable φ] : (if φ then 0 else EIO) ≤ 0 ↔ φ := by
  split <;> simp_all [ EIO]

theorem plainRead_nonpos_iff (len : Nat) :
    (plainRead br d offset len).2.1 ≤ 0 ↔
      Sound (fun bs => bs.length = len) (br.read d.resource offset len) := by
  unfold plainRead
  cases br.read d.resource offset len with
  | mk s res =>
    cases res with
    | ok bs => exact short_nonpos_iff _
    | error t => exact t.rc_nonpos_iff

theorem plainWrite_nonpos_iff (bytes : List UInt8) :
    (plainWrite br d offset bytes).2 ≤ 0 ↔
      Sound (fun n => n = bytes.length) (br.write d.resource offset bytes) := by
  unfold plainWrite
  cases br.write d.resource offset bytes with
  | mk s res =>
    cases res with
    | ok n => exact short_nonpos_iff _
    | error t => exact t.rc_nonpos_iff

/-- A read the cache does not serve is a plain read. -/
theorem blockIORead_plain {len : Nat} (h : ¬ ReadCached br d offset len) :
    blockIORead br d offset len = plainRead br (plainReadState br d offset len) offset len := by
  unfold blockIORead plainReadState
  by_cases hlt : len < metadataCutover
  · rw [if_pos hlt, if_pos hlt]
    cases hm : br.metadataRead d.resource offset len with
    | mk s res =>
      cases res with
      | ok bs => exact absurd ⟨hlt, s, bs, hm⟩ h
      | error t => rfl
  · rw [if_neg hlt, if_neg hlt]

theorem blockIOWrite_plain {bytes : List UInt8} (h : ¬ WriteCached d offset br bytes) :
    blockIOWrite br d offset bytes =
      plainWrite br { d with resource := plainWriteState br d offset bytes } offset bytes := by
  unfold blockIOWrite plainWriteState
  by_cases hlt : bytes.length < metadataCutover
  · rw [if_pos hlt, if_pos hlt]
    cases hm : br.delayedMetadataWrite d.resource offset bytes with
    | mk s res =>
      cases res with
      | ok u => exact absurd ⟨hlt, s, hm⟩ h
      | error t => rfl
  · rw [if_neg hlt, if_neg hlt]

end Codes

/-! ## The callbacks -/

section Callbacks

variable (blockResource : Option (BlockResource σ)) (d : NTFSBlockDevice σ) (offset : Int64)

theorem pread_nonpos_iff (len : Nat) :
    (pread blockResource d offset len).2.1 ≤ 0 ↔ ReadReports blockResource d offset len := by
  cases blockResource with
  | none => simp [pread, ReadReports, ENODEV]
  | some br =>
    simp only [pread, ReadReports, Option.some.injEq, exists_eq_left']
    by_cases hc : ReadCached br d offset len
    · obtain ⟨hlt, s, bs, hm⟩ := hc
      simp [blockIORead, hlt, hm, ReadCached]
    · rw [blockIORead_plain hc, plainRead_nonpos_iff]
      simp [hc]

theorem pwrite_nonpos_iff (bytes : List UInt8) :
    (pwrite blockResource d offset bytes).2 ≤ 0 ↔ WriteReports blockResource d offset bytes := by
  cases blockResource with
  | none => simp [pwrite, WriteReports, ENODEV]
  | some br =>
    simp only [pwrite, WriteReports, Option.some.injEq, exists_eq_left']
    by_cases hc : WriteCached d offset br bytes
    · obtain ⟨hlt, s, hm⟩ := hc
      simp [blockIOWrite, hlt, hm, WriteCached]
    · rw [blockIOWrite_plain hc, plainWrite_nonpos_iff]
      simp [hc]

theorem sync_nonpos_iff :
    (sync blockResource d).2 ≤ 0 ↔ SyncReports blockResource d := by
  cases blockResource with
  | none => simp [sync, SyncReports, ENODEV]
  | some br =>
    simp only [sync, SyncReports, Option.some.injEq, exists_eq_left']
    cases flushResource br d.resource with
    | mk s res =>
      cases res with
      | ok u => simp
      | error t => simp [ EIO]

end Callbacks

end Block
end Usbrw
