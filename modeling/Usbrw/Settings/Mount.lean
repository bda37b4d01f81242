import Usbrw.Ntfs.Bridge
import Usbrw.Settings.Shared

/-!
# Settings.Mount

What `NTFSBlockDevice` makes of the settings: whether its device is read-only, and the options that
`mountVolume` opens the volume with.

* `deviceReadonly`  — `io.readonly` after `init`, and `extWritable` for an ext volume.
* `takeRescue`, `mountVolumeOpts` — the rescue of a hibernated volume, and all the options.
* `openVolume`      — the flags of the mount, and the option bits of the volume.
* `openVolume_opts` — each option arrives as it is set, and a rescue only from `takeRescue`.
-/

namespace Usbrw
namespace Settings

open Ntfs.Locked

/-- `bootSerial` is none when the boot sector cannot be read. -/
def deviceReadonly (d : Defaults) (isWritable : Bool) (bootSerial : Option String) : Bool :=
  let ro :=
    match bootSerial with
    | some serial => shouldMountReadOnly d serial
    | none => forceReadOnly d
  !isWritable || ro

/-- `writable` of an ext volume. It has no serial, and follows `forceReadOnly` alone. -/
def extWritable (d : Defaults) (isWritable : Bool) : Bool := isWritable && !forceReadOnly d

/-- Only a mount that may write takes a rescue. -/
def takeRescue (d : Defaults) (readonly : Bool) (bootSerial : Option String) : Bool × Defaults :=
  match readonly, bootSerial with
  | false, some serial => consumeHiberfileRescue d serial
  | _, _ => (false, d)

def mountVolumeOpts (d : Defaults) (rescue : Bool) : Int32 :=
  if rescue then mountOptsMask d ||| NFSK_OPEN_REMOVE_HIBERFILE else mountOptsMask d

/-- A mounted volume: the flags it was mounted with, and which bits of its `opts` are set. -/
structure OpenVolume where
  flags : MountFlags
  opt : Opt → Bool

/-- `nfsk_open` is `nfsk_open_ex` without options. -/
def openVolume (io : NfskBlockio) (readonly : Bool) (opts : Int32) : OpenVolume where
  flags := mountFlags { io with readonly := if readonly then 1 else 0 } 1 opts
  opt o := decide (opts &&& o.bit ≠ 0)

/-! ## The bits -/

theorem int32_or_and (a b c : Int32) : (a ||| b) &&& c = (a &&& c) ||| (b &&& c) := by
  apply Int32.toBitVec_inj.mp
  simp [BitVec.and_comm, BitVec.and_or_distrib_left]

theorem bit_and_of_ne {x o : Opt} (h : x ≠ o) : x.bit &&& o.bit = 0 := by
  cases x <;> cases o <;> first | exact absurd rfl h | rfl

theorem bit_ne_zero (o : Opt) : o.bit ≠ 0 := by
  cases o <;> decide

/-- Of the options of a list, one has its bit in the mask exactly if it is chosen. -/
theorem foldl_and_bit (f : Opt → Bool) (o : Opt) (l : List Opt) (mask : Int32) :
    l.foldl (fun mask x => mask ||| if f x then x.bit else 0) mask &&& o.bit =
      (mask &&& o.bit) ||| if o ∈ l ∧ f o = true then o.bit else 0 := by
  induction l generalizing mask with
  | nil => simp
  | cons x l ih =>
    rw [List.foldl_cons, ih, int32_or_and, Int32.or_assoc]
    congr 1
    by_cases hx : x = o
    · subst hx
      by_cases hf : f x = true
      · by_cases hl : x ∈ l <;> simp [hf, hl]
      · simp [hf]
    · have hbit : (if f x = true then x.bit else 0) &&& o.bit = 0 := by
        split
        · exact bit_and_of_ne hx
        · simp
      simp [hbit, List.mem_cons, Ne.symm hx]

theorem mem_optKeys (o : Opt) : o ∈ optKeys := by
  cases o <;> decide

theorem mask_bit (d : Defaults) (o : Opt) :
    mountOptsMask d &&& o.bit = if mountOpt d o.key then o.bit else 0 := by
  simp [mountOptsMask, foldl_and_bit (fun o => mountOpt d o.key), mem_optKeys]

/-- No option stands for a rescue. -/
theorem mask_rescue (d : Defaults) : mountOptsMask d &&& NFSK_OPEN_REMOVE_HIBERFILE = 0 := by
  have hfold : ∀ (l : List Opt) (mask : Int32), mask &&& NFSK_OPEN_REMOVE_HIBERFILE = 0 →
      l.foldl (fun mask o => mask ||| if mountOpt d o.key then o.bit else 0) mask &&&
        NFSK_OPEN_REMOVE_HIBERFILE = 0 := by
    intro l
    induction l with
    | nil => exact fun mask h => h
    | cons o l ih =>
      intro mask h
      refine ih _ ?_
      rw [int32_or_and, h, Int32.zero_or]
      split
      · cases o <;> rfl
      · rfl
  exact hfold optKeys 0 rfl

theorem rescue_bit (o : Opt) : NFSK_OPEN_REMOVE_HIBERFILE &&& o.bit = 0 := by
  cases o <;> rfl

/-- Each option of the volume is as it is set, `$LogFile` is replayed unless an option says no, and
the hibernation file is ignored for a rescue alone. -/
theorem openVolume_opts (d : Defaults) (io : NfskBlockio) (readonly rescue : Bool) :
    openVolume io readonly (mountVolumeOpts d rescue) =
      { flags := ⟨readonly, !mountOpt d Opt.noRecover.key, rescue⟩
        opt := fun o => mountOpt d o.key } := by
  have hbit : ∀ o : Opt, mountVolumeOpts d rescue &&& o.bit = if mountOpt d o.key then o.bit else 0 := by
    intro o
    unfold mountVolumeOpts
    cases rescue with
    | false => exact mask_bit d o
    | true => simp [int32_or_and, mask_bit, rescue_bit]
  have hopt : ∀ o : Opt, decide (mountVolumeOpts d rescue &&& o.bit ≠ 0) = mountOpt d o.key := by
    intro o
    rw [hbit]
    cases mountOpt d o.key <;> simp [bit_ne_zero]
  have hrecover : mountVolumeOpts d rescue &&& NFSK_OPEN_NORECOVER =
      if mountOpt d Opt.noRecover.key then Opt.noRecover.bit else 0 := hbit .noRecover
  have hrescue : (mountVolumeOpts d rescue &&& NFSK_OPEN_REMOVE_HIBERFILE ≠ 0) ↔ rescue = true := by
    unfold mountVolumeOpts
    cases rescue with
    | false => simp [mask_rescue]
    | true =>
      simp only [if_true, int32_or_and, mask_rescue]
      decide
  have hflags : mountFlags { io with readonly := if readonly then 1 else 0 } 1
      (mountVolumeOpts d rescue) = ⟨readonly, !mountOpt d Opt.noRecover.key, rescue⟩ := by
    simp only [mountFlags, hrecover, hrescue, MountFlags.mk.injEq]
    refine ⟨?_, ?_, by simp⟩
    · cases readonly <;> simp
    · cases mountOpt d Opt.noRecover.key <;> decide
  simp only [openVolume, hflags, hopt]

end Settings
end Usbrw
