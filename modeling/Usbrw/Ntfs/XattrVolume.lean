import Usbrw.Ntfs.Items
import Usbrw.Ntfs.XattrFailure

/-!
# Ntfs.XattrVolume

Extended attributes as `NTFSVolume` offers them.

* `xattr`, `setXattr`  — the code.
* `setXattr_xattr_iff` — a value that was set is read back if it fits the buffer of `xattr`, which is
  smaller than the limit that the volume declares.
-/

namespace Usbrw
namespace Ntfs

open Call

variable {σ : Type}

def maximumXattrSize : Nat := 1 <<< 20

/-- The buffer of `xattr(named:of:)`. -/
def xattrBuffer : Nat := 64 <<< 10

section Code

variable (lib : Libxattr σ)

/-- `xattr(named:of:)`: of the buffer what `nfsk_getxattr` counts. -/
def xattr (name : FSFileName) (item : FSItem) : EStateM Int σ (List UInt8) :=
  match item, name.string with
  | .ntfs it, some cname => fun s =>
    match nfskGetxattrImpl lib it.mft (cString cname) xattrBuffer s with
    | ((n, bytes), s) =>
      if n < 0 then .error (-n) s
      else .ok ((bytes ++ List.replicate (xattrBuffer - bytes.length) 0).take n.toNat) s
  | _, _ => throw EINVAL

/-- A call of the bridge that returns 0 or is thrown as `posixError(-rc)`. -/
def zeroOrThrow (call : σ → Int × σ) : EStateM Int σ Unit := fun s =>
  match call s with
  | (rc, s) => if rc ≠ 0 then .error (-rc) s else .ok () s

/-- `setXattr(named:to:on:policy:)`; the policy is not looked at, and no value removes. -/
def setXattr (name : FSFileName) (value : Option (List UInt8)) (item : FSItem) :
    EStateM Int σ Unit :=
  match item, name.string, value with
  | .ntfs it, some cname, some value =>
    zeroOrThrow (nfskSetxattrImpl lib it.mft (cString cname) value)
  | .ntfs it, some cname, none => zeroOrThrow (nfskRemovexattrImpl lib it.mft (cString cname))
  | _, _, _ => throw EINVAL

end Code

section Results

variable {lib : Libxattr σ} {V : XattrView σ} {S : Streams} {K : UInt64 → Option UInt32}

theorem zeroOrThrow_ok_iff {call : σ → Int × σ} {s s' : σ} :
    zeroOrThrow call s = .ok () s' ↔ call s = (0, s') := by
  unfold zeroOrThrow
  cases hc : call s with
  | mk rc s₁ =>
    by_cases hrc : rc = 0
    · simp [hrc]
    · simp [hrc]

/-- A name that does not convert is refused. -/
theorem setxattrBody_unconverted {name : List UInt8} {e : Errno} (hname : lib.mbstoucs name = .error e)
    (value : List UInt8) (ni : NtfsInode) :
    Spec (fun _ => True) (setxattrBody lib name value ni) (fun _ _ => False) fun res _ => res < 0 := by
  unfold setxattrBody
  refine Spec.bind (Q := fun _ _ => True) ?_ fun _ => ?_
  · intro s _
    unfold checkXattr
    cases nfskXattrOk lib ni s with
    | true => trivial
    | false => exact (by decide : -EPERM < 0)
  · refine Spec.bind (Q := fun _ _ => False) ?_ fun _ _ hf => hf.elim
    refine Spec.orFail (E := fun _ _ => True) ?_ fun err _ _ => negErrno_neg err
    intro s _
    rw [convert, hname]
    trivial

theorem nfskSetxattr_converts {r : UInt64} {name value : List UInt8} {s s' : σ}
    (h : nfskSetxattrImpl lib r name value s = (0, s')) : ∃ u, lib.mbstoucs name = .ok u := by
  cases hname : lib.mbstoucs name with
  | ok u => exact ⟨u, rfl⟩
  | error e =>
    unfold nfskSetxattrImpl withInode at h
    cases ho : lib.inodeOpen r s with
    | error err s₁ =>
      rw [ho] at h
      have hneg := negErrno_neg err
      have hzero : negErrno err = 0 := congrArg Prod.fst h
      omega
    | ok ni s₁ =>
      have hbody := setxattrBody_unconverted hname value ni s₁ trivial
      rw [ho] at h
      simp only at h
      cases hb : setxattrBody lib name value ni s₁ with
      | ok _ s₂ =>
        rw [hb] at hbody
        exact hbody.elim
      | error res s₂ =>
        rw [hb] at h hbody
        exact absurd (congrArg Prod.fst h) (outNi_ne_zero ni hbody s₂)

/-- `nfsk_getxattr` with a buffer. -/
theorem getAnswer_buffer (value : List UInt8) {buflen : Nat} (hbuf : buflen ≠ 0) :
    getAnswer (some value) buflen =
      if buflen < value.length then (-ERANGE, []) else ((value.length : Int), value) := by
  rw [getAnswer, if_neg hbuf]

/-- What `xattr` makes of the answer. -/
theorem xattr_ok_iff (hL : LawfulXattr lib V) {cname : List UInt8} {u : List UInt16}
    (hu : lib.mbstoucs (cString cname) = .ok u) {it : NTFSItem} (hr : Accepted K it.mft) {s : σ}
    (hs : V.Is S K s) {value : List UInt8} (hvalue : S (it.mft, u) = some value) :
    (∃ s', xattr lib ⟨some cname⟩ (.ntfs it) s = .ok value s') ↔ value.length ≤ xattrBuffer := by
  have hans := nfskGetxattr_answers hL hu xattrBuffer hr hs
  rw [hvalue, getAnswer_buffer value (by decide)] at hans
  unfold xattr
  generalize xattrBuffer = buflen at hans ⊢
  cases hget : nfskGetxattrImpl lib it.mft (cString cname) buflen s with
  | mk ans s₁ =>
    rw [hget] at hans
    simp only at hans
    by_cases hlong : buflen < value.length
    · have hneg : 0 < ERANGE := by decide
      rw [if_pos hlong] at hans
      simp [hget, hans, hneg, hlong]
    · have hnonneg : ¬ (value.length : Int) < 0 := by omega
      rw [if_neg hlong] at hans
      simp [hget, hans, hnonneg, Nat.not_lt.mp hlong]

/-- A value that was set is read back exactly if it fits the buffer, whatever its name. -/
theorem setXattr_xattr_iff (hL : LawfulXattr lib V) {it : NTFSItem} (hr : Accepted K it.mft)
    {name : FSFileName} {value : List UInt8} {s s' : σ} (hs : V.Is S K s)
    (h : setXattr lib name (some value) (.ntfs it) s = .ok () s') :
    (∃ s'', xattr lib name (.ntfs it) s' = .ok value s'') ↔ value.length ≤ xattrBuffer := by
  obtain ⟨string⟩ := name
  cases string with
  | none => cases h
  | some cname =>
    have hset : nfskSetxattrImpl lib it.mft (cString cname) value s = (0, s') :=
      zeroOrThrow_ok_iff.mp h
    obtain ⟨u, hu⟩ := nfskSetxattr_converts hset
    have hs' : V.Is (Function.update S (it.mft, u) (some value)) K s' := by
      refine withInode_spec hL (fun ni hno => ?_) hs hset
      rw [← hno]
      exact setxattrBody_spec hL hu value ni
    exact xattr_ok_iff hL hu hr hs' (Function.update_self ..)

end Results

/-! ## Two values -/

/-- The attribute `a` of record 20. -/
def attrA : FSFileName := ⟨some [0x61]⟩

def item20 : FSItem := .ntfs ⟨20, rootMFT⟩

theorem noXattrs_is : RefXattrs.view.Is (fun _ => none) (fun _ => some 0) noXattrs := by
  have archived : FILE_ATTR_ARCHIVE &&& xattrFlags = 0 := by decide
  exact ⟨rfl, by simp [RefXattrs.view, noXattrs, archived]⟩

theorem accepted_all (r : UInt64) : Accepted (fun _ => some 0) r := rfl

theorem attrA_converts : refLibxattr.mbstoucs (cString [0x61]) = .ok [0x61] := by
  decide +kernel

/-- Any value can be set. -/
theorem setXattr_returns (value : List UInt8) : ∃ s',
    setXattr refLibxattr attrA (some value) item20 noXattrs = .ok () s' ∧
      RefXattrs.view.Is (Function.update (fun _ => none) (20, [0x61]) (some value))
        (fun _ => some 0) s' := by
  obtain ⟨s', hset, hs'⟩ :=
    setxattr_returns refLibxattr_reliable (accepted_all 20) attrA_converts (by decide) value
      noXattrs_is
  exact ⟨s', zeroOrThrow_ok_iff.mpr hset, hs'⟩

theorem setXattr_xattr_five : ∃ s' s'',
    setXattr refLibxattr attrA (some [4, 5, 6, 7, 8]) item20 noXattrs = .ok () s' ∧
      xattr refLibxattr attrA item20 s' = .ok [4, 5, 6, 7, 8] s'' := by
  obtain ⟨s', hset, _⟩ := setXattr_returns [4, 5, 6, 7, 8]
  obtain ⟨s'', hget⟩ :=
    (setXattr_xattr_iff refLibxattr_lawful (accepted_all 20) noXattrs_is hset).mpr (by decide)
  exact ⟨s', s'', hset, hget⟩

/-- A value of a byte more than the buffer, a sixteenth of the declared limit. -/
theorem long_value_unread : ∃ s',
    (List.replicate 65537 (7 : UInt8)).length ≤ maximumXattrSize ∧
      setXattr refLibxattr attrA (some (List.replicate 65537 7)) item20 noXattrs = .ok () s' ∧
      ¬ ∃ s'', xattr refLibxattr attrA item20 s' = .ok (List.replicate 65537 7) s'' := by
  obtain ⟨s', hset, hs'⟩ := setXattr_returns (List.replicate 65537 7)
  have hiff : (∃ s'', xattr refLibxattr attrA item20 s' = .ok (List.replicate 65537 7) s'') ↔
      (List.replicate 65537 (7 : UInt8)).length ≤ xattrBuffer :=
    xattr_ok_iff refLibxattr_lawful attrA_converts (accepted_all 20) hs' (Function.update_self ..)
  rw [List.length_replicate] at hiff
  refine ⟨s', ?_, hset, fun h => ?_⟩
  · rw [List.length_replicate]
    decide
  · exact absurd (hiff.mp h) (by decide)

end Ntfs
end Usbrw
