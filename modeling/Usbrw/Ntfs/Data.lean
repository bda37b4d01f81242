import Usbrw.Ntfs.Library

/-!
# Ntfs.Data

`nfsk_read` and `nfsk_write`. Here `errno` is what a failed call left in it, of either sign: it comes
from the device through libntfs as it is.

* `Libdata`   — the libntfs-3g calls for the unnamed data attribute.
* `nfskRead`, `nfskWrite` — the code. The volume and the buffer are never NULL.
* `ReadFailsFirst`, `WriteFailsFirst` — a call of the library fails before a byte was transferred.
* `nfskRead_fails`, `nfskWrite_fails` — then the negated `errno` is returned.
-/

namespace Usbrw
namespace Ntfs

variable {τ : Type}

/-- A state of the library, and `errno`. -/
structure Env (τ : Type) where
  state : τ
  errno : Int

/-- An open data attribute. -/
structure NtfsAttr where
  inode : NtfsInode
  dataSize : Int64

inductive DataTimes where
  | atime
  | mctime

/-- `attrPread` also returns what it stored in the buffer, `inodeClose` whether it failed. -/
structure Libdata (τ : Type) where
  inodeOpen : UInt64 → Env τ → Env τ × Option NtfsInode
  inodeClose : NtfsInode → Env τ → Env τ × Bool
  attrOpen : NtfsInode → Env τ → Env τ × Option NtfsAttr
  attrClose : NtfsAttr → Env τ → Env τ
  attrPread : NtfsAttr → Int64 → Int64 → Env τ → Env τ × Int64 × List UInt8
  attrPwrite : NtfsAttr → Int64 → Int64 → List UInt8 → Env τ → Env τ × Int64
  setArchive : NtfsInode → Env τ → Env τ
  inodeUpdateTimes : NtfsInode → DataTimes → Env τ → Env τ

def Env.clear (env : Env τ) : Env τ := { env with errno := 0 }

/-! ## The loops -/

theorem toInt_sub_of_pos {size ret : Int64} (hsize : 0 < size) (hret : 0 < ret) :
    (size - ret).toInt = size.toInt - ret.toInt := by
  have h1 : 0 < size.toInt := Int64.lt_iff_toInt_lt.mp hsize
  have h2 : 0 < ret.toInt := Int64.lt_iff_toInt_lt.mp hret
  have h3 := size.toInt_lt
  have h4 := ret.toInt_lt
  rw [Int64.toInt_sub]
  exact Int.bmod_eq_of_le (by omega) (by omega)

theorem left_decreases {size ret : Int64} (hsize : 0 < size) (hret : ¬ ret ≤ 0) :
    (size - ret).toInt.toNat < size.toInt.toNat := by
  have hpos : 0 < ret := Int64.not_le.mp hret
  have h1 : 0 < size.toInt := Int64.lt_iff_toInt_lt.mp hsize
  have h2 : 0 < ret.toInt := Int64.lt_iff_toInt_lt.mp hpos
  rw [toInt_sub_of_pos hsize hpos]
  omega

section Loops

variable (lib : Libdata τ) (na : NtfsAttr)

/-- Read until nothing is left, or fail with the `errno` to return. -/
def readLoop (off size total : Int64) (out : List UInt8) (env : Env τ) :
    Env τ × Except Int (Int64 × List UInt8) :=
  if _hsize : 0 < size then
    match lib.attrPread na off size env with
    | (env, ret, bs) =>
      if _hret : ret ≤ 0 then (env, .error (if ret < 0 then env.errno else EIO))
      else if size < ret then (env, .error EIO)
      else readLoop (off + ret) (size - ret) (total + ret) (out ++ bs) env
  else (env, .ok (total, out))
termination_by size.toInt.toNat
decreasing_by exact left_decreases _hsize _hret

/-- Write until nothing is left. Returns what was written and, if it failed, `errno`. -/
def writeLoop (off size total : Int64) (buf : List UInt8) (env : Env τ) :
    Env τ × Int64 × Option Int :=
  if _hsize : 0 < size then
    match lib.attrPwrite na off size (buf.drop total.toInt.toNat) env with
    | (env, ret) =>
      if _hret : ret ≤ 0 then (env, total, some env.errno)
      else writeLoop (off + ret) (size - ret) (total + ret) buf env
  else (env, total, none)
termination_by size.toInt.toNat
decreasing_by exact left_decreases _hsize _hret

end Loops

/-! ## `nfsk_read` -/

section Read

variable (lib : Libdata τ) (noatime : Bool)

/-- What is left of a request at the end of the data. -/
def clipped (na : NtfsAttr) (off size : Int64) : Int64 :=
  if na.dataSize < off + size then na.dataSize - off else size

/-- What `nfsk_read` does with an open attribute: the bytes it transferred, or an `errno`. -/
def readAttr (ni : NtfsInode) (na : NtfsAttr) (off size : Int64) (env : Env τ) :
    Env τ × Except Int (Int64 × List UInt8) :=
  if off < na.dataSize then
    match readLoop lib na off (clipped na off size) 0 [] env with
    | (env, .error e) => (env, .error e)
    | (env, .ok (total, out)) =>
      (if 0 < total ∧ ¬ noatime then lib.inodeUpdateTimes ni .atime env else env, .ok (total, out))
  else (env, .ok (0, []))

/-- Returns what the C function returns, and what it stored in the buffer. -/
def nfskRead (mft offset len : UInt64) (env : Env τ) : Env τ × Int × List UInt8 :=
  if len = 0 then (env.clear, 0, [])
  else
    match lib.inodeOpen mft env.clear with
    | (env, none) => (env, -env.errno, [])
    | (env, some ni) =>
      if ni.reparsePoint then ((lib.inodeClose ni env).1, -EOPNOTSUPP, [])
      else
        match lib.attrOpen ni env with
        | (env, none) => ((lib.inodeClose ni env).1, -env.errno, [])
        | (env, some na) =>
          match readAttr lib noatime ni na offset.toInt64 len.toInt64 env with
          | (env, .error e) => ((lib.inodeClose ni (lib.attrClose na env)).1, -e, [])
          | (env, .ok (total, out)) =>
            match lib.inodeClose ni (lib.attrClose na env) with
            | (env, fails) =>
              if fails ∧ total = 0 then (env, -env.errno, out) else (env, total.toInt, out)

/-- A call of the library fails before a byte was read, and leaves `e` in `errno`. -/
inductive ReadFailsFirst (mft offset len : UInt64) (env : Env τ) (e : Int) : Prop where
  | inodeOpen {env₁ : Env τ} (hlen : len ≠ 0) (hopen : lib.inodeOpen mft env.clear = (env₁, none))
      (he : env₁.errno = e)
  | attrOpen {env₁ env₂ : Env τ} {ni : NtfsInode} (hlen : len ≠ 0)
      (hopen : lib.inodeOpen mft env.clear = (env₁, some ni)) (hplain : ni.reparsePoint = false)
      (hattr : lib.attrOpen ni env₁ = (env₂, none)) (he : env₂.errno = e)
  | transfer {env₁ env₂ env₃ : Env τ} {ni : NtfsInode} {na : NtfsAttr} {bs : List UInt8}
      (hlen : len ≠ 0) (hopen : lib.inodeOpen mft env.clear = (env₁, some ni))
      (hplain : ni.reparsePoint = false) (hattr : lib.attrOpen ni env₁ = (env₂, some na))
      (hin : offset.toInt64 < na.dataSize)
      (hsize : 0 < clipped na offset.toInt64 len.toInt64)
      (hread : lib.attrPread na offset.toInt64 (clipped na offset.toInt64 len.toInt64) env₂ =
        (env₃, -1, bs)) (he : env₃.errno = e)

theorem nfskRead_fails {mft offset len : UInt64} {env : Env τ} {e : Int}
    (h : ReadFailsFirst lib mft offset len env e) :
    (nfskRead lib noatime mft offset len env).2.1 = -e := by
  unfold nfskRead
  cases h with
  | inodeOpen hlen hopen he => simp only [if_neg hlen, hopen, he]
  | attrOpen hlen hopen hplain hattr he =>
    simp only [if_neg hlen, hopen, hplain, Bool.false_eq_true, if_false, hattr, he]
  | transfer hlen hopen hplain hattr hin hsize hread he =>
    have hneg : (-1 : Int64) ≤ 0 := by decide
    have hneg' : (-1 : Int64) < 0 := by decide
    simp only [if_neg hlen, hopen, hplain, Bool.false_eq_true, if_false, hattr, readAttr, if_pos hin]
    rw [readLoop, dif_pos hsize, hread]
    simp only [hneg, hneg', dif_pos, if_true, he]

end Read

/-! ## `nfsk_write` -/

section Write

variable (lib : Libdata τ)

/-- Returns what the C function returns. -/
def nfskWrite (mft offset len : UInt64) (buf : List UInt8) (env : Env τ) : Env τ × Int :=
  if len = 0 then (env.clear, 0)
  else
    match lib.inodeOpen mft env.clear with
    | (env, none) => (env, -env.errno)
    | (env, some ni) =>
      if mft < FILE_first_user then ((lib.inodeClose ni env).1, -EPERM)
      else if ni.reparsePoint then ((lib.inodeClose ni env).1, -EOPNOTSUPP)
      else
        match lib.attrOpen ni env with
        | (env, none) => ((lib.inodeClose ni env).1, -env.errno)
        | (env, some na) =>
          match writeLoop lib na offset.toInt64 len.toInt64 0 buf env with
          | (env, total, some e) =>
            ((lib.inodeClose ni (lib.attrClose na env)).1, if 0 < total then total.toInt else -e)
          | (env, total, none) =>
            let env := lib.attrClose na env
            let env := if 0 < total then lib.inodeUpdateTimes ni .mctime (lib.setArchive ni env)
              else env
            match lib.inodeClose ni env with
            | (env, fails) => if fails ∧ total = 0 then (env, -env.errno) else (env, total.toInt)

/-- How a call of `nfsk_write` ends. -/
inductive WriteEnds (mft offset len : UInt64) (buf : List UInt8) (env : Env τ) :
    Env τ × Int → Prop where
  | nothing (hlen : len = 0) : WriteEnds mft offset len buf env (env.clear, 0)
  | unopened {env₁ : Env τ} (hopen : lib.inodeOpen mft env.clear = (env₁, none)) :
    WriteEnds mft offset len buf env (env₁, -env₁.errno)
  | refused {env₁ : Env τ} {ni : NtfsInode} {rc : Int}
      (hopen : lib.inodeOpen mft env.clear = (env₁, some ni)) (hrc : rc < 0) :
    WriteEnds mft offset len buf env ((lib.inodeClose ni env₁).1, rc)
  | noData {env₁ env₂ : Env τ} {ni : NtfsInode}
      (hopen : lib.inodeOpen mft env.clear = (env₁, some ni))
      (hattr : lib.attrOpen ni env₁ = (env₂, none)) :
    WriteEnds mft offset len buf env ((lib.inodeClose ni env₂).1, -env₂.errno)
  | cutShort {env₁ env₂ env₃ : Env τ} {ni : NtfsInode} {na : NtfsAttr} {total : Int64} {e : Int}
      (hopen : lib.inodeOpen mft env.clear = (env₁, some ni))
      (hattr : lib.attrOpen ni env₁ = (env₂, some na))
      (hloop : writeLoop lib na offset.toInt64 len.toInt64 0 buf env₂ = (env₃, total, some e)) :
    WriteEnds mft offset len buf env
      ((lib.inodeClose ni (lib.attrClose na env₃)).1, if 0 < total then total.toInt else -e)
  | stored {env₁ env₂ env₃ env₄ : Env τ} {ni : NtfsInode} {na : NtfsAttr} {total : Int64}
      {fails : Bool} (hopen : lib.inodeOpen mft env.clear = (env₁, some ni))
      (hattr : lib.attrOpen ni env₁ = (env₂, some na))
      (hloop : writeLoop lib na offset.toInt64 len.toInt64 0 buf env₂ = (env₃, total, none))
      (hclose : lib.inodeClose ni (if 0 < total then
          lib.inodeUpdateTimes ni .mctime (lib.setArchive ni (lib.attrClose na env₃))
        else lib.attrClose na env₃) = (env₄, fails)) :
    WriteEnds mft offset len buf env
      (env₄, if fails = true ∧ total = 0 then -env₄.errno else total.toInt)

theorem nfskWrite_ends (mft offset len : UInt64) (buf : List UInt8) (env : Env τ) :
    WriteEnds lib mft offset len buf env (nfskWrite lib mft offset len buf env) := by
  unfold nfskWrite
  by_cases hlen : len = 0
  · rw [if_pos hlen]
    exact .nothing hlen
  rw [if_neg hlen]
  cases hopen : lib.inodeOpen mft env.clear with
  | mk env₁ ino =>
  cases ino with
  | none => exact .unopened hopen
  | some ni =>
  by_cases hsystem : mft < FILE_first_user
  · simp only [if_pos hsystem]
    exact .refused hopen (by decide)
  by_cases hreparse : ni.reparsePoint = true
  · simp only [if_neg hsystem, if_pos hreparse]
    exact .refused hopen (by decide)
  simp only [if_neg hsystem, if_neg hreparse]
  cases hattr : lib.attrOpen ni env₁ with
  | mk env₂ attr =>
  cases attr with
  | none => exact .noData hopen hattr
  | some na =>
  cases hloop : writeLoop lib na offset.toInt64 len.toInt64 0 buf env₂ with
  | mk env₃ res =>
  obtain ⟨total, err⟩ := res
  cases err with
  | some e =>
    simp only [hloop]
    exact .cutShort hopen hattr hloop
  | none =>
    cases hclose : lib.inodeClose ni (if 0 < total then
        lib.inodeUpdateTimes ni .mctime (lib.setArchive ni (lib.attrClose na env₃))
      else lib.attrClose na env₃) with
    | mk env₄ fails =>
    have hend := WriteEnds.stored hopen hattr hloop hclose
    simp only [hloop, hclose]
    by_cases hfails : fails = true ∧ total = 0
    · rw [if_pos hfails] at hend ⊢
      exact hend
    · rw [if_neg hfails] at hend ⊢
      exact hend

/-- A call of the library fails before a byte was written, and leaves `e` in `errno`. -/
inductive WriteFailsFirst (mft offset len : UInt64) (buf : List UInt8) (env : Env τ) (e : Int) :
    Prop where
  | inodeOpen {env₁ : Env τ} (hlen : len ≠ 0) (hopen : lib.inodeOpen mft env.clear = (env₁, none))
      (he : env₁.errno = e)
  | attrOpen {env₁ env₂ : Env τ} {ni : NtfsInode} (hlen : len ≠ 0)
      (huser : ¬ mft < FILE_first_user)
      (hopen : lib.inodeOpen mft env.clear = (env₁, some ni)) (hplain : ni.reparsePoint = false)
      (hattr : lib.attrOpen ni env₁ = (env₂, none)) (he : env₂.errno = e)
  | transfer {env₁ env₂ env₃ : Env τ} {ni : NtfsInode} {na : NtfsAttr} (hlen : len ≠ 0)
      (huser : ¬ mft < FILE_first_user)
      (hopen : lib.inodeOpen mft env.clear = (env₁, some ni)) (hplain : ni.reparsePoint = false)
      (hattr : lib.attrOpen ni env₁ = (env₂, some na)) (hsize : 0 < len.toInt64)
      (hwrite : lib.attrPwrite na offset.toInt64 len.toInt64 buf env₂ = (env₃, -1))
      (he : env₃.errno = e)

theorem nfskWrite_fails {mft offset len : UInt64} {buf : List UInt8} {env : Env τ} {e : Int}
    (h : WriteFailsFirst lib mft offset len buf env e) :
    (nfskWrite lib mft offset len buf env).2 = -e := by
  unfold nfskWrite
  cases h with
  | inodeOpen hlen hopen he => simp only [if_neg hlen, hopen, he]
  | attrOpen hlen huser hopen hplain hattr he =>
    simp only [if_neg hlen, if_neg huser, hopen, hplain, Bool.false_eq_true, if_false, hattr, he]
  | transfer hlen huser hopen hplain hattr hsize hwrite he =>
    have hneg : (-1 : Int64) ≤ 0 := by decide
    have hnone : ¬ (0 : Int64) < 0 := by decide
    have hstart : buf.drop (0 : Int64).toInt.toNat = buf := rfl
    simp only [if_neg hlen, if_neg huser, hopen, hplain, Bool.false_eq_true, if_false, hattr]
    rw [writeLoop, dif_pos hsize, hstart, hwrite]
    simp only [hneg, dif_pos, if_neg hnone, he]

end Write

end Ntfs
end Usbrw
