import Usbrw.Base.Run
import Usbrw.Ext.Create

/-!
# Ext.Interleave

Two calls of `extfsk_create` for a regular file on one volume, in any order of their calls of the
library.

* `Stage`         — where a call is: before which call of the library, with the inode it has picked.
* `Creation.step` — one call of the library.
* `Shared.step`   — one step of one of the two.
* `alone`         — a call whose steps nothing comes between is `extfsk_create`.
-/

namespace Usbrw
namespace Ext

open Call Volume

variable {σ : Type}

/-- The arguments of a call for a type other than `'d'`. -/
structure Creation where
  dirIno : UInt64
  name : List UInt8
  mode : UInt32
  uid : UInt32
  gid : UInt32

abbrev Creation.dir (c : Creation) : UInt32 := c.dirIno.toUInt32

inductive Stage where
  | pick
  | link (child : UInt32)
  | expand (child : UInt32)
  | linkAgain (child : UInt32)
  | write (child : UInt32)
  | account (child : UInt32)
  | returned (r : Except Int UInt64)

/-- The inode a call has picked, if it has not failed. -/
def Stage.child : Stage → Option UInt32
  | .pick => none
  | .link child => some child
  | .expand child => some child
  | .linkAgain child => some child
  | .write child => some child
  | .account child => some child
  | .returned (.ok ino) => some ino.toUInt32
  | .returned (.error _) => none

/-- `ext2fs_link` is the call's next step. -/
def Stage.Links (child : UInt32) (p : Stage) : Prop := p = .link child ∨ p = .linkAgain child

/-- The call has its entry, if it has not failed. -/
def Stage.Linked : Stage → Prop
  | .write _ => True
  | .account _ => True
  | .returned _ => True
  | _ => False

def Stage.failed (e : Errcode) : Stage := .returned (.error (translateErrno e))

section Step

variable (fs : Ext2fsNew σ) (c : Creation)

/-- `ext2fs_link`, and what follows it in either place: `again` where the directory is full. -/
def Creation.linkStep (child : UInt32) (again : Stage) (s : σ) : Stage × σ :=
  match fs.link c.dir c.name child EXT2_FT_REG_FILE s with
  | .ok () s' => (.write child, s')
  | .error e s' => (if e = .dirNoSpace then again else .failed e, s')

def Creation.step : Stage → σ → Stage × σ
  | .pick, s =>
    if 255 < c.name.length then (.returned (.error (-ENAMETOOLONG)), s)
    else
      match fs.newInode c.dir (regularMode c.mode) s with
      | .ok child s' => (.link child, s')
      | .error e s' => (.failed e, s')
  | .link child, s => c.linkStep fs child (.expand child) s
  | .expand child, s =>
    match fs.expandDir c.dir s with
    | .ok () s' => (.linkAgain child, s')
    | .error e s' => (.failed e, s')
  | .linkAgain child, s => c.linkStep fs child (.failed .dirNoSpace) s
  | .write child, s =>
    match fs.writeNewInode child (newFileInode (regularMode c.mode) c.uid c.gid (fs.time s)) s with
    | .ok () s' => (.account child, s')
    | .error e s' => (.failed e, s')
  | .account child, s => (.returned (.ok child.toUInt64), fs.inodeAllocStats2 child 1 false s)
  | .returned r, s => (.returned r, s)

/-- Where a call of `extfsk_create` ends. -/
def ended (r : EStateM.Result Int σ UInt64) : Stage × σ :=
  match r with
  | .ok ino s => (.returned (.ok ino), s)
  | .error e s => (.returned (.error e), s)

def Creation.steps : Nat → Stage × σ → Stage × σ
  | 0, q => q
  | n + 1, q => Creation.steps n (c.step fs q.1 q.2)

theorem steps_returned (n : Nat) (r : Except Int UInt64) (s : σ) :
    c.steps fs n (.returned r, s) = (.returned r, s) := by
  induction n with
  | zero => rfl
  | succ n ih => exact ih

theorem steps_failed (n : Nat) (e : Errcode) (s : σ) :
    c.steps fs n (.failed e, s) =
      ended (.error (translateErrno e) s : EStateM.Result Int σ UInt64) :=
  steps_returned fs c n _ s

/-- With its entry a call has two steps left. -/
theorem steps_write (n : Nat) (child : UInt32) (s : σ) :
    c.steps fs (n + 2) (.write child, s) =
      ended (finishFile fs child (regularMode c.mode) c.uid c.gid s) := by
  unfold finishFile
  rw [run_get_bind]
  simp only [Creation.steps, Creation.step]
  cases hwrite : fs.writeNewInode child
      (newFileInode (regularMode c.mode) c.uid c.gid (fs.time s)) s with
  | ok _ s' =>
    rw [run_bind_ok (run_orFail_ok hwrite), run_modify_bind]
    exact steps_returned fs c n _ _
  | error e s' =>
    rw [run_bind_error (run_orFail_error hwrite)]
    exact steps_failed fs c n e s'

/-- What is left of a call that has picked its inode. -/
def linkFinish (child : UInt32) : EStateM Int σ UInt64 := do
  orFail translateErrno (linkExpanding fs.toExt2fs c.dir c.name child EXT2_FT_REG_FILE)
  finishFile fs child (regularMode c.mode) c.uid c.gid

variable {fs c}

theorem linkFinish_ok {child : UInt32} {s s' : σ}
    (h : linkExpanding fs.toExt2fs c.dir c.name child EXT2_FT_REG_FILE s = .ok () s') :
    linkFinish fs c child s = finishFile fs child (regularMode c.mode) c.uid c.gid s' :=
  run_bind_ok (run_orFail_ok h)

theorem linkFinish_error {child : UInt32} {s s' : σ} {e : Errcode}
    (h : linkExpanding fs.toExt2fs c.dir c.name child EXT2_FT_REG_FILE s = .error e s') :
    linkFinish fs c child s = .error (translateErrno e) s' :=
  run_bind_error (run_orFail_error h)

/-- The directory was full: it grows, and the entry is tried again. -/
theorem steps_expand {child : UInt32} {s s₁ : σ}
    (hfull : fs.link c.dir c.name child EXT2_FT_REG_FILE s = .error .dirNoSpace s₁) :
    c.steps fs 4 (.expand child, s₁) = ended (linkFinish fs c child s) := by
  have hrun : linkExpanding fs.toExt2fs c.dir c.name child EXT2_FT_REG_FILE s =
      (do fs.expandDir c.dir; fs.link c.dir c.name child EXT2_FT_REG_FILE) s₁ :=
    run_bind_ok (run_attempt_error hfull)
  rw [Creation.steps, Creation.step]
  cases hexpand : fs.expandDir c.dir s₁ with
  | error e s₂ =>
    rw [run_bind_error hexpand] at hrun
    rw [linkFinish_error hrun]
    exact steps_failed fs c 3 e s₂
  | ok _ s₂ =>
    rw [run_bind_ok hexpand] at hrun
    show c.steps fs 2 (c.linkStep fs child (.failed .dirNoSpace) s₂) = _
    unfold Creation.linkStep
    cases hlink : fs.link c.dir c.name child EXT2_FT_REG_FILE s₂ with
    | ok _ s₃ =>
      rw [linkFinish_ok (hrun.trans hlink)]
      exact steps_write fs c 0 child s₃
    | error e s₃ =>
      rw [linkFinish_error (hrun.trans hlink)]
      by_cases he : e = .dirNoSpace
      · simp only [he, if_pos]
        exact steps_failed fs c 2 _ s₃
      · simp only [he, if_false]
        exact steps_failed fs c 2 e s₃

theorem steps_link (child : UInt32) (s : σ) :
    c.steps fs 5 (.link child, s) = ended (linkFinish fs c child s) := by
  show c.steps fs 4 (c.linkStep fs child (.expand child) s) = _
  unfold Creation.linkStep
  cases hlink : fs.link c.dir c.name child EXT2_FT_REG_FILE s with
  | ok _ s' =>
    rw [linkFinish_ok (run_bind_ok (run_attempt_ok hlink))]
    exact steps_write fs c 2 child s'
  | error e s' =>
    by_cases he : e = .dirNoSpace
    · rw [he] at hlink
      simp only [he, if_pos]
      exact steps_expand hlink
    · have hrun : linkExpanding fs.toExt2fs c.dir c.name child EXT2_FT_REG_FILE s = .error e s' := by
        unfold linkExpanding
        rw [run_bind_ok (run_attempt_error hlink)]
        simp only [he, if_false]
        rfl
      rw [linkFinish_error hrun]
      simp only [he, if_false]
      exact steps_failed fs c 4 e s'

variable (fs c)

/-- At most six steps alone are the call. -/
theorem alone {type : Char} (htype : type ≠ 'd') (s : σ) :
    c.steps fs 6 (.pick, s) =
      ended (extfskCreate fs c.dirIno c.name type c.mode c.uid c.gid s) := by
  unfold extfskCreate createFile
  rw [Creation.steps, Creation.step]
  by_cases hlen : 255 < c.name.length
  · simp only [if_pos hlen]
    exact steps_returned fs c 5 _ s
  · simp only [if_neg hlen, if_neg htype]
    cases hnew : fs.newInode c.dir (regularMode c.mode) s with
    | ok child s' =>
      rw [run_bind_ok (run_orFail_ok hnew)]
      exact steps_link child s'
    | error e s' =>
      rw [run_bind_error (run_orFail_error hnew)]
      exact steps_failed fs c 5 e s'

end Step

/-! ## Two calls -/

inductive Caller where
  | first
  | second
  deriving DecidableEq

def Caller.other : Caller → Caller
  | .first => .second
  | .second => .first

structure Shared (σ : Type) where
  state : σ
  stage : Caller → Stage

/-- Neither call has begun. -/
def Shared.begin (s : σ) : Shared σ := ⟨s, fun _ => .pick⟩

def Shared.step (fs : Ext2fsNew σ) (calls : Caller → Creation) (x : Shared σ) (t : Caller) :
    Shared σ :=
  let q := (calls t).step fs (x.stage t) x.state
  ⟨q.2, Function.update x.stage t q.1⟩

section Steps

variable {fs : Ext2fsNew σ} {calls : Caller → Creation} {x : Shared σ} {t u : Caller}

theorem step_state :
    (x.step fs calls t).state = ((calls t).step fs (x.stage t) x.state).2 := rfl

theorem step_stage_self :
    (x.step fs calls t).stage t = ((calls t).step fs (x.stage t) x.state).1 :=
  Function.update_self ..

theorem step_stage_of_ne (h : u ≠ t) : (x.step fs calls t).stage u = x.stage u :=
  Function.update_of_ne h ..

end Steps

end Ext
end Usbrw
