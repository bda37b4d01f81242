import Mathlib.Logic.Function.Basic
import Usbrw.Base.Region

/-!
# Ext.Volume

What an ext volume holds, as far as the bridge can see it: the inode table and bitmap, the bytes of
every file and the live entries of every directory.

* `Volume.write`  — bytes stored in a file, the size raised when they end past it.
* `Volume.resize` — a size set, nothing else.
* `Volume.named`  — the inode a name resolves to.
* `Volume.Occupied` — a directory with entries other than `.` and `..`.
-/

namespace Usbrw
namespace Ext

open Region

/-- The inode fields the results of the bridge depend on. -/
structure Node where
  mode : UInt16
  links : UInt16
  size : UInt64
  deriving DecidableEq

def LINUX_S_IFMT : UInt16 := 0xF000
def LINUX_S_IFREG : UInt16 := 0x8000
def LINUX_S_IFDIR : UInt16 := 0x4000

def LINUX_S_ISDIR (mode : UInt16) : Bool := mode &&& LINUX_S_IFMT = LINUX_S_IFDIR

def Node.isDir (n : Node) : Bool := LINUX_S_ISDIR n.mode

structure Dirent where
  inode : UInt32
  name : List UInt8
  fileType : UInt8
  deriving DecidableEq

/-- An entry of that name for that inode. -/
def Dirent.Names (name : List UInt8) (ino : UInt32) (e : Dirent) : Prop :=
  e.name = name ∧ e.inode = ino

instance (name : List UInt8) (ino : UInt32) : DecidablePred (Dirent.Names name ino) := by
  intro e
  unfold Dirent.Names
  infer_instance

def dot : List UInt8 := [0x2E]
def dotdot : List UInt8 := [0x2E, 0x2E]

def IsDots (name : List UInt8) : Prop := name = dot ∨ name = dotdot

instance (name : List UInt8) : Decidable (IsDots name) := by
  unfold IsDots
  infer_instance

/-- `dir` lists the live entries of a directory in on-disk order, `.` and `..` among them. -/
structure Volume where
  node : UInt32 → Node
  inUse : UInt32 → Bool
  data : UInt32 → Nat → UInt8
  dir : UInt32 → List Dirent

namespace Volume

def setNode (v : Volume) (ino : UInt32) (n : Node) : Volume :=
  { v with node := Function.update v.node ino n }

def setDir (v : Volume) (d : UInt32) (es : List Dirent) : Volume :=
  { v with dir := Function.update v.dir d es }

def setInUse (v : Volume) (ino : UInt32) (used : Bool) : Volume :=
  { v with inUse := Function.update v.inUse ino used }

def setData (v : Volume) (ino : UInt32) (img : Nat → UInt8) : Volume :=
  { v with data := Function.update v.data ino img }

def resize (v : Volume) (ino : UInt32) (size : UInt64) : Volume :=
  v.setNode ino { v.node ino with size := size }

def store (v : Volume) (ino : UInt32) (pos : Nat) (bytes : List UInt8) : Volume :=
  v.setData ino (overwrite (v.data ino) pos bytes)

/-- The stored bytes from `pos` on that lie below the size, at most `len` of them. -/
def bytesAt (v : Volume) (ino : UInt32) (pos len : Nat) : List UInt8 :=
  slice (v.data ino) pos (min len ((v.node ino).size.toNat - pos))

def write (v : Volume) (ino : UInt32) (pos : Nat) (bytes : List UInt8) : Volume :=
  let v' := v.store ino pos bytes
  if bytes.length ≠ 0 ∧ (v.node ino).size.toNat < pos + bytes.length then
    v'.resize ino (UInt64.ofNat (pos + bytes.length))
  else v'

/-- Release the blocks of a file or directory. -/
def clear (v : Volume) (ino : UInt32) : Volume := (v.setData ino fun _ => 0).setDir ino []

/-- The first live entry of that name. -/
def named (v : Volume) (d : UInt32) (name : List UInt8) : Option UInt32 :=
  ((v.dir d).find? fun e => e.name = name).map Dirent.inode

/-- Without the first entry of that name for that inode. -/
def unlinked (v : Volume) (d : UInt32) (name : List UInt8) (ino : UInt32) : Volume :=
  v.setDir d ((v.dir d).eraseP fun e => e.Names name ino)

def Occupied (v : Volume) (ino : UInt32) : Prop :=
  (v.node ino).isDir = true ∧ ∃ e ∈ v.dir ino, ¬ IsDots e.name

/-! ## What the updates leave alone -/

section Fields

variable (v : Volume) (ino d : UInt32)

@[simp] theorem setNode_node (n : Node) : (v.setNode ino n).node = Function.update v.node ino n :=
  rfl
@[simp] theorem setNode_inUse (n : Node) : (v.setNode ino n).inUse = v.inUse := rfl
@[simp] theorem setNode_data (n : Node) : (v.setNode ino n).data = v.data := rfl
@[simp] theorem setNode_dir (n : Node) : (v.setNode ino n).dir = v.dir := rfl
@[simp] theorem setDir_node (es : List Dirent) : (v.setDir d es).node = v.node := rfl
@[simp] theorem setDir_inUse (es : List Dirent) : (v.setDir d es).inUse = v.inUse := rfl
@[simp] theorem setDir_dir (es : List Dirent) : (v.setDir d es).dir = Function.update v.dir d es :=
  rfl
@[simp] theorem setInUse_node (b : Bool) : (v.setInUse ino b).node = v.node := rfl
@[simp] theorem setInUse_inUse (b : Bool) :
    (v.setInUse ino b).inUse = Function.update v.inUse ino b := rfl
@[simp] theorem setInUse_dir (b : Bool) : (v.setInUse ino b).dir = v.dir := rfl
@[simp] theorem resize_data (n : UInt64) : (v.resize ino n).data = v.data := rfl
@[simp] theorem resize_inUse (n : UInt64) : (v.resize ino n).inUse = v.inUse := rfl
@[simp] theorem resize_dir (n : UInt64) : (v.resize ino n).dir = v.dir := rfl
@[simp] theorem store_node (pos : Nat) (bytes : List UInt8) :
    (v.store ino pos bytes).node = v.node := rfl
@[simp] theorem store_data (pos : Nat) (bytes : List UInt8) :
    (v.store ino pos bytes).data =
      Function.update v.data ino (overwrite (v.data ino) pos bytes) := rfl
@[simp] theorem clear_node : (v.clear ino).node = v.node := rfl
@[simp] theorem clear_inUse : (v.clear ino).inUse = v.inUse := rfl
@[simp] theorem clear_dir : (v.clear ino).dir = Function.update v.dir ino [] := rfl

theorem write_data (pos : Nat) (bytes : List UInt8) :
    (v.write ino pos bytes).data = (v.store ino pos bytes).data := by
  unfold write
  split <;> rfl

theorem resize_write (pos : Nat) (bytes : List UInt8) (n : UInt64) :
    (v.write ino pos bytes).resize ino n = (v.store ino pos bytes).resize ino n := by
  unfold write
  split
  · simp [resize, setNode]
  · rfl

theorem named_congr {v w : Volume} (h : w.dir = v.dir) (d : UInt32) (name : List UInt8) :
    w.named d name = v.named d name := by
  rw [named, named, h]

theorem store_nil (pos : Nat) : v.store ino pos [] = v := by
  simp [store, setData]

end Fields

end Volume

end Ext
end Usbrw
