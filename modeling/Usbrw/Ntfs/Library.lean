import Usbrw.Errno
import Usbrw.Base.Call
import Usbrw.Ntfs.Namespace

/-!
# Ntfs.Library

The libntfs-3g calls that `ntfs_fskit.c` makes for names, over a state `σ` of the library.

* `Libntfs` — the calls. Each returns its result, or fails and sets `errno`.
* `View`    — the namespace in a state of the library.
* `Lawful`  — what each call does to it, and when it fails. Faults of the volume underneath are not
  the library's here but a schedule's (`Ntfs.Rename`).
-/

namespace Usbrw
namespace Ntfs

open Call

/-- An `errno` that a failed call has set. -/
abbrev Errno : Type := { e : Int // 0 < e }

theorem ENOENT_pos : 0 < ENOENT := by decide
theorem EINVAL_pos : 0 < EINVAL := by decide
theorem EILSEQ_pos : 0 < EILSEQ := by decide
theorem EOPNOTSUPP_pos : 0 < EOPNOTSUPP := by decide
theorem EIO_pos : 0 < EIO := by decide

def FILE_Extend : UInt64 := 11
def FILE_first_user : UInt64 := 16

inductive UpdateTimes where
  | ctime
  | mctime

structure Libntfs (σ : Type) : Type where
  mbstoucs : List UInt8 → Except Errno (List UInt16)
  inodeOpen : UInt64 → EStateM Errno σ NtfsInode
  inodeClose : NtfsInode → EStateM Errno σ Unit
  inodeLookupByName : NtfsInode → List UInt16 → EStateM Errno σ UInt64
  inodeUpdateTimes : NtfsInode → UpdateTimes → σ → σ
  checkEmptyDir : NtfsInode → EStateM Errno σ Unit
  link : NtfsInode → NtfsInode → List UInt16 → EStateM Errno σ Unit
  delete : NtfsInode → NtfsInode → List UInt16 → EStateM Errno σ Unit

variable {σ : Type}

structure View (σ : Type) where
  names : σ → Namespace
  wellFormed : ∀ s, (names s).WellFormed

def View.Is (V : View σ) (ns : Namespace) (s : σ) : Prop := V.names s = ns

theorem View.Is.eq {V : View σ} {ns : Namespace} {s : σ} (h : V.Is ns s) : V.names s = ns := h

/-- A directory with entries in it cannot lose its last name. -/
def Namespace.Removable (ns : Namespace) (k : Key) (n : NtfsInode) : Prop :=
  (n.isDirectory = true → ns.Empty n.mftNo) ∨ ns.NamedBut k n.mftNo

/-- An inode can have the name in the directory, which is not the inode itself. -/
structure Namespace.Admits (ns : Namespace) (n d : NtfsInode) (u : List UInt16) : Prop where
  named : u ≠ []
  apart : n.mftNo ≠ d.mftNo
  dir : d.isDirectory = true
  absent : ns.entry (d.mftNo, u) = none

/-- The entry went, with its alias, and its record with it if that was its last name. -/
def Dropped (V : View σ) (ns : Namespace) (k : Key) (r : UInt64) (s : σ) : Prop :=
  (ns.NamedBut k r ∧ V.Is (ns.unlink k) s) ∨ (¬ ns.NamedBut k r ∧ V.Is ((ns.unlink k).free r) s)

structure Lawful (lib : Libntfs σ) (V : View σ) : Prop where
  inodeOpen : ∀ ns r, Spec (V.Is ns) (lib.inodeOpen r) (fun n s => ns.node r = some n ∧ V.Is ns s)
    fun _ s => ns.node r = none ∧ V.Is ns s
  inodeClose : ∀ ns n, Spec (V.Is ns) (lib.inodeClose n) (fun _ => V.Is ns) fun _ _ => False
  inodeLookupByName : ∀ ns n u, Spec (V.Is ns) (lib.inodeLookupByName n u)
    (fun iref s => ns.entry (n.mftNo, u) = some (MREF iref) ∧ V.Is ns s)
    fun _ s => ns.entry (n.mftNo, u) = none ∧ V.Is ns s
  inodeUpdateTimes : ∀ ns n w s, V.Is ns s → V.Is ns (lib.inodeUpdateTimes n w s)
  checkEmptyDir : ∀ ns n, Spec (V.Is ns) (lib.checkEmptyDir n)
    (fun _ s => (n.isDirectory = true → ns.Empty n.mftNo) ∧ V.Is ns s)
    fun _ s => ¬ (n.isDirectory = true → ns.Empty n.mftNo) ∧ V.Is ns s
  /-- For inodes as they are, and a name of at most 255 units. -/
  link : ∀ ns n d u, ns.node n.mftNo = some n → ns.node d.mftNo = some d → u.length ≤ 255 →
    Spec (V.Is ns) (lib.link n d u)
      (fun _ s => ns.Admits n d u ∧ V.Is (ns.link (d.mftNo, u) n.mftNo) s)
      fun _ s => ¬ ns.Admits n d u ∧ V.Is ns s
  /-- For inodes as they are, and an entry that refers to the record. Of a pair both names go. -/
  delete : ∀ ns n d u, ns.node n.mftNo = some n → ns.entry (d.mftNo, u) = some n.mftNo →
    Spec (V.Is ns) (lib.delete n d u)
      (fun _ s => ns.Removable (d.mftNo, u) n ∧ Dropped V ns (d.mftNo, u) n.mftNo s)
      fun _ s => ¬ ns.Removable (d.mftNo, u) n ∧ V.Is ns s

end Ntfs
end Usbrw
