import Usbrw.Base.Ancestry
import Usbrw.Base.Run
import Usbrw.Ntfs.Steps

/-!
# Ntfs.Tree

The directory tree of an NTFS volume under `nfsk_rename`, which nowhere asks whether a directory is
moved into itself.

* `Holds`, `IsTree`   — the tree. The root's entry `.` for itself is not part of it.
* `MovesIntoItself`   — a rename that links a directory into what it holds.
* `rename_isTree`     — any other rename keeps the tree, whether it succeeds or fails.
-/

namespace Usbrw
namespace Ntfs

open Call Namespace Run Ancestry

variable {σ : Type}

def FILE_root : UInt64 := 5

namespace Namespace

def Directory (ns : Namespace) (d : UInt64) : Prop := ∃ n, ns.node d = some n ∧ n.isDirectory = true

/-- `d` has an entry for the directory `c`. -/
def Holds (ns : Namespace) (d c : UInt64) : Prop :=
  ns.Directory d ∧ ns.Directory c ∧
    ∃ u, ns.entry (d, u) = some c ∧ ¬ (d = FILE_root ∧ u = [0x2E] ∧ c = FILE_root)

def IsTree (ns : Namespace) : Prop := Rooted FILE_root ns.Directory ns.Holds

/-- A new entry for `r` in `d` leads to nothing `d` is in. -/
def Apart (ns : Namespace) (r d : UInt64) : Prop := ns.Directory r → ¬ Below ns.Holds r d

end Namespace

section Entries

variable {V : View σ} {ns ns' : Namespace} {k : Key} {r x d : UInt64}

theorem holds_link {a b : UInt64} (habsent : ns.entry k = none) :
    (ns.Holds a b → (ns.link k r).Holds a b) ∧
      ((ns.link k r).Holds a b → ns.Holds a b ∨ (a = k.1 ∧ b = r ∧ ns.Directory r)) := by
  constructor
  · rintro ⟨ha, hb, u, hu, hroot⟩
    have hne : (a, u) ≠ k := by
      rintro rfl
      rw [habsent] at hu
      cases hu
    exact ⟨ha, hb, u, by rwa [link_entry_of_ne hne], hroot⟩
  · rintro ⟨ha, hb, u, hu, hroot⟩
    by_cases hk : (a, u) = k
    · rw [hk, link_entry_self] at hu
      cases hu
      exact .inr ⟨congrArg Prod.fst hk, rfl, hb⟩
    · rw [link_entry_of_ne hk] at hu
      exact .inl ⟨ha, hb, u, hu, hroot⟩

theorem isTree_link (h : ns.IsTree) (habsent : ns.entry k = none) (hr : ns.Apart r k.1) :
    (ns.link k r).IsTree := by
  refine Rooted.link (p := k.1) (c := r) h (fun _ hd => hd) (fun _ _ hab => hab.1)
    (fun _ _ => (holds_link habsent).1) ?_
  intro a b hab
  rcases (holds_link habsent).2 hab with hold | ⟨ha, hb, hdir⟩
  · exact .inl hold
  · exact .inr ⟨ha, hb, hr hdir⟩

/-- New entries in `d` do not put `d` into anything. -/
theorem Namespace.Apart.link {u : List UInt16} (h : ns.Apart x d)
    (habsent : ns.entry (d, u) = none) : (ns.link (d, u) r).Apart x d := by
  intro hx hbelow
  refine h hx (below_of_adds ?_ hbelow)
  intro a b hab
  rcases (holds_link habsent).2 hab with hold | ⟨ha, _, _⟩
  · exact .inl hold
  · exact .inr ha

/-- What is left of the entries and records when a name went. -/
structure Detached (ns : Namespace) (k : Key) (r : UInt64) (ns' : Namespace) : Prop where
  entries : ∀ k' x, ns'.entry k' = some x ↔ ns.Other k k' ∧ ns.entry k' = some x
  nodes : ∀ x, x ≠ r → ns'.node x = ns.node x
  own : (ns'.node r = ns.node r ∧ ns.NamedBut k r) ∨ (ns'.node r = none ∧ ¬ ns.NamedBut k r)

theorem Dropped.detached {s : σ} (h : Dropped V ns k r s) : Detached ns k r (V.names s) := by
  rcases h with ⟨hnamed, hs⟩ | ⟨hnot, hs⟩
  · rw [hs.eq]
    exact ⟨fun _ _ => unlink_entry_iff, fun _ _ => rfl, .inl ⟨rfl, hnamed⟩⟩
  · rw [hs.eq]
    exact ⟨fun _ _ => unlink_entry_iff, fun _ => free_node_of_ne, .inr ⟨free_node_self, hnot⟩⟩

theorem Detached.directory (h : Detached ns k r ns') (hd : ns'.Directory d) : ns.Directory d := by
  obtain ⟨n, hn, hdir⟩ := hd
  by_cases heq : d = r
  · rw [heq] at hn ⊢
    rcases h.own with ⟨hsame, _⟩ | ⟨hnone, _⟩
    · exact ⟨n, by rwa [hsame] at hn, hdir⟩
    · rw [hnone] at hn
      cases hn
  · exact ⟨n, by rwa [h.nodes d heq] at hn, hdir⟩

theorem Detached.holds {a b : UInt64} (h : Detached ns k r ns') (hab : ns'.Holds a b) :
    ns.Holds a b := by
  obtain ⟨ha, hb, u, hu, hroot⟩ := hab
  exact ⟨h.directory ha, h.directory hb, u, ((h.entries _ _).mp hu).2, hroot⟩

/-- A directory with something in it is not the one that went. -/
theorem Detached.remains (h : Detached ns k r ns')
    (hremovable : ∃ n, ns.node r = some n ∧ ns.Removable k n) (hwf : ns.WellFormed) {a : UInt64} {u : List UInt16} (ha : ns.Directory a)
    (hu : ns.entry (a, u) ≠ none) : ns'.Directory a := by
  obtain ⟨n, hn, hdir⟩ := ha
  by_cases heq : a = r
  · rw [heq] at hn hu ⊢
    rcases h.own with ⟨hsame, _⟩ | ⟨_, hnot⟩
    · exact ⟨n, by rwa [hsame], hdir⟩
    · obtain ⟨n', hn', hempty | hnamed⟩ := hremovable
      · rw [hn] at hn'
        cases hn'
        have hnone := hempty hdir u
        rw [hwf.mftNo _ _ hn] at hnone
        exact absurd hnone hu
      · rw [hwf.mftNo _ _ hn'] at hnamed
        exact absurd hnamed hnot
  · exact ⟨n, by rwa [h.nodes a heq], hdir⟩

/-- An entry that can be removed is not the last one of a directory, unless that is empty and
goes. -/
theorem Detached.isTree (h : Detached ns k r ns') (hwf : ns.WellFormed) (hv : ns.IsTree)
    (hu : Unlinkable ns k r) : ns'.IsTree := by
  have hroot : r ≠ FILE_root := by
    rintro rfl
    exact absurd hu.user (by decide)
  refine Rooted.unlink (c := r) hv (fun _ => h.directory) (fun _ _ hab => hab.1)
    (fun _ _ => h.holds) ?_ ?_ ?_
  · rintro a b ⟨ha, hb, u, hub, hno⟩ hbr
    have hother : ns.Other k (a, u) := by
      refine other_of_entry hwf ?_
      rw [hub, hu.entry]
      exact fun heq => hbr (Option.some.inj heq)
    obtain ⟨n, hn, hdir⟩ := hb
    refine ⟨h.remains hu.node hwf ha (by rw [hub]; exact Option.some_ne_none b),
      ⟨n, by rwa [h.nodes b hbr], hdir⟩, u, (h.entries _ _).mpr ⟨hother, hub⟩, hno⟩
  · intro hr
    obtain ⟨n, hn, hdir⟩ := hr
    rcases h.own with ⟨_, k', hother, hk'⟩ | ⟨hnone, _⟩
    · obtain ⟨d, hd, hddir⟩ := hwf.directory k' r hk'
      refine ⟨k'.1, ?_, ⟨n, hn, hdir⟩, k'.2, (h.entries _ _).mpr ⟨hother, hk'⟩,
        fun hall => hroot hall.2.2⟩
      exact h.remains hu.node hwf ⟨d, hd, hddir⟩ (u := k'.2) (by
        rw [show ns.entry (k'.1, k'.2) = some r from hk']
        exact Option.some_ne_none r)
    · rw [hnone] at hn
      cases hn
  · rintro hr b ⟨hrdir, _, u, hub, _⟩
    exact hr (h.remains hu.node hwf hrdir (by rw [hub]; exact Option.some_ne_none b))

theorem Detached.apart (h : Detached ns k r ns') (hx : ns.Apart x d) : ns'.Apart x d := by
  intro hdir hbelow
  exact hx (h.directory hdir) (Relation.ReflTransGen.mono (fun _ _ => h.holds) _ _ hbelow)

end Entries

/-! ## `nfsk_rename` -/

/-- The source is a directory, the target directory is that or in it, and a link can be made there:
the new name is free, or what has it can be displaced. -/
def MovesIntoItself (lib : Libntfs σ) (sched : Schedule) (renameSeq : Nat) (ns : Namespace)
    (oldDir : UInt64) (oldName : List UInt8) (newDir : UInt64) (newName : List UInt8) : Prop :=
  ∃ ino ou nu, Starts lib ns oldDir oldName newDir ino ou ∧ lib.mbstoucs newName = .ok nu ∧
    ¬ ns.Apart ino newDir ∧
    ((sched .linkNew = none ∧ Linkable ns ino (newDir, nu)) ∨
      ∃ xino, ns.entry (newDir, nu) = some xino ∧ xino ≠ ino ∧
        Proceeds sched ns ino xino oldDir newDir ∧
        TmpLinks lib sched ns xino newDir (tmpName newName (renameSeq + 1)) ∧
        sched .unlinkTarget = none ∧ sched .linkOver = none ∧ ino ≠ newDir)

/-- What holds between the steps of a rename that displaces `xino`. -/
structure Moving (sched : Schedule) (ino xino newDir : UInt64) (ns : Namespace) : Prop where
  isTree : ns.IsTree
  displaced : ns.Apart xino newDir
  source : sched .unlinkTarget = none → sched .linkOver = none → ino ≠ newDir → ns.Apart ino newDir

section Rename

variable {lib : Libntfs σ} {V : View σ} {ns : Namespace} {sched : Schedule} {renameSeq : Nat}
  {oldDir newDir ino xino : UInt64} {oldName newName : List UInt8}

theorem Moving.link {r : UInt64} {u : List UInt16} (h : Moving sched ino xino newDir ns)
    (habsent : ns.entry (newDir, u) = none) (hr : ns.Apart r newDir) :
    Moving sched ino xino newDir (ns.link (newDir, u) r) :=
  ⟨isTree_link h.isTree habsent hr, h.displaced.link habsent,
    fun hvacated hover hne => (h.source hvacated hover hne).link habsent⟩

theorem keepsUnlink_isTree (V : View σ) (d : UInt64) : KeepsUnlink V IsTree d :=
  fun _ _ _ _ hwf hv hu hd => hd.detached.isTree hwf hv hu

theorem keepsUnlink_moving (V : View σ) (d : UInt64) :
    KeepsUnlink V (Moving sched ino xino newDir) d := by
  intro ns u r s hwf h hu hd
  exact ⟨hd.detached.isTree hwf h.isTree hu, hd.detached.apart h.displaced,
    fun hvacated hover hne => hd.detached.apart (h.source hvacated hover hne)⟩

/-- An empty directory leads nowhere. -/
theorem apart_of_empty {nu : List UInt16} (htarget : ns.entry (newDir, nu) = some xino)
    (hnode : ∃ n, ns.node xino = some n ∧ (n.isDirectory = true → ns.Empty xino)) :
    ns.Apart xino newDir := by
  intro hdir hbelow
  obtain ⟨n, hn, hempty⟩ := hnode
  obtain ⟨n', hn', hdir⟩ := hdir
  rw [hn] at hn'
  cases hn'
  rcases hbelow.cases_head with heq | ⟨b, ⟨_, _, u, hu, _⟩, _⟩
  · have hnone := hempty hdir nu
    rw [heq, htarget] at hnone
    cases hnone
  · rw [hempty hdir u] at hu
    cases hu

theorem rename_isTree (hL : Lawful lib V) (hv : ns.IsTree)
    (hno : ¬ MovesIntoItself lib sched renameSeq ns oldDir oldName newDir newName) :
    Spec (V.Is ns) (nfskRenameImpl lib sched renameSeq oldDir oldName newDir newName)
      (fun _ => V.Has IsTree) fun _ => V.Has IsTree := by
  refine rename_has hL hv (fun _ => keepsUnlink_isTree V oldDir)
    (fun _ => keepsUnlink_isTree V newDir) ?_ ?_
  · intro ino ou nu hstarts hnu hsched hl
    refine isTree_link hv hl.absent (by_contra fun hin => hno ?_)
    exact ⟨ino, ou, nu, hstarts, hnu, hin, .inl ⟨hsched, hl⟩⟩
  · intro ino ou xino nu hstarts hnu htarget hne hproceeds
    by_cases htmp : TmpLinks lib sched ns xino newDir (tmpName newName (renameSeq + 1))
    · have hmoving : Moving sched ino xino newDir ns := by
        refine ⟨hv, apart_of_empty htarget hproceeds.node, fun hvacated hover hself => ?_⟩
        refine by_contra fun hin => hno ⟨ino, ou, nu, hstarts, hnu, hin, .inr ?_⟩
        exact ⟨xino, htarget, hne, hproceeds, htmp, hvacated, hover, hself⟩
      refine Spec.conseq (displace_has hL hmoving ?_ ?_ ?_ (keepsUnlink_moving V oldDir)
        (keepsUnlink_moving V newDir)) (fun _ _ h => h.isTree) fun _ _ h => h.isTree
      · exact fun u _ _ hl => hmoving.link hl.absent hmoving.displaced
      · exact fun hvacated hover _ _ _ h hl => h.link hl.absent (h.source hvacated hover hl.apart)
      · exact fun _ _ _ h hl => h.link hl.absent h.displaced
    · exact Spec.conseq (displace_fails hL ns htmp) (fun _ _ hf => hf.elim) fun _ _ h => h.2.has hv

end Rename

end Ntfs
end Usbrw
