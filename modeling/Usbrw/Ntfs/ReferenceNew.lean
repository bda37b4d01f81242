import Usbrw.Ntfs.Create
import Usbrw.Ntfs.Reference

/-!
# Ntfs.ReferenceNew

A library that obeys the laws of `Ntfs.Create` as well: new records are those from 16 to 63.

* `refLibcreate`        — it fails only where there is no record left, or no entry can be made.
* `refLibcreate_lawful` — its calls obey the laws.
-/

namespace Usbrw
namespace Ntfs

open Call Namespace

namespace RefState

variable (s : RefState)

def records : List UInt64 := (List.range' 16 48).map UInt64.ofNat

theorem records_user {r : UInt64} (h : r ∈ records) : FILE_first_user ≤ r ∧ MREF r = r := by
  have hall : records.all (fun r => FILE_first_user ≤ r ∧ MREF r = r) = true := by decide
  simpa using List.all_eq_true.mp hall r h

def freeRecord : Option UInt64 := records.find? fun r => s.ns.node r = none

theorem freeRecord_spec {r : UInt64} (h : s.freeRecord = some r) :
    s.ns.node r = none ∧ FILE_first_user ≤ r ∧ MREF r = r :=
  ⟨by simpa using List.find?_some h, records_user (List.mem_of_find?_eq_some h)⟩

/-- The entry is in a directory, has a name that fits, and refers to a record that was free. -/
def create (k : Key) (n : NtfsInode) {d : NtfsInode} (hname : k.2 ≠ [] ∧ k.2.length ≤ 255)
    (hd : s.ns.node k.1 = some d) (hdir : d.isDirectory = true) (habsent : s.ns.entry k = none)
    (hn : s.ns.node n.mftNo = none) (hrec : MREF n.mftNo = n.mftNo) : RefState where
  ns := s.ns.create k n
  keys := k :: s.keys
  covers := by
    intro k' hk'
    by_cases hne : k' = k
    · rw [hne]
      exact List.mem_cons_self
    · rw [create_entry_of_ne hne] at hk'
      exact List.mem_cons_of_mem _ (s.covers k' hk')
  wellFormed := by
    -- a directory that was there is another record
    have hkept : ∀ r m, s.ns.node r = some m → (s.ns.create k n).node r = some m := by
      intro r m hm
      have hne : r ≠ n.mftNo := by
        rintro rfl
        rw [hn] at hm
        cases hm
      rw [create_node_of_ne hne, hm]
    have hwf := s.wellFormed
    refine ⟨?_, ?_, ?_, ?_, ?_, ?_, hwf.pairPair, hwf.link_pair_entry habsent n.mftNo, hwf.pairDir,
      fun _ => hwf.link_pair_free habsent⟩
    · intro k' r' hk'
      by_cases hne : k' = k
      · rw [hne]
        exact hname.1
      · rw [create_entry_of_ne hne] at hk'
        exact s.wellFormed.named k' r' hk'
    · intro k' r' hk'
      by_cases hne : k' = k
      · rw [hne]
        exact hname.2
      · rw [create_entry_of_ne hne] at hk'
        exact s.wellFormed.short k' r' hk'
    · intro k' r' hk'
      by_cases hne : k' = k
      · rw [hne]
        exact ⟨d, hkept _ _ hd, hdir⟩
      · rw [create_entry_of_ne hne] at hk'
        obtain ⟨d', hd', hdir'⟩ := s.wellFormed.directory k' r' hk'
        exact ⟨d', hkept _ _ hd', hdir'⟩
    · intro k' r' hk'
      by_cases hne : k' = k
      · rw [hne, create_entry_self] at hk'
        rw [← Option.some.inj hk']
        exact hrec
      · rw [create_entry_of_ne hne] at hk'
        exact s.wellFormed.record k' r' hk'
    · intro r m hm
      by_cases hr : r = n.mftNo
      · rw [hr, create_node_self] at hm
        cases hm
        exact hr.symm
      · rw [create_node_of_ne hr] at hm
        exact s.wellFormed.mftNo r m hm
    · intro r m hm
      by_cases hr : r = n.mftNo
      · rwa [hr]
      · rw [create_node_of_ne hr] at hm
        exact s.wellFormed.nodeRecord r m hm

/-- Make a record in a directory, if there is one left and the name is free. -/
def make (d : NtfsInode) (u : List UInt16) (isDirectory : Bool) :
    EStateM Errno RefState NtfsInode := fun s =>
  match s.freeRecord with
  | none => .error noSpace s
  | some r =>
    if h : (s.ns.node r = none ∧ MREF r = r) ∧ s.ns.node d.mftNo = some d ∧
        (u ≠ [] ∧ u.length ≤ 255) ∧ d.isDirectory = true ∧ s.ns.entry (d.mftNo, u) = none then
      .ok ⟨r, false, isDirectory⟩ (s.create (d.mftNo, u) ⟨r, false, isDirectory⟩ h.2.2.1 h.2.1
        h.2.2.2.1 h.2.2.2.2 h.1.1 h.1.2)
    else .error noSpace s

theorem make_spec (ns : Namespace) (d : NtfsInode) (u : List UInt16) (isDirectory : Bool) :
    Spec (view.Is ns) (make d u isDirectory)
      (fun n s => Created ns (d.mftNo, u) n (view.names s)) fun _ => view.Is ns := by
  intro s hs
  rw [← show s.ns = ns from hs]
  simp only [make]
  cases hr : s.freeRecord with
  | none => rfl
  | some r =>
    obtain ⟨hfree, huser, _⟩ := s.freeRecord_spec hr
    by_cases h : (s.ns.node r = none ∧ MREF r = r) ∧ s.ns.node d.mftNo = some d ∧
        (u ≠ [] ∧ u.length ≤ 255) ∧ d.isDirectory = true ∧ s.ns.entry (d.mftNo, u) = none
    · simp only [dif_pos h]
      exact ⟨h.2.2.2.2, huser, hfree, rfl⟩
    · simp only [dif_neg h]
      rfl

end RefState

open RefState

def refLibcreate : Libcreate RefState where
  toLibntfs := refLibntfs
  forbiddenNames _ := none
  create d u t := make d u (t = S_IFDIR)
  createSymlink d u _ := make d u false
  inodeCloseInDir _ _ := fun s => .ok () s

theorem refLibcreate_lawful : LawfulCreate refLibcreate view where
  lawful := refLibntfs_lawful
  create := fun ns d u t _ _ => make_spec ns d u (t = S_IFDIR)
  createSymlink := fun ns d u _ _ _ => make_spec ns d u false
  inodeCloseInDir := fun _ _ _ _ hs => hs

end Ntfs
end Usbrw
