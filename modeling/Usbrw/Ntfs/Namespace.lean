import Mathlib.Logic.Function.Basic

/-!
# Ntfs.Namespace

The directory entries of an NTFS volume and the records they refer to. Names are UTF-16 and compared
as they are. A long name and its 8.3 alias are two entries that go together; the names that
`ntfs_link` makes have no alias.

* `link`, `unlink`, `free` — the changes the library makes.
* `Named`, `NamedBut`      — an entry refers to a record, and another name than a given one does.
* `WellFormed`             — names have 1 to 255 units, entries are in directories, record numbers
  fit a reference, and both names of a pair are in one directory and refer to one record.
-/

namespace Usbrw
namespace Ntfs

/-- What `nfsk_iget` gives of a record: its number, `FILE_ATTR_REPARSE_POINT` of its flags and
`MFT_RECORD_IS_DIRECTORY` of its header. -/
structure NtfsInode where
  mftNo : UInt64
  reparsePoint : Bool
  isDirectory : Bool
  deriving DecidableEq

/-- The record number of a reference, without its sequence number. -/
def MREF (iref : UInt64) : UInt64 := iref &&& 0x0000FFFFFFFFFFFF

/-- A directory's record and a name in it. -/
abbrev Key : Type := UInt64 × List UInt16

/-- `pair` takes a name in the WIN32 namespace to its alias in the DOS namespace and the other way
round, and a name that is neither to itself. A record has one such pair at most, which nothing here
depends on. -/
@[ext] structure Namespace where
  entry : Key → Option UInt64
  node : UInt64 → Option NtfsInode
  pair : Key → Key

namespace Namespace

def link (ns : Namespace) (k : Key) (r : UInt64) : Namespace :=
  { ns with entry := Function.update ns.entry k (some r) }

/-- Both names of a pair go. -/
def unlink (ns : Namespace) (k : Key) : Namespace :=
  { ns with
    entry := fun k' => if k' = k ∨ k' = ns.pair k then none else ns.entry k'
    pair := fun k' => if k' = k ∨ k' = ns.pair k then k' else ns.pair k' }

def free (ns : Namespace) (r : UInt64) : Namespace :=
  { ns with node := Function.update ns.node r none }

def Named (ns : Namespace) (r : UInt64) : Prop := ∃ k, ns.entry k = some r

/-- `k'` is another name than `k`, and not its alias either. -/
def Other (ns : Namespace) (k k' : Key) : Prop := k' ≠ k ∧ k' ≠ ns.pair k

def NamedBut (ns : Namespace) (k : Key) (r : UInt64) : Prop :=
  ∃ k', ns.Other k k' ∧ ns.entry k' = some r

/-- No entry is in the directory. -/
def Empty (ns : Namespace) (d : UInt64) : Prop := ∀ u, ns.entry (d, u) = none

structure WellFormed (ns : Namespace) : Prop where
  named : ∀ k r, ns.entry k = some r → k.2 ≠ []
  short : ∀ k r, ns.entry k = some r → k.2.length ≤ 255
  directory : ∀ k r, ns.entry k = some r → ∃ n, ns.node k.1 = some n ∧ n.isDirectory = true
  record : ∀ k r, ns.entry k = some r → MREF r = r
  mftNo : ∀ r n, ns.node r = some n → n.mftNo = r
  nodeRecord : ∀ r n, ns.node r = some n → MREF r = r
  pairPair : ∀ k, ns.pair (ns.pair k) = k
  pairEntry : ∀ k, ns.entry (ns.pair k) = ns.entry k
  pairDir : ∀ k, (ns.pair k).1 = k.1
  pairFree : ∀ k, ns.entry k = none → ns.pair k = k

section Entries

variable {ns : Namespace} {k k' : Key} {r r' : UInt64}

@[simp] theorem link_node : (ns.link k r).node = ns.node := rfl
@[simp] theorem link_pair : (ns.link k r).pair = ns.pair := rfl
@[simp] theorem unlink_node : (ns.unlink k).node = ns.node := rfl
@[simp] theorem free_node_self : (ns.free r).node r = none := Function.update_self ..
@[simp] theorem free_entry : (ns.free r).entry = ns.entry := rfl
@[simp] theorem free_pair : (ns.free r).pair = ns.pair := rfl
@[simp] theorem link_entry_self : (ns.link k r).entry k = some r := Function.update_self ..
@[simp] theorem unlink_entry_self : (ns.unlink k).entry k = none := if_pos (.inl rfl)
@[simp] theorem unlink_entry_pair : (ns.unlink k).entry (ns.pair k) = none := if_pos (.inr rfl)
@[simp] theorem unlink_pair_self : (ns.unlink k).pair k = k := if_pos (.inl rfl)

theorem link_entry_of_ne (h : k' ≠ k) : (ns.link k r).entry k' = ns.entry k' :=
  Function.update_of_ne h ..

theorem unlink_entry_of_other (h : ns.Other k k') : (ns.unlink k).entry k' = ns.entry k' :=
  if_neg fun hor => hor.elim h.1 h.2

theorem unlink_pair_of_other (h : ns.Other k k') : (ns.unlink k).pair k' = ns.pair k' :=
  if_neg fun hor => hor.elim h.1 h.2

theorem unlink_entry_iff :
    (ns.unlink k).entry k' = some r ↔ ns.Other k k' ∧ ns.entry k' = some r := by
  constructor
  · intro h
    have hother : ns.Other k k' := by
      constructor <;> rintro rfl
      · rw [unlink_entry_self] at h
        cases h
      · rw [unlink_entry_pair] at h
        cases h
    exact ⟨hother, by rwa [unlink_entry_of_other hother] at h⟩
  · rintro ⟨hother, h⟩
    rwa [unlink_entry_of_other hother]

theorem unlink_entry_none (h : ns.entry k' = none) : (ns.unlink k).entry k' = none := by
  unfold unlink
  simp only [h, ite_self]

theorem free_node_of_ne (h : r' ≠ r) : (ns.free r).node r' = ns.node r' :=
  Function.update_of_ne h ..

/-- Two entries that do not refer to the same are different entries. -/
theorem key_ne (ns : Namespace) (h : ns.entry k ≠ ns.entry k') : k ≠ k' :=
  fun heq => h (by rw [heq])

/-- And not a pair. -/
theorem other_of_entry (hwf : ns.WellFormed) (h : ns.entry k' ≠ ns.entry k) : ns.Other k k' := by
  refine ⟨ns.key_ne h, fun heq => h ?_⟩
  rw [heq, hwf.pairEntry]

theorem Other.symm (hwf : ns.WellFormed) (h : ns.Other k k') : ns.Other k' k := by
  refine ⟨h.1.symm, fun heq => h.2 ?_⟩
  rw [heq, hwf.pairPair]

theorem Other.link {k₀ : Key} (h : ns.Other k k') : (ns.link k₀ r).Other k k' := h

theorem Other.unlink {k₀ : Key} (h : ns.Other k k') (h₀ : ns.Other k₀ k) :
    (ns.unlink k₀).Other k k' :=
  ⟨h.1, by rw [unlink_pair_of_other h₀]; exact h.2⟩

/-- A name without an alias. -/
theorem other_of_ne (hp : ns.pair k = k) (h : k' ≠ k) : ns.Other k k' :=
  ⟨h, by rwa [hp]⟩

/-- A name that is not there has no alias. -/
theorem other_of_free (hwf : ns.WellFormed) (hfree : ns.entry k = none) (h : k' ≠ k) :
    ns.Other k k' ∧ ns.Other k' k :=
  have hother := other_of_ne (hwf.pairFree k hfree) h
  ⟨hother, hother.symm hwf⟩

theorem unlink_link (hp : ns.pair k = k) (h : ns.entry k = none) : (ns.link k r).unlink k = ns := by
  ext1
  · funext k'
    by_cases hne : k' = k
    · rw [hne, unlink_entry_self, h]
    · rw [unlink_entry_of_other (other_of_ne hp hne).link, link_entry_of_ne hne]
  · rfl
  · funext k'
    by_cases hne : k' = k
    · rw [hne, unlink_pair_self, hp]
    · exact unlink_pair_of_other (other_of_ne hp hne).link

/-- Without an alias a name is given back as it was. -/
theorem link_unlink (hp : ns.pair k = k) (h : ns.entry k = some r) :
    (ns.unlink k).link k r = ns := by
  ext1
  · funext k'
    by_cases hne : k' = k
    · rw [hne, link_entry_self, h]
    · rw [link_entry_of_ne hne, unlink_entry_of_other (other_of_ne hp hne)]
  · rfl
  · funext k'
    by_cases hne : k' = k
    · rw [hne, link_pair, unlink_pair_self, hp]
    · exact unlink_pair_of_other (other_of_ne hp hne)

theorem unlink_free (hwf : ns.WellFormed) (h : ns.entry k = none) : ns.unlink k = ns := by
  have hp := hwf.pairFree k h
  ext1
  · funext k'
    by_cases hne : k' = k
    · rw [hne, unlink_entry_self, h]
    · exact unlink_entry_of_other (other_of_ne hp hne)
  · rfl
  · funext k'
    by_cases hne : k' = k
    · rw [hne, unlink_pair_self, hp]
    · exact unlink_pair_of_other (other_of_ne hp hne)

theorem unlink_comm (h : ns.Other k k') (h' : ns.Other k' k) :
    (ns.unlink k).unlink k' = (ns.unlink k').unlink k := by
  have hp := unlink_pair_of_other h
  have hp' := unlink_pair_of_other h'
  ext1
  · funext x
    simp only [unlink] at hp hp' ⊢
    grind
  · rfl
  · funext x
    simp only [unlink] at hp hp' ⊢
    grind

theorem unlink_link_comm (h : ns.Other k' k) :
    (ns.link k r).unlink k' = (ns.unlink k').link k r := by
  ext1
  · funext x
    by_cases hx : x = k
    · rw [hx, link_entry_self]
      exact (unlink_entry_of_other h.link).trans link_entry_self
    · rw [link_entry_of_ne hx]
      simp only [unlink, link_pair, link_entry_of_ne hx]
  · rfl
  · rfl

/-- Of a name that is left the alias is left. -/
theorem Other.pair (hwf : ns.WellFormed) (h : ns.Other k k') : ns.Other k (ns.pair k') := by
  constructor
  · intro heq
    exact h.2 (by rw [← heq, hwf.pairPair])
  · intro heq
    exact h.1 (by rw [← hwf.pairPair k', heq, hwf.pairPair])

theorem other_or_unlinked (ns : Namespace) (k k' : Key) :
    ns.Other k k' ∨ ((ns.unlink k).pair k' = k' ∧ (ns.unlink k).entry k' = none) := by
  by_cases h : k' = k ∨ k' = ns.pair k
  · exact .inr ⟨if_pos h, if_pos h⟩
  · exact .inl (not_or.mp h)

theorem WellFormed.unlink (hwf : ns.WellFormed) (k : Key) : (ns.unlink k).WellFormed := by
  have hof : ∀ k' r, (ns.unlink k).entry k' = some r → ns.entry k' = some r :=
    fun _ _ hk' => (unlink_entry_iff.mp hk').2
  refine ⟨fun k' r hk' => hwf.named k' r (hof k' r hk'),
    fun k' r hk' => hwf.short k' r (hof k' r hk'),
    fun k' r hk' => hwf.directory k' r (hof k' r hk'),
    fun k' r hk' => hwf.record k' r (hof k' r hk'), hwf.mftNo, hwf.nodeRecord, ?_, ?_, ?_, ?_⟩
  · intro k'
    rcases ns.other_or_unlinked k k' with hother | ⟨hself, _⟩
    · rw [unlink_pair_of_other hother, unlink_pair_of_other (hother.pair hwf), hwf.pairPair]
    · rw [hself, hself]
  · intro k'
    rcases ns.other_or_unlinked k k' with hother | ⟨hself, _⟩
    · rw [unlink_pair_of_other hother, unlink_entry_of_other (hother.pair hwf),
        unlink_entry_of_other hother, hwf.pairEntry]
    · rw [hself]
  · intro k'
    rcases ns.other_or_unlinked k k' with hother | ⟨hself, _⟩
    · rw [unlink_pair_of_other hother, hwf.pairDir]
    · rw [hself]
  · intro k' hk'
    rcases ns.other_or_unlinked k k' with hother | ⟨hself, _⟩
    · rw [unlink_entry_of_other hother] at hk'
      rw [unlink_pair_of_other hother, hwf.pairFree k' hk']
    · exact hself

/-- A new name has no alias, and takes none from another. -/
theorem WellFormed.link_pair_entry (hwf : ns.WellFormed) (hfree : ns.entry k = none) (r : UInt64)
    (k' : Key) : (ns.link k r).entry (ns.pair k') = (ns.link k r).entry k' := by
  have hp := hwf.pairFree k hfree
  by_cases hne : k' = k
  · rw [hne, hp]
  · have hpair : ns.pair k' ≠ k := fun heq => hne (by rw [← hwf.pairPair k', heq, hp])
    rw [link_entry_of_ne hpair, link_entry_of_ne hne, hwf.pairEntry]

theorem WellFormed.link_pair_free (hwf : ns.WellFormed) (hfree : ns.entry k = none)
    (hk' : (ns.link k r).entry k' = none) : ns.pair k' = k' := by
  by_cases hne : k' = k
  · rw [hne, hwf.pairFree k hfree]
  · rw [link_entry_of_ne hne] at hk'
    exact hwf.pairFree k' hk'

theorem WellFormed.link (hwf : ns.WellFormed) (hnamed : k.2 ≠ []) (hlen : k.2.length ≤ 255)
    (hdir : ∃ d, ns.node k.1 = some d ∧ d.isDirectory = true) (hr : MREF r = r)
    (hfree : ns.entry k = none) : (ns.link k r).WellFormed := by
  -- an entry is the new one or was there before
  have hof : ∀ {k' r'}, (ns.link k r).entry k' = some r' →
      (k' = k ∧ r' = r) ∨ ns.entry k' = some r' := by
    intro k' r' hk'
    by_cases hne : k' = k
    · rw [hne, link_entry_self] at hk'
      exact .inl ⟨hne, (Option.some.inj hk').symm⟩
    · rw [link_entry_of_ne hne] at hk'
      exact .inr hk'
  refine ⟨?_, ?_, ?_, ?_, hwf.mftNo, hwf.nodeRecord, hwf.pairPair, hwf.link_pair_entry hfree r,
    hwf.pairDir, fun _ => hwf.link_pair_free hfree⟩
  · intro k' r' hk'
    obtain ⟨rfl, _⟩ | hold := hof hk'
    · exact hnamed
    · exact hwf.named k' r' hold
  · intro k' r' hk'
    obtain ⟨rfl, _⟩ | hold := hof hk'
    · exact hlen
    · exact hwf.short k' r' hold
  · intro k' r' hk'
    obtain ⟨rfl, _⟩ | hold := hof hk'
    · exact hdir
    · exact hwf.directory k' r' hold
  · intro k' r' hk'
    obtain ⟨_, rfl⟩ | hold := hof hk'
    · exact hr
    · exact hwf.record k' r' hold

theorem namedBut_iff_named_unlink : ns.NamedBut k r ↔ (ns.unlink k).Named r :=
  exists_congr fun _ => unlink_entry_iff.symm

end Entries

end Namespace

end Ntfs
end Usbrw
