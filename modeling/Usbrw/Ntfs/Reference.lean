import Usbrw.Ntfs.Library

/-!
# Ntfs.Reference

A library that obeys the laws: a namespace with a list of the entries that may be in it. Names are
converted byte by byte, and only ASCII ones.

* `RefState.link`, `RefState.unlink`, `RefState.free` — the changes.
* `refLibntfs`, `refLibntfs_lawful` — the calls, and that they obey the laws.
* `ofLists`, `RefState.withPair`    — states to try, with an alias or without.
-/

namespace Usbrw
namespace Ntfs

open Call Namespace

/-- A namespace whose entries are all among `keys`. -/
structure RefState where
  ns : Namespace
  keys : List Key
  covers : ∀ k, ns.entry k ≠ none → k ∈ keys
  wellFormed : ns.WellFormed

namespace RefState

def view : View RefState := ⟨ns, wellFormed⟩

variable (s : RefState)

instance (d : UInt64) : Decidable (s.ns.Empty d) :=
  decidable_of_iff (∀ k ∈ s.keys, k.1 = d → s.ns.entry k = none) <| by
    constructor
    · intro h u
      by_contra hne
      exact hne (h _ (s.covers _ hne) rfl)
    · intro h k _ hk
      rw [← hk] at h
      exact h k.2

instance (k : Key) (r : UInt64) : Decidable (s.ns.NamedBut k r) :=
  decidable_of_iff (∃ k' ∈ s.keys, (k' ≠ k ∧ k' ≠ s.ns.pair k) ∧ s.ns.entry k' = some r) <| by
    constructor
    · rintro ⟨k', _, h⟩
      exact ⟨k', h⟩
    · rintro ⟨k', hother, hk'⟩
      exact ⟨k', s.covers k' (by rw [hk']; exact Option.some_ne_none r), hother, hk'⟩

instance (k : Key) (n : NtfsInode) : Decidable (s.ns.Removable k n) := by
  unfold Removable
  infer_instance

instance (n d : NtfsInode) (u : List UInt16) : Decidable (s.ns.Admits n d u) :=
  decidable_of_iff (u ≠ [] ∧ n.mftNo ≠ d.mftNo ∧ d.isDirectory = true ∧
      s.ns.entry (d.mftNo, u) = none)
    ⟨fun h => ⟨h.1, h.2.1, h.2.2.1, h.2.2.2⟩, fun h => ⟨h.named, h.apart, h.dir, h.absent⟩⟩

instance (r : UInt64) : Decidable (s.ns.Named r) :=
  decidable_of_iff (∃ k ∈ s.keys, s.ns.entry k = some r) <| by
    constructor
    · rintro ⟨k, _, hk⟩
      exact ⟨k, hk⟩
    · rintro ⟨k, hk⟩
      exact ⟨k, s.covers k (by rw [hk]; exact Option.some_ne_none r), hk⟩

/-- The new entry is in a directory and has a name that fits. -/
def link (k : Key) {d n : NtfsInode} (hn : s.ns.node n.mftNo = some n) (hnamed : k.2 ≠ [])
    (hlen : k.2.length ≤ 255) (hd : s.ns.node k.1 = some d) (hdir : d.isDirectory = true)
    (habsent : s.ns.entry k = none) : RefState where
  ns := s.ns.link k n.mftNo
  keys := k :: s.keys
  covers := by
    intro k' hk'
    by_cases hne : k' = k
    · rw [hne]
      exact List.mem_cons_self
    · rw [link_entry_of_ne hne] at hk'
      exact List.mem_cons_of_mem _ (s.covers k' hk')
  wellFormed := s.wellFormed.link hnamed hlen ⟨d, hd, hdir⟩ (s.wellFormed.nodeRecord _ _ hn) habsent

def unlink (k : Key) : RefState where
  ns := s.ns.unlink k
  keys := s.keys
  covers := by
    intro k' hk'
    obtain ⟨r, hr⟩ := Option.ne_none_iff_exists'.mp hk'
    refine s.covers k' ?_
    rw [(unlink_entry_iff.mp hr).2]
    exact Option.some_ne_none r
  wellFormed := s.wellFormed.unlink k

/-- A record goes that nothing is in. -/
def free (r : UInt64) (h : s.ns.Empty r) : RefState where
  ns := s.ns.free r
  keys := s.keys
  covers := s.covers
  wellFormed := by
    have hkept : ∀ r' n, (s.ns.free r).node r' = some n → s.ns.node r' = some n := by
      intro r' n hn
      by_cases hne : r' = r
      · rw [hne, free_node_self] at hn
        cases hn
      · rwa [free_node_of_ne hne] at hn
    refine ⟨s.wellFormed.named, s.wellFormed.short, ?_, s.wellFormed.record,
      fun r' n hn => s.wellFormed.mftNo r' n (hkept r' n hn),
      fun r' n hn => s.wellFormed.nodeRecord r' n (hkept r' n hn), s.wellFormed.pairPair,
      s.wellFormed.pairEntry, s.wellFormed.pairDir, s.wellFormed.pairFree⟩
    intro k r' hk
    obtain ⟨d, hd, hdir⟩ := s.wellFormed.directory k r' hk
    have hne : k.1 ≠ r := by
      rintro rfl
      rw [free_entry, show s.ns.entry k = none from h k.2] at hk
      cases hk
    exact ⟨d, by rw [free_node_of_ne hne]; exact hd, hdir⟩

end RefState

open RefState

def refLibntfs : Libntfs RefState where
  mbstoucs name :=
    if name.all (· < 0x80) then .ok (name.map UInt8.toUInt16) else .error ⟨EILSEQ, by decide⟩
  inodeOpen r := fun s =>
    match s.ns.node r with
    | some n => .ok n s
    | none => .error ⟨ENOENT, by decide⟩ s
  inodeClose _ := fun s => .ok () s
  inodeLookupByName n u := fun s =>
    match s.ns.entry (n.mftNo, u) with
    | some r => .ok r s
    | none => .error ⟨ENOENT, by decide⟩ s
  inodeUpdateTimes _ _ s := s
  checkEmptyDir n := fun s =>
    if n.isDirectory = true → s.ns.Empty n.mftNo then .ok () s
    else .error ⟨ENOTEMPTY, by decide⟩ s
  link n d u := fun s =>
    if h : s.ns.node n.mftNo = some n ∧ s.ns.node d.mftNo = some d ∧ u.length ≤ 255 ∧
        s.ns.Admits n d u then
      .ok () (s.link (d.mftNo, u) h.1 h.2.2.2.named h.2.2.1 h.2.1 h.2.2.2.dir h.2.2.2.absent)
    else .error ⟨EEXIST, by decide⟩ s
  delete n d u := fun s =>
    if s.ns.Removable (d.mftNo, u) n then
      if s.ns.NamedBut (d.mftNo, u) n.mftNo then .ok () (s.unlink (d.mftNo, u))
      else if h : (s.unlink (d.mftNo, u)).ns.Empty n.mftNo then
        .ok () ((s.unlink (d.mftNo, u)).free n.mftNo h)
      else .error ⟨ENOTEMPTY, by decide⟩ s
    else .error ⟨ENOTEMPTY, by decide⟩ s

theorem refLibntfs_lawful : Lawful refLibntfs view where
  inodeOpen := by
    intro ns r s hs
    rw [← show s.ns = ns from hs]
    simp only [refLibntfs]
    cases hn : s.ns.node r with
    | some n => exact ⟨rfl, rfl⟩
    | none => exact ⟨rfl, rfl⟩
  inodeClose := fun _ _ _ hs => hs
  inodeLookupByName := by
    intro ns n u s hs
    rw [← show s.ns = ns from hs]
    simp only [refLibntfs]
    cases hr : s.ns.entry (n.mftNo, u) with
    | some r => exact ⟨by rw [s.wellFormed.record _ _ hr], rfl⟩
    | none => exact ⟨rfl, rfl⟩
  inodeUpdateTimes := fun _ _ _ _ hs => hs
  checkEmptyDir := by
    intro ns n s hs
    rw [← show s.ns = ns from hs]
    simp only [refLibntfs]
    by_cases h : n.isDirectory = true → s.ns.Empty n.mftNo
    · rw [if_pos h]
      exact ⟨h, rfl⟩
    · rw [if_neg h]
      exact ⟨h, rfl⟩
  link := by
    intro ns n d u hn hd hlen s hs
    rw [← show s.ns = ns from hs] at hn hd ⊢
    simp only [refLibntfs]
    by_cases h : s.ns.Admits n d u
    · rw [dif_pos ⟨hn, hd, hlen, h⟩]
      exact ⟨h, rfl⟩
    · rw [dif_neg fun hall => h hall.2.2.2]
      exact ⟨h, rfl⟩
  delete := by
    intro ns n d u hn hentry s hs
    rw [← show s.ns = ns from hs] at hn hentry ⊢
    simp only [refLibntfs]
    by_cases h : s.ns.Removable (d.mftNo, u) n
    · rw [if_pos h]
      by_cases hb : s.ns.NamedBut (d.mftNo, u) n.mftNo
      · rw [if_pos hb]
        exact ⟨h, Or.inl ⟨hb, rfl⟩⟩
      · -- with its last name goes a record that nothing is in
        have hempty : (s.unlink (d.mftNo, u)).ns.Empty n.mftNo := by
          intro u'
          have hnone : s.ns.entry (n.mftNo, u') = none := by
            by_contra hne
            obtain ⟨r, hr⟩ := Option.ne_none_iff_exists'.mp hne
            obtain ⟨n', hn', hdir⟩ := s.wellFormed.directory _ _ hr
            rw [show s.ns.node n.mftNo = some n' from hn'] at hn
            cases hn
            exact hne ((h.resolve_right hb) hdir u')
          exact unlink_entry_none hnone
        rw [if_neg hb, dif_pos hempty]
        exact ⟨h, Or.inr ⟨hb, rfl⟩⟩
    · rw [if_neg h]
      exact ⟨h, rfl⟩

/-- The state with these entries and records, and no aliases. -/
def ofLists (entries : List (Key × UInt64)) (nodes : List NtfsInode)
    (hentries : ∀ e ∈ entries, (e.1.2 ≠ [] ∧ e.1.2.length ≤ 255) ∧ MREF e.2 = e.2 ∧
      (nodes.find? fun n => n.mftNo = e.1.1).any NtfsInode.isDirectory = true)
    (hnodes : ∀ n ∈ nodes, MREF n.mftNo = n.mftNo) : RefState where
  ns :=
    { entry := fun k => (entries.find? fun e => e.1 = k).map Prod.snd
      node := fun r => nodes.find? fun n => n.mftNo = r
      pair := id }
  keys := entries.map Prod.fst
  covers := by
    intro k hk
    obtain ⟨r, hr⟩ := Option.ne_none_iff_exists'.mp hk
    obtain ⟨e, he, _⟩ := Option.map_eq_some_iff.mp hr
    refine List.mem_map.mpr ⟨e, List.mem_of_find?_eq_some he, ?_⟩
    simpa using List.find?_some he
  wellFormed := by
    have hmem : ∀ k r, (entries.find? fun e => e.1 = k).map Prod.snd = some r →
        ∃ e ∈ entries, e.1 = k ∧ e.2 = r := by
      intro k r h
      obtain ⟨e, he, hr⟩ := Option.map_eq_some_iff.mp h
      exact ⟨e, List.mem_of_find?_eq_some he, by simpa using List.find?_some he, hr⟩
    refine ⟨?_, ?_, ?_, ?_, ?_, ?_, fun _ => rfl, fun _ => rfl, fun _ => rfl, fun _ _ => rfl⟩
    · intro k r h
      obtain ⟨e, he, rfl, _⟩ := hmem k r h
      exact (hentries e he).1.1
    · intro k r h
      obtain ⟨e, he, rfl, _⟩ := hmem k r h
      exact (hentries e he).1.2
    · intro k r h
      obtain ⟨e, he, rfl, _⟩ := hmem k r h
      exact (Option.any_eq_true _ _).mp (hentries e he).2.2
    · intro k r h
      obtain ⟨e, he, _, rfl⟩ := hmem k r h
      exact (hentries e he).2.1
    · intro r n h
      simpa using List.find?_some h
    · intro r n h
      have hno : n.mftNo = r := by simpa using List.find?_some h
      rw [← hno]
      exact hnodes n (List.mem_of_find?_eq_some h)

section Lists

variable {entries : List (Key × UInt64)} {nodes : List NtfsInode}
  {hentries : ∀ e ∈ entries, (e.1.2 ≠ [] ∧ e.1.2.length ≤ 255) ∧ MREF e.2 = e.2 ∧
    (nodes.find? fun n => n.mftNo = e.1.1).any NtfsInode.isDirectory = true}
  {hnodes : ∀ n ∈ nodes, MREF n.mftNo = n.mftNo}

theorem ofLists_entry_mem {k : Key} {r : UInt64}
    (h : (ofLists entries nodes hentries hnodes).ns.entry k = some r) : (k, r) ∈ entries := by
  obtain ⟨e, he, hr⟩ := Option.map_eq_some_iff.mp h
  have hk : e.1 = k := by simpa using List.find?_some he
  rw [← hk, ← hr]
  exact List.mem_of_find?_eq_some he

theorem ofLists_node_mem {r : UInt64} {n : NtfsInode}
    (h : (ofLists entries nodes hentries hnodes).ns.node r = some n) : n ∈ nodes ∧ n.mftNo = r :=
  ⟨List.mem_of_find?_eq_some h, by simpa using List.find?_some h⟩

end Lists

/-- Two names of a record in one directory, neither of which has an alias. -/
structure Namespace.Unpaired (ns : Namespace) (k k' : Key) : Prop where
  ne : k ≠ k'
  dir : k'.1 = k.1
  entry : ns.entry k' = ns.entry k
  there : ns.entry k ≠ none
  single : ns.pair k = k
  single' : ns.pair k' = k'

/-- The two names as a pair. -/
def Namespace.couple (ns : Namespace) (k k' : Key) : Namespace :=
  { ns with pair := fun x => if x = k then k' else if x = k' then k else ns.pair x }

theorem Namespace.Unpaired.couple_wellFormed {ns : Namespace} {k k' : Key} (h : ns.Unpaired k k')
    (hwf : ns.WellFormed) : (ns.couple k k').WellFormed := by
  have hleft : (ns.couple k k').pair k = k' := if_pos rfl
  have hright : (ns.couple k k').pair k' = k := (if_neg h.ne.symm).trans (if_pos rfl)
  have hother : ∀ x, x ≠ k → x ≠ k' → (ns.couple k k').pair x = ns.pair x :=
    fun x hx hx' => (if_neg hx).trans (if_neg hx')
  -- what is neither name is paired with neither
  have houtside : ∀ x, x ≠ k → x ≠ k' → ns.pair x ≠ k ∧ ns.pair x ≠ k' := by
    intro x hx hx'
    exact ⟨fun heq => hx (by rw [← hwf.pairPair x, heq, h.single]),
      fun heq => hx' (by rw [← hwf.pairPair x, heq, h.single'])⟩
  have hcases : ∀ x, x = k ∨ x = k' ∨ (x ≠ k ∧ x ≠ k') := by
    intro x
    by_cases hx : x = k
    · exact .inl hx
    · by_cases hx' : x = k'
      · exact .inr (.inl hx')
      · exact .inr (.inr ⟨hx, hx'⟩)
  refine ⟨hwf.named, hwf.short, hwf.directory, hwf.record, hwf.mftNo, hwf.nodeRecord, ?_, ?_, ?_,
    ?_⟩
  · intro x
    rcases hcases x with rfl | rfl | ⟨hx, hx'⟩
    · rw [hleft, hright]
    · rw [hright, hleft]
    · obtain ⟨hp, hp'⟩ := houtside x hx hx'
      rw [hother x hx hx', hother _ hp hp', hwf.pairPair]
  · intro x
    rcases hcases x with rfl | rfl | ⟨hx, hx'⟩
    · rw [hleft]
      exact h.entry
    · rw [hright]
      exact h.entry.symm
    · rw [hother x hx hx']
      exact hwf.pairEntry x
  · intro x
    rcases hcases x with rfl | rfl | ⟨hx, hx'⟩
    · rw [hleft, h.dir]
    · rw [hright, h.dir]
    · rw [hother x hx hx', hwf.pairDir]
  · intro x hfree
    have hnone : ns.entry x = none := hfree
    rcases hcases x with rfl | rfl | ⟨hx, hx'⟩
    · exact absurd hnone h.there
    · rw [h.entry] at hnone
      exact absurd hnone h.there
    · rw [hother x hx hx', hwf.pairFree x hnone]

def RefState.withPair (s : RefState) {k k' : Key} (h : s.ns.Unpaired k k') : RefState where
  ns := s.ns.couple k k'
  keys := s.keys
  covers := s.covers
  wellFormed := h.couple_wellFormed s.wellFormed

def noSpace : Errno := ⟨ENOSPC, by decide⟩

theorem rootAndTwo_records :
    ∀ n ∈ ([⟨5, false, true⟩, ⟨20, false, false⟩, ⟨21, false, false⟩] : List NtfsInode),
      MREF n.mftNo = n.mftNo := by
  decide

/-- A root directory with a file `a` (record 20) and a file `b` (record 21). -/
def twoFiles : RefState :=
  ofLists [((5, [0x61]), 20), ((5, [0x62]), 21)]
    [⟨5, false, true⟩, ⟨20, false, false⟩, ⟨21, false, false⟩] (by decide) (by decide)

end Ntfs
end Usbrw
