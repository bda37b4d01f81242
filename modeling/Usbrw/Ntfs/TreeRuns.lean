import Usbrw.Ntfs.Tree
import Usbrw.Ntfs.WindowsNames
import Usbrw.Trees

/-!
# Ntfs.TreeRuns

The directory tree of an NTFS volume under all the calls that change names.

* `isTree_create`   — a new record has one entry, and nothing is in it.
* `request_isTree`  — one call keeps the tree, whether it succeeds or fails.
* `names_keep_tree` — so does a run that moves no directory into itself, and all that has a name is
  below the root.
-/

namespace Usbrw
namespace Ntfs

open Call Namespace Run Ancestry

variable {σ : Type}

section Created

variable {ns ns' : Namespace} {d : UInt64} {u : List UInt16} {n : NtfsInode}

theorem directory_create (h : Created ns (d, u) n ns') {x : UInt64} :
    ns'.Directory x ↔ ns.Directory x ∨ (x = n.mftNo ∧ n.isDirectory = true) := by
  unfold Directory
  rw [h.eq]
  by_cases hx : x = n.mftNo
  · rw [hx, create_node_self, h.fresh]
    simp
  · rw [create_node_of_ne hx]
    simp [hx]

/-- A new record, if it is a directory at all, is empty and not below anything but its entries. -/
theorem isTree_create (h : Created ns (d, u) n ns') (hwf : ns.WellFormed)
    (hd : ns.Directory d) (hv : ns.IsTree) : ns'.IsTree := by
  have hne : d ≠ n.mftNo := by
    rintro rfl
    obtain ⟨m, hm, _⟩ := hd
    rw [h.fresh] at hm
    cases hm
  have hentry : ∀ {a b : UInt64} {v : List UInt16}, ns'.entry (a, v) = some b →
      (a = d ∧ b = n.mftNo) ∨ ns.entry (a, v) = some b := by
    intro a b v hv
    rw [h.eq] at hv
    by_cases hk : (a, v) = (d, u)
    · rw [hk, create_entry_self] at hv
      exact .inl ⟨congrArg Prod.fst hk, (Option.some.inj hv).symm⟩
    · rw [create_entry_of_ne hk] at hv
      exact .inr hv
  have hold : ∀ a b, ns.Holds a b → ns'.Holds a b := by
    rintro a b ⟨ha, hb, v, hv, hroot⟩
    have hk : (a, v) ≠ (d, u) := by
      rintro heq
      rw [heq, h.absent] at hv
      cases hv
    refine ⟨(directory_create h).mpr (.inl ha), (directory_create h).mpr (.inl hb), v, ?_, hroot⟩
    rwa [h.eq, create_entry_of_ne hk]
  have hleaf : ∀ b, ¬ ns'.Holds n.mftNo b := by
    rintro b ⟨_, _, v, hv, _⟩
    rcases hentry hv with ⟨heq, _⟩ | hv
    · exact hne heq.symm
    · obtain ⟨m, hm, _⟩ := hwf.directory _ _ hv
      rw [h.fresh] at hm
      cases hm
  refine Rooted.create (c := n.mftNo) hv ?_ (fun _ _ hab => hab.1) hold ?_ hleaf
  · intro x hx
    rcases (directory_create h).mp hx with hx | ⟨rfl, hdir⟩
    · exact .inl hx
    · refine .inr ⟨rfl, d, hd, (directory_create h).mpr (.inl hd), hx, u, ?_, ?_⟩
      · rw [h.eq, create_entry_self]
      · rintro ⟨_, _, hroot⟩
        have huser := h.user
        rw [hroot] at huser
        exact absurd huser (by decide)
  · rintro a b ⟨_, hb, v, hv, hroot⟩
    by_cases hbn : b = n.mftNo
    · exact .inr hbn
    · refine .inl ?_
      rcases hentry hv with ⟨_, heq⟩ | hv
      · exact absurd heq hbn
      · refine ⟨hwf.directory _ _ hv, ?_, v, hv, hroot⟩
        exact ((directory_create h).mp hb).resolve_right fun hnew => hbn hnew.1

end Created

section Requests

variable {lib : Libcreate σ} {V : View σ} {ns : Namespace} {dirMft : UInt64}
  {accepts : List UInt16 → Prop}

/-- The directory a call makes a record in is there, and is one. -/
theorem Makes.directory {n : NtfsInode} {s : σ} (h : Makes ns dirMft accepts n (V.names s))
    (hd : ∃ d, ns.node dirMft = some d) : ns.Directory dirMft := by
  obtain ⟨u, _, hcreated⟩ := h
  obtain ⟨d, hd⟩ := hd
  have hne : dirMft ≠ n.mftNo := by
    rintro rfl
    rw [hcreated.fresh] at hd
    cases hd
  have hentry : (V.names s).entry (dirMft, u) = some n.mftNo := by
    rw [hcreated.eq, create_entry_self]
  obtain ⟨d', hd', hdir⟩ := (V.wellFormed s).directory _ _ hentry
  rw [hcreated.eq, create_node_of_ne hne] at hd'
  exact ⟨d', hd', hdir⟩

theorem MakeSpec.isTree {x : EStateM Int σ UInt64} (h : MakeSpec V ns dirMft accepts x)
    (hd : ∃ d, ns.node dirMft = some d) (hv : ns.IsTree) :
    Spec (V.Is ns) x (fun _ => V.Has IsTree) fun _ => V.Has IsTree := by
  refine spec_wellFormed fun hwf => ?_
  have hmakes : ∀ n s, Makes ns dirMft accepts n (V.names s) → V.Has IsTree s := by
    intro n s hmade
    have hdir := hmade.directory hd
    obtain ⟨u, _, hcreated⟩ := hmade
    exact isTree_create hcreated hwf hdir hv
  refine Spec.conseq h ?_ ?_
  · rintro _ s ⟨n, _, hmade⟩
    exact hmakes n s hmade
  · rintro _ s (hs | ⟨n, hmade⟩)
    · exact hs.has hv
    · exact hmakes n s hmade

/-- Nothing is made in a directory that cannot be opened. -/
theorem create_unopened (hL : LawfulCreate lib V) (hd : ns.node dirMft = none)
    (windowsNames : Bool) (name : List UInt8) (type : Char) :
    Spec (V.Is ns) (nfskCreateImpl lib windowsNames dirMft name type) (fun _ => V.Is ns)
      fun _ => V.Is ns := by
  unfold nfskCreateImpl
  refine Spec.guard (fun _ _ hs => hs) fun _ => ?_
  refine Spec.guard (fun _ _ hs => hs) fun _ => ?_
  refine Spec.bind_orFail (convert_returns lib.toLibntfs name) (fun _ _ hs => hs) fun u => ?_
  refine Spec.assume fun _ => ?_
  refine Spec.guard (fun _ _ hs => hs) fun _ => ?_
  refine Spec.bind_orFail (hL.lawful.inodeOpen ns dirMft) (fun _ _ hs => hs.2) fun d => ?_
  refine Spec.assume fun hopen => ?_
  rw [hd] at hopen
  cases hopen

theorem create_isTree (hL : LawfulCreate lib V) (hv : ns.IsTree) (windowsNames : Bool)
    (name : List UInt8) (type : Char) :
    Spec (V.Is ns) (nfskCreateImpl lib windowsNames dirMft name type) (fun _ => V.Has IsTree)
      fun _ => V.Has IsTree := by
  cases hd : ns.node dirMft with
  | none =>
    exact Spec.conseq (create_unopened hL hd windowsNames name type) (fun _ _ hs => hs.has hv)
      fun _ _ hs => hs.has hv
  | some d => exact (create_spec hL ns windowsNames type).isTree ⟨d, hd⟩ hv

theorem symlink_isTree (hL : LawfulCreate lib V) (hv : ns.IsTree) (name target : List UInt8) :
    Spec (V.Is ns) (nfskSymlinkImpl lib dirMft name target) (fun _ => V.Has IsTree)
      fun _ => V.Has IsTree := by
  cases hd : ns.node dirMft with
  | none =>
    refine (symlink_spec hL ns).has hv fun u n ns' hpasses _ => ?_
    obtain ⟨d, hd', _⟩ := hpasses.node
    rw [hd] at hd'
    cases hd'
  | some d => exact (symlink_spec hL ns).isTree ⟨d, hd⟩ hv

/-- `nfsk_link` links no directory. -/
theorem link_isTree (hL : Lawful lib.toLibntfs V) (hv : ns.IsTree) (mft newDir : UInt64)
    (newName : List UInt8) :
    Spec (V.Is ns) (nfskLinkImpl lib.toLibntfs mft newDir newName) (fun _ => V.Has IsTree)
      fun _ => V.Has IsTree := by
  refine Spec.guard (fun _ _ hs => hs.has hv) fun _ => ?_
  refine doLink_has hL hv fun u _ hl => isTree_link hv hl.absent ?_
  rintro ⟨n, hn, hdir⟩
  exact absurd ⟨by decide, hdir⟩ (hl.allowed n hn)

/-- The call is no rename that moves a directory into itself. -/
def MovesApart (lib : Libcreate σ) (sched : Schedule) (renameSeq : Nat) (ns : Namespace) :
    Request → Prop
  | .rename oldDir oldName newDir newName =>
    ¬ MovesIntoItself lib.toLibntfs sched renameSeq ns oldDir oldName newDir newName
  | _ => True

theorem request_isTree (hL : LawfulCreate lib V) (hv : ns.IsTree) {windowsNames : Bool}
    {sched : Schedule} {renameSeq : Nat} (r : Request) (hr : MovesApart lib sched renameSeq ns r) :
    Spec (V.Is ns) (r.run lib windowsNames sched renameSeq) (fun _ => V.Has IsTree)
      fun _ => V.Has IsTree := by
  cases r with
  | create dirMft name type =>
    exact Spec.bind (create_isTree hL hv windowsNames name type) fun _ => Spec.pure fun _ h => h
  | symlink dirMft name target =>
    exact Spec.bind (symlink_isTree hL hv name target) fun _ => Spec.pure fun _ h => h
  | link mft newDir newName => exact link_isTree hL.lawful hv mft newDir newName
  | unlink dirMft name mft =>
    refine Spec.guard (fun _ _ hs => hs.has hv) fun _ => ?_
    exact spec_of_keeps (doUnlink_keeps hL.lawful (keepsUnlink_isTree V dirMft)) hv
  | rename oldDir oldName newDir newName => exact rename_isTree hL.lawful hv hr

end Requests

/-! ## Runs -/

/-- The volume after a call, with the faults and the counter that come with it. -/
def changeNames (lib : Libcreate σ) (windowsNames : Bool) (s : σ) (c : Issued) : σ :=
  final (c.request.run lib windowsNames c.sched c.renameSeq s)

/-- What has a name is in a directory below the root. -/
theorem below_of_entry {ns : Namespace} (h : ns.IsTree) (hwf : ns.WellFormed) {k : Key} {r : UInt64}
    (hk : ns.entry k = some r) : Below ns.Holds FILE_root k.1 :=
  h.reachable k.1 (hwf.directory k r hk)

/-- A run of calls, each of which may fail at any point, keeps the tree if none moves a directory
into itself, and then every name in the volume can be reached from the root. -/
theorem names_keep_tree {lib : Libcreate σ} {V : View σ} (hL : LawfulCreate lib V)
    {windowsNames : Bool} {s : σ} {calls : List Issued} (hs : (V.names s).IsTree)
    (hcalls : Along (changeNames lib windowsNames) (fun s c =>
      MovesApart lib c.sched c.renameSeq (V.names s) c.request) s calls) (i : Nat) :
    (V.names ((calls.take i).foldl (changeNames lib windowsNames) s)).IsTree ∧
      ∀ k r, (V.names ((calls.take i).foldl (changeNames lib windowsNames) s)).entry k = some r →
        Below (V.names ((calls.take i).foldl (changeNames lib windowsNames) s)).Holds FILE_root
          k.1 := by
  have htree : (V.names ((calls.take i).foldl (changeNames lib windowsNames) s)).IsTree := by
    refine always_of_inv (I := fun s => (V.names s).IsTree) ?_ hs hcalls i
    intro s c hv hc
    exact Spec.final (request_isTree hL hv c.request hc) rfl
  exact ⟨htree, fun k r hk => below_of_entry htree (V.wellFormed _) hk⟩

/-- The directory `e` leaves `d`, `d` goes, and `e` gets a directory `d`. -/
theorem names_keep_tree_out_of :
    let calls := [⟨.rename 20 dirE 5 dirE, fun _ => none, 0⟩, plain (.unlink 5 dirD 20),
      plain (.create 21 dirD 'd')]
    (calls.foldl (changeNames refLibcreate false) dirInDir).ns.IsTree := by
  intro calls
  have hapart : Along (changeNames refLibcreate false) (fun s c =>
      MovesApart refLibcreate c.sched c.renameSeq s.ns c.request) dirInDir calls :=
    ⟨outOf_apart, trivial, trivial, trivial⟩
  exact (names_keep_tree (V := RefState.view) (s := dirInDir) refLibcreate_lawful dirInDir_isTree
    hapart 3).1

end Ntfs
end Usbrw
