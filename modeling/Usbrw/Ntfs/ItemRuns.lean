import Usbrw.Ntfs.ItemParents
import Usbrw.Ntfs.ReferenceNew

/-!
# Ntfs.ItemRuns

Runs of calls on one volume, and the parents its items and its directory listings report.

* `LawfulVolume`     — the library as far as names and records go.
* `ReportsParents`   — what has one name reports the directory of that name.
* `PacksParents`     — a listing reports the directory that is listed.
* `parents_reported` — when they do.
-/

namespace Usbrw
namespace Ntfs

open Call Namespace Run

variable {σ α : Type}

/-- `fill_stat` changes no names, and writes the record's number even if it fails. -/
structure LawfulStat (lib : Libdir σ) (V : View σ) : Prop extends Lawful lib.toLibntfs V where
  fillStat : ∀ ns ni s, V.Is ns s → V.Is ns (lib.fillStat ni s).2
  statMft : ∀ ni s, (lib.fillStat ni s).1.2.mft = ni.mftNo

structure LawfulVolume (lib : Libvolume σ) (V : View σ) : Prop where
  create : LawfulCreate lib.toLibcreate V
  stat : LawfulStat lib.toLibdir V

/-! ## Calls of the bridge -/

section Stat

variable {lib : Libdir σ} {V : View σ} {ns : Namespace} {mft : UInt64} {s : σ}

theorem LawfulStat.opened (hL : LawfulStat lib V) {ni : NtfsInode} {s' : σ}
    (h : lib.inodeOpen mft s = .ok ni s') : ni.mftNo = mft := by
  obtain ⟨hni, _⟩ := (hL.inodeOpen (V.names s) mft).ok rfl h
  exact (V.wellFormed s).mftNo _ _ hni

theorem recordStat_spec (hL : LawfulStat lib V) (mft : UInt64) (hs : V.Is ns s) :
    V.Is ns (recordStat lib mft s).2 ∧
      ((recordStat lib mft s).1.1 = 0 →
        ∃ st, (recordStat lib mft s).1.2 = some st ∧ st.mft = mft) := by
  unfold recordStat
  cases ho : lib.inodeOpen mft s with
  | error e s₁ =>
    exact ⟨((hL.inodeOpen ns mft).error hs ho).2,
      fun hzero => absurd hzero (Int.ne_of_lt (negErrno_neg e))⟩
  | ok ni s₁ =>
    have hstat := hL.fillStat ns ni s₁ ((hL.inodeOpen ns mft).ok hs ho).2
    have hmft := (hL.statMft ni s₁).trans (hL.opened ho)
    simp only
    cases hc : lib.inodeClose ni (lib.fillStat ni s₁).2 with
    | error e s₂ => exact ((hL.inodeClose ns ni).error hstat hc).elim
    | ok _ s₂ => exact ⟨(hL.inodeClose ns ni).ok hstat hc, fun _ => ⟨_, rfl, hmft⟩⟩

/-- The attributes of an entry are those of its record, however they come about. -/
theorem entryStat_mft (hL : LawfulStat lib V) (wantAttrs : Bool) (e : IndexEntry) (s : σ) :
    (entryStat lib wantAttrs e s).1.mft = MREF e.mref := by
  unfold entryStat
  cases wantAttrs with
  | false => rfl
  | true =>
    simp only [if_true]
    cases ho : lib.inodeOpen (MREF e.mref) s with
    | error err s₁ => rfl
    | ok ni s₁ =>
      have hmft := (hL.statMft ni s₁).trans (hL.opened ho)
      simp only
      cases hc : lib.inodeClose ni (lib.fillStat ni s₁).2 with
      | error err s₂ => rfl
      | ok _ s₂ =>
        by_cases hres : (lib.fillStat ni s₁).1.1 = 0
        · simp [hres]
        · simpa [hres] using hmft

end Stat

section Bridge

variable {lib : Libvolume σ} {V : View σ}

theorem getattr_spec (hL : LawfulVolume lib V) (ns : Namespace) (mft : UInt64) :
    Spec (V.Is ns) (getattr lib mft) (fun st s => st.mft = mft ∧ V.Is ns s) fun _ => V.Is ns := by
  intro s hs
  unfold getattr nfskGetattrImpl
  by_cases hmft : mft ≤ 1
  · simpa [hmft, ENOENT] using hs
  · obtain ⟨hnames, hstat⟩ := recordStat_spec hL.stat mft hs
    rw [if_neg hmft]
    generalize recordStat lib.toLibdir mft s = stated at hnames hstat ⊢
    obtain ⟨⟨rc, st⟩, s'⟩ := stated
    by_cases hrc : rc = 0
    · obtain ⟨st', rfl, hst⟩ := hstat hrc
      simpa [hrc] using ⟨hst, hnames⟩
    · simpa [hrc] using hnames

theorem lookupRecord_names (hL : LawfulVolume lib V) (ns : Namespace) (d : UInt64)
    (name : List UInt8) :
    Spec (V.Is ns) (lookupRecord lib.toLibdir d name)
      (fun m s => (∃ u, ns.entry (d, u) = some m) ∧ V.Is ns s) fun e s => e < 0 ∧ V.Is ns s := by
  have hlaw : Lawful lib.toLibntfs V := hL.create.lawful
  refine spec_wellFormed fun hwf => ?_
  unfold lookupRecord
  refine Spec.guard (fun _ s hs => ⟨by decide, hs⟩) fun _ => ?_
  refine Spec.bind_orFail (hlaw.inodeOpen ns d) (fun e s h => ⟨negErrno_neg e, h.2⟩) fun ni => ?_
  refine Spec.assume fun hni => ?_
  have hno := hwf.mftNo _ _ hni
  have hlookup : Spec (V.Is ns) (nfskLookupMft lib.toLibntfs ni name)
      (fun iref s => (∃ u, ns.entry (d, u) = some (MREF iref)) ∧ V.Is ns s) fun _ => V.Is ns := by
    cases hu : lib.mbstoucs name with
    | error e =>
      unfold nfskLookupMft
      exact Spec.bind (convert_fails lib.toLibntfs hu) fun _ _ hf => hf.elim
    | ok u =>
      have hspec := nfskLookupMft_spec hlaw hu ns ni
      rw [hno] at hspec
      exact Spec.conseq hspec (fun _ _ h => ⟨⟨u, h.1⟩, h.2⟩) fun _ _ h => h.2
  refine Spec.bind_attempt hlookup (fun iref => ?_) fun e => ?_
  · refine Spec.assume fun hentry => ?_
    refine Spec.bind_orFail (hlaw.inodeClose ns ni) (fun _ _ hf => hf.elim) fun _ => ?_
    refine Spec.guard (fun _ s hs => ⟨by decide, hs⟩) fun _ => ?_
    exact Spec.pure fun s hs => ⟨hentry, hs⟩
  · refine Spec.bind_orFail (hlaw.inodeClose ns ni) (fun _ _ hf => hf.elim) fun _ => ?_
    exact Spec.throw fun s hs => ⟨by decide, hs⟩

theorem lookup_spec (hL : LawfulVolume lib V) (ns : Namespace) (d : UInt64) (name : List UInt8) :
    Spec (V.Is ns) (lookup lib d name) (fun m s => (∃ u, ns.entry (d, u) = some m) ∧ V.Is ns s)
      fun _ => V.Is ns := by
  intro s hs
  have hrecord := lookupRecord_names hL ns d name s hs
  unfold lookup nfskLookupImpl
  cases hr : lookupRecord lib.toLibdir d name s with
  | error e s₁ =>
    rw [hr] at hrecord
    simpa [Int.ne_of_lt hrecord.1] using hrecord.2
  | ok m s₁ =>
    rw [hr] at hrecord
    obtain ⟨hnames, _⟩ := recordStat_spec hL.stat m hrecord.2
    simp only [if_true]
    generalize recordStat lib.toLibdir m s₁ = stated at hnames ⊢
    obtain ⟨⟨rc, st⟩, s₂⟩ := stated
    by_cases hrc : rc = 0
    · simpa [hrc] using ⟨hrecord.1, hnames⟩
    · simpa [hrc] using hnames

end Bridge

/-! ## Calls of the volume -/

/-- Items are kept under their own record, and fit where there is one name. -/
structure Placed (V : View σ) (v : NTFSVolume σ) : Prop where
  keyed : ∀ r it, v.itemCache r = some it → it.mft = r
  fits : Fits v.itemCache (V.names v.raw)

section Volume

variable {lib : Libvolume σ} {V : View σ} {v : NTFSVolume σ} {r d : UInt64}

@[simp] theorem item_raw (v : NTFSVolume σ) (mft parent : UInt64) :
    (v.item mft parent).2.raw = v.raw := by
  unfold NTFSVolume.item
  cases v.itemCache mft <;> rfl

theorem item_mft (h : Placed V v) : (v.item r d).1.mft = r := by
  unfold NTFSVolume.item
  cases hr : v.itemCache r with
  | none => rfl
  | some it => exact h.keyed r it hr

theorem item_parent (h : ¬ Stale v.itemCache r d) : (v.item r d).1.parentMFT = d := by
  unfold NTFSVolume.item
  cases hr : v.itemCache r with
  | none => rfl
  | some it =>
    by_contra hne
    exact h ⟨it, hr, hne⟩

theorem Placed.item {u : List UInt16} (h : Placed V v)
    (hk : (V.names v.raw).entry (d, u) = some r) : Placed V (v.item r d).2 := by
  refine ⟨fun r' it hit => ?_, ?_⟩
  · unfold NTFSVolume.item at hit
    cases hr : v.itemCache r with
    | some it' =>
      rw [hr] at hit
      exact h.keyed r' it hit
    | none =>
      rw [hr] at hit
      by_cases hrr : r' = r
      · rw [hrr] at hit ⊢
        simp only [Function.update_self, Option.some.injEq] at hit
        rw [← hit]
      · simp only [Function.update_of_ne hrr] at hit
        exact h.keyed r' it hit
  · rw [item_raw]
    exact h.fits.item (V.wellFormed v.raw) hk

/-- The library's state changes, and the items stay. -/
theorem Placed.raw {s : σ} (h : Placed V v) (hfits : V.Has (Fits v.itemCache) s) :
    Placed V { v with raw := s } :=
  ⟨h.keyed, hfits⟩

theorem final_bridged (x : EStateM Int σ α) (v : NTFSVolume σ) :
    final (bridged x v) = { v with raw := final (x v.raw) } := by
  unfold bridged
  cases x v.raw <;> rfl

/-- The end of a call that has an item for a record. -/
theorem final_found (x : EStateM Int σ UInt64) (d : UInt64) (name : FSFileName)
    (v : NTFSVolume σ) :
    final ((bridged x >>= fun mft => itemFor mft d >>= fun it =>
      (pure (FSItem.ntfs it, name) : EStateM Int (NTFSVolume σ) _)) v) =
      match x v.raw with
      | .ok mft s => (NTFSVolume.item { v with raw := s } mft d).2
      | .error _ s => { v with raw := s } := by
  simp only [Bind.bind, EStateM.bind, bridged]
  cases x v.raw <;> rfl

theorem lookupItem_placed (hL : LawfulVolume lib V) (h : Placed V v) (name : FSFileName)
    (directory : FSItem) : Placed V (final (lookupItem lib name directory v)) := by
  unfold lookupItem
  cases directory with
  | other => exact h
  | ntfs dir =>
    cases name.string with
    | none => exact h
    | some cname =>
      have hspec := lookup_spec hL (V.names v.raw) dir.mft (cString cname)
      simp only
      rw [final_found]
      cases hx : lookup lib dir.mft (cString cname) v.raw with
      | error e s => exact h.raw ((hspec.error rfl hx).has h.fits)
      | ok mft s =>
        obtain ⟨⟨u, hentry⟩, hs⟩ := hspec.ok rfl hx
        rw [← hs.eq] at hentry
        exact (h.raw (hs.has h.fits)).item hentry

/-- A call that makes a record, whose number has no item for another directory. -/
theorem making_placed {accepts : List UInt16 → Prop} {x : EStateM Int σ UInt64}
    (hx : MakeSpec V (V.names v.raw) d accepts x) (h : Placed V v) (name : FSFileName)
    (hno : ¬ Reuses V d v (final ((bridged x >>= fun mft => itemFor mft d >>= fun it =>
      (pure (FSItem.ntfs it, name) : EStateM Int (NTFSVolume σ) _)) v))) :
    Placed V (final ((bridged x >>= fun mft => itemFor mft d >>= fun it =>
      (pure (FSItem.ntfs it, name) : EStateM Int (NTFSVolume σ) _)) v)) := by
  have hmade : ∀ {s n}, Makes (V.names v.raw) d accepts n (V.names s) →
      ¬ Stale v.itemCache n.mftNo d → Placed V { v with raw := s } ∧
        ∃ u, (V.names s).entry (d, u) = some n.mftNo := by
    intro s n hmakes hstale
    obtain ⟨u, _, hcreated⟩ := hmakes
    refine ⟨h.raw (h.fits.created (V.wellFormed s) hcreated hstale), u, ?_⟩
    rw [hcreated.eq, create_entry_self]
  have hnode : ∀ {s n}, Makes (V.names v.raw) d accepts n (V.names s) →
      (V.names v.raw).node n.mftNo = none ∧ (V.names s).node n.mftNo ≠ none := by
    intro s n hmakes
    obtain ⟨u, _, hcreated⟩ := hmakes
    refine ⟨hcreated.fresh, ?_⟩
    rw [hcreated.eq, create_node_self]
    exact Option.some_ne_none n
  rw [final_found] at hno ⊢
  cases hr : x v.raw with
  | error e s =>
    rw [hr] at hno
    rcases hx.error rfl hr with hs | ⟨n, hmakes⟩
    · exact h.raw (hs.has h.fits)
    · exact (hmade hmakes fun hstale => hno ⟨n.mftNo, (hnode hmakes).1, (hnode hmakes).2, hstale⟩).1
  | ok mft s =>
    rw [hr] at hno
    obtain ⟨n, rfl, hmakes⟩ := hx.ok rfl hr
    obtain ⟨hplaced, u, hentry⟩ := hmade hmakes fun hstale =>
      hno ⟨n.mftNo, (hnode hmakes).1, by rw [item_raw]; exact (hnode hmakes).2, hstale⟩
    exact hplaced.item hentry

theorem createItem_placed (hL : LawfulVolume lib V) (h : Placed V v) {windowsNames : Bool}
    {name : FSFileName} {type : ItemType} {directory : FSItem}
    (hno : ∀ dir, directory = .ntfs dir →
      ¬ Reuses V dir.mft v (final (createItem lib windowsNames name type directory v))) :
    Placed V (final (createItem lib windowsNames name type directory v)) := by
  unfold createItem at hno ⊢
  cases directory with
  | other => exact h
  | ntfs dir =>
    cases hname : name.string with
    | none => exact h
    | some cname =>
      simp only [hname] at hno
      exact making_placed (create_spec hL.create _ windowsNames _) h name (hno dir rfl)

theorem createSymbolicLink_placed (hL : LawfulVolume lib V) (h : Placed V v)
    {name contents : FSFileName} {directory : FSItem}
    (hno : ∀ dir, directory = .ntfs dir →
      ¬ Reuses V dir.mft v (final (createSymbolicLink lib name directory contents v))) :
    Placed V (final (createSymbolicLink lib name directory contents v)) := by
  unfold createSymbolicLink at hno ⊢
  cases directory with
  | other => exact h
  | ntfs dir =>
    cases hname : name.string with
    | none => exact h
    | some cname =>
      cases htarget : contents.string with
      | none => exact h
      | some ctarget =>
        simp only [hname, htarget] at hno
        exact making_placed (symlink_spec hL.create _) h name (hno dir rfl)

theorem removeItem_placed (hL : LawfulVolume lib V) (h : Placed V v) {item directory : FSItem}
    {name : FSFileName}
    (hno : ∀ dir cname, directory = .ntfs dir → name.string = some cname →
      ¬ Uncovers lib.toLibntfs v.itemCache (V.names v.raw) dir.mft (cString cname)) :
    Placed V (final (removeItem lib item name directory v)) := by
  unfold removeItem
  cases item with
  | other => exact h
  | ntfs it =>
    cases directory with
    | other => exact h
    | ntfs dir =>
      cases hname : name.string with
      | none => exact h
      | some cname =>
        have hfits := unlink_fits hL.create.lawful h.fits it.mft (hno dir cname rfl hname)
        simp only
        rw [final_bridged]
        exact h.raw (Spec.final hfits rfl)

theorem renameItem_placed (hL : LawfulVolume lib V) (h : Placed V v) {sched : Schedule}
    {renameSeq : Nat} {sourceDirectory destinationDirectory : FSItem}
    {sourceName destinationName : FSFileName}
    (hno : ∀ srcDir dstDir cold cnew, sourceDirectory = .ntfs srcDir →
      destinationDirectory = .ntfs dstDir → sourceName.string = some cold →
      destinationName.string = some cnew →
      ¬ (MovesAway lib.toLibntfs sched renameSeq v.itemCache (V.names v.raw) srcDir.mft
            (cString cold) dstDir.mft (cString cnew) ∨
          Displaces lib.toLibntfs sched renameSeq v.itemCache (V.names v.raw) srcDir.mft
            (cString cold) dstDir.mft (cString cnew))) :
    Placed V (final (renameItem lib sched renameSeq sourceDirectory sourceName destinationName
      destinationDirectory v)) := by
  unfold renameItem
  cases sourceDirectory with
  | other => exact h
  | ntfs srcDir =>
    cases destinationDirectory with
    | other => exact h
    | ntfs dstDir =>
      cases hold : sourceName.string with
      | none => exact h
      | some cold =>
        cases hnew : destinationName.string with
        | none => exact h
        | some cnew =>
          obtain ⟨haway, hdisplaces⟩ := not_or.mp (hno srcDir dstDir cold cnew rfl rfl hold hnew)
          have hfits := rename_fits hL.create.lawful h.fits haway hdisplaces
          simp only
          rw [final_bind_pure, final_bridged]
          exact h.raw (Spec.final hfits rfl)

theorem perform_placed (hL : LawfulVolume lib V) {windowsNames : Bool} (h : Placed V v)
    (c : VolumeCall) (hno : ¬ Misplaces lib V windowsNames v c) :
    Placed V (perform lib windowsNames v c) := by
  unfold perform
  cases c with
  | lookupItem name directory =>
    rw [VolumeCall.run, final_dropResult]
    exact lookupItem_placed hL h name directory
  | createItem name type directory =>
    simp only [Misplaces, perform, VolumeCall.run, final_dropResult, not_exists, not_and] at hno ⊢
    exact createItem_placed hL h hno
  | createSymbolicLink name directory contents =>
    simp only [Misplaces, perform, VolumeCall.run, final_dropResult, not_exists, not_and] at hno ⊢
    exact createSymbolicLink_placed hL h hno
  | removeItem item name directory =>
    simp only [Misplaces, not_exists, not_and] at hno
    exact removeItem_placed hL h hno
  | renameItem sourceDirectory sourceName destinationName destinationDirectory sched renameSeq =>
    simp only [Misplaces, not_exists, not_and] at hno
    rw [VolumeCall.run, final_dropResult]
    exact renameItem_placed hL h hno

end Volume

/-! ## What is reported -/

/-- Of a record with one name, by the item that the volume has for it. -/
def ReportsParents (lib : Libvolume σ) (V : View σ) (v : NTFSVolume σ) : Prop :=
  ∀ k r, r ≠ rootMFT → OnlyName (V.names v.raw) k r → ∀ a v',
    attributesOf lib (.ntfs (v.item r k.1).1) (v.item r k.1).2 = .ok a v' →
      a.parentID = itemID k.1

/-- Of every entry a listing of the directory packs with attributes. -/
def PacksParents (lib : Libvolume σ) (d : UInt64) (v : NTFSVolume σ) : Prop :=
  ∀ {κ : Type} (cookie : Nat) (wantAttrs : Bool) (packer : Packer κ) (k : κ),
    ∀ p ∈ delivered lib.toLibdir d cookie wantAttrs (add packer wantAttrs) k v.raw,
      ∀ a, (packedEntry wantAttrs p).attributes = some a → a.parentID = itemID d

/-- The volume has no item yet but that of the root. -/
def Fresh (v : NTFSVolume σ) : Prop :=
  ∀ r it, v.itemCache r = some it → it.mft = r ∧ r = rootMFT

section Reports

variable {lib : Libvolume σ} {V : View σ} {v : NTFSVolume σ}

theorem Fresh.placed (h : Fresh v) : Placed V v := by
  refine ⟨fun r it hit => (h r it hit).1, fun k r hroot _ hstale => ?_⟩
  obtain ⟨it, hit, _⟩ := hstale
  exact hroot (h r it hit).2

theorem attributesOf_parent (hL : LawfulVolume lib V) {it : NTFSItem} {a : FSItemAttributes}
    {v' : NTFSVolume σ} (h : attributesOf lib (.ntfs it) v = .ok a v') (hroot : it.mft ≠ rootMFT) :
    a.parentID = itemID it.parentMFT := by
  obtain ⟨st, v₁, hst, hpure⟩ := bind_ok_iff.mp h
  cases hpure
  obtain ⟨s, hg, rfl⟩ := bridged_ok_iff.mp hst
  obtain ⟨hmft, _⟩ := (getattr_spec hL (V.names v.raw) it.mft).ok rfl hg
  simp [attributes, hmft, hroot]

theorem Placed.reports (hL : LawfulVolume lib V) (h : Placed V v) : ReportsParents lib V v := by
  intro k r hroot honly a v' ha
  have hmft : (v.item r k.1).1.mft = r := item_mft h
  rw [attributesOf_parent hL ha (by rwa [hmft]), item_parent (h.fits k r hroot honly)]

end Reports

/-! ## Listings -/

section Packed

variable {lib : Libvolume σ} {V : View σ} {v : NTFSVolume σ} {d : UInt64}
  {index : σ → Option (List IndexEntry)} {es : List IndexEntry}

theorem itemID_injective {m m' : UInt64} (h : itemID m = itemID m') : m = m' :=
  (UInt64.add_left_inj 3).mp h

/-- No directory has the identifier that the root reports as its parent. -/
theorem itemID_ne_parentOfRoot (h : MREF d = d) : itemID d ≠ parentOfRoot := by
  intro heq
  have hd : d = 0xFFFFFFFFFFFFFFFE := itemID_injective (heq.trans (by decide))
  rw [hd] at h
  exact absurd h (by decide)

/-- What is packed with attributes says that it is in the root. -/
theorem packed_parent (hL : LawfulVolume lib V) {p : Pending} (hp : Stated lib.toLibdir p) :
    (attributes p.st rootMFT).parentID =
      if p.mft = rootMFT then parentOfRoot else itemID rootMFT := by
  obtain ⟨e, wantAttrs, s, hmft, hst⟩ := hp
  have hsame : p.st.mft = p.mft := by
    rw [hst, hmft]
    exact entryStat_mft hL.stat wantAttrs e s
  simp [attributes, hsame]

/-- A listing packs the right parent exactly if it lists the root, and the root has no entry for
itself under another name. -/
theorem packsParents_iff (hL : LawfulVolume lib V) (hR : LawfulReaddir lib.toLibdir d index)
    (hes : index v.raw = some es) :
    PacksParents lib d v ↔ ∀ e ∈ es, reportable lib.toLibdir e ≠ none →
      d = rootMFT ∧ MREF e.mref ≠ rootMFT := by
  constructor
  · intro h e he hreported
    let packer : Packer Unit := fun _ _ _ => (true, ())
    have hcont : Continues (add packer true) := fun _ _ _ _ _ => rfl
    obtain ⟨_, hstated, hall⟩ := delivered_reported hR hes (add packer true) () 0 true
    obtain ⟨l, hl⟩ := Option.ne_none_iff_exists'.mp hreported
    have hmem : l ∈ es.filterMap (reportable lib.toLibdir) := List.mem_filterMap.mpr ⟨e, he, hl⟩
    have hfirst := hall hcont
    rw [Paging.above_zero] at hfirst
    rw [← hfirst] at hmem
    obtain ⟨p, hp, rfl⟩ := List.mem_map.mp hmem
    have hparent := h 0 true packer () p hp _ rfl
    rw [packed_parent hL (hstated p hp)] at hparent
    obtain ⟨_, mbs, _, hlisted⟩ := reportable_iff.mp hl
    have hmft : p.mft = MREF e.mref := congrArg Prod.fst hlisted
    by_cases hroot : p.mft = rootMFT
    · rw [if_pos hroot] at hparent
      obtain ⟨ni, s', hopen, _⟩ := hR.openDir v.raw es hes
      obtain ⟨hnode, _⟩ := (hL.stat.inodeOpen (V.names v.raw) d).ok rfl hopen
      exact absurd hparent.symm (itemID_ne_parentOfRoot ((V.wellFormed v.raw).nodeRecord d ni hnode))
    · rw [if_neg hroot] at hparent
      exact ⟨(itemID_injective hparent).symm, by rwa [← hmft]⟩
  · intro h κ cookie wantAttrs packer k p hp a ha
    obtain ⟨hsub, hstated, _⟩ := delivered_reported hR hes (add packer wantAttrs) k cookie wantAttrs
    obtain ⟨e, he, hl⟩ := List.mem_filterMap.mp (hsub.subset (List.mem_map.mpr ⟨p, hp, rfl⟩))
    obtain ⟨hd, hroot⟩ := h e he (by rw [hl]; exact Option.some_ne_none _)
    obtain ⟨_, mbs, _, hlisted⟩ := reportable_iff.mp hl
    have hmft : p.mft = MREF e.mref := congrArg Prod.fst hlisted
    cases wantAttrs with
    | false => cases ha
    | true =>
      cases ha
      rw [packed_parent hL (hstated p hp), hmft, if_neg hroot, hd]

end Packed

/-- In a run from a volume without items, of calls that misplace none, all items report their parents
before every call and after the last; and when a listing does. -/
theorem parents_reported {lib : Libvolume σ} {V : View σ} (hL : LawfulVolume lib V)
    (windowsNames : Bool) :
    (∀ v calls, Fresh v →
      Along (perform lib windowsNames) (fun v c => ¬ Misplaces lib V windowsNames v c) v calls →
        Along (perform lib windowsNames) (fun v _ => ReportsParents lib V v) v calls ∧
          ReportsParents lib V (calls.foldl (perform lib windowsNames) v)) ∧
    ∀ d index v es, LawfulReaddir lib.toLibdir d index → index v.raw = some es →
      (PacksParents lib d v ↔ ∀ e ∈ es, reportable lib.toLibdir e ≠ none →
        d = rootMFT ∧ MREF e.mref ≠ rootMFT) := by
  constructor
  · intro v calls hv hcalls
    have hstep : ∀ v c, Placed V v → ¬ Misplaces lib V windowsNames v c →
        ReportsParents lib V v ∧ Placed V (perform lib windowsNames v c) :=
      fun v c h hc => ⟨h.reports hL, perform_placed hL h c hc⟩
    obtain ⟨hall, hend⟩ := along_of_inv hstep hv.placed hcalls
    exact ⟨hall, hend.reports hL⟩
  · intro d index v es hR hes
    exact packsParents_iff hL hR hes

/-! ## A file `a` in a directory `d` -/

/-- `refLibcreate`, listing a directory as `refLibdir` does. -/
def refLibvolume (entries : List IndexEntry) : Libvolume RefState :=
  { refLibcreate, refLibdir entries with
    fillStat := fun ni s => ((0, { NfskStat.zero with mft := ni.mftNo }), s) }

theorem refLibvolume_lawful (entries : List IndexEntry) :
    LawfulVolume (refLibvolume entries) RefState.view where
  create := refLibcreate_lawful
  stat :=
    { refLibntfs_lawful with
      fillStat := fun _ _ _ hs => hs
      statMft := fun _ _ => rfl }

/-- `entries` is the index of `d`. -/
def indexOf (d : UInt64) (entries : List IndexEntry) (s : RefState) : Option (List IndexEntry) :=
  if (s.ns.node d).any NtfsInode.isDirectory then some entries else none

theorem refLibvolume_readdir (d : UInt64) (e : IndexEntry) :
    LawfulReaddir (refLibvolume [e]).toLibdir d (indexOf d [e]) := by
  have hindex : ∀ s es, indexOf d [e] s = some es →
      es = [e] ∧ (s.ns.node d).any NtfsInode.isDirectory = true := by
    intro s es hs
    unfold indexOf at hs
    split at hs
    · exact ⟨(Option.some.inj hs).symm, ‹_›⟩
    · cases hs
  have hsingle : Paging.Increasing IndexEntry.pos [e] := List.pairwise_singleton _ _
  obtain ⟨hincreasing, hopenDir, hcloseDir, hopen, hclose, _, hreaddir⟩ :=
    refLibdir_lawful_of hsingle hindex
  exact ⟨hincreasing, hopenDir, hcloseDir, hopen, hclose, fun _ _ => rfl, hreaddir⟩

/-- `d` is record 20 and `a` record 21. -/
def fileInDir : NTFSVolume RefState where
  raw := ofLists [((5, [0x64]), 20), ((20, [0x61]), 21)]
    [⟨5, false, true⟩, ⟨20, false, true⟩, ⟨21, false, false⟩] (by decide) (by decide)
  itemCache := fun _ => none

def root : FSItem := .ntfs ⟨5, 5⟩
def dirItem : FSItem := .ntfs ⟨20, 5⟩

def nameA : FSFileName := ⟨some [0x61]⟩
def nameB : FSFileName := ⟨some [0x62]⟩

/-- The entry for `d` in the root. -/
def entryD : IndexEntry := ⟨[0x64], .posix, 0, 20, .dir⟩

/-- The entry for `a` in `d`. -/
def entryA : IndexEntry := ⟨[0x61], .posix, 0, 21, .reg⟩

/-- `a` is looked up and gets the name `b`. -/
def renamesWithin : List VolumeCall :=
  [.lookupItem nameA dirItem, .renameItem dirItem nameA nameB dirItem (fun _ => none) 0]

theorem parents_reported_within :
    ReportsParents (refLibvolume [entryD]) RefState.view
        (renamesWithin.foldl (perform (refLibvolume [entryD]) false) fileInDir) ∧
      PacksParents (refLibvolume [entryD]) 5 fileInDir := by
  have hL := refLibvolume_lawful [entryD]
  have hfresh : Fresh fileInDir := nofun
  constructor
  · refine ((parents_reported hL false).1 fileInDir renamesWithin hfresh
      ⟨not_false, fun hmisplaces => ?_, trivial⟩).2
    obtain ⟨srcDir, dstDir, cold, cnew, hsrc, hdst, hcold, hcnew, hmoves⟩ := hmisplaces
    cases hsrc
    cases hdst
    cases hcold
    cases hcnew
    rcases hmoves with ⟨ino, ou, hstarts, _, ⟨it, hit, hne⟩, _⟩ | ⟨_, _, nu, _, _, hreplaces, _⟩
    · -- the item is for the directory it is renamed in
      have hou := hstarts.converts
      cases hou
      have hsource : some (21 : UInt64) = some ino := hstarts.source
      cases hsource
      have hitem : some (⟨21, 20⟩ : NTFSItem) = some it := hit
      cases hitem
      exact hne rfl
    · have hnu := hreplaces.converts
      cases hnu
      have htarget := hreplaces.target
      cases htarget
  · refine ((parents_reported hL false).2 5 _ fileInDir _ (refLibvolume_readdir 5 entryD) rfl).mpr ?_
    intro e he _
    rw [List.mem_singleton.mp he]
    decide

/-- `a` is looked up and moved to the root. -/
def movesOut : List VolumeCall :=
  [.lookupItem nameA dirItem, .renameItem dirItem nameA nameA root (fun _ => none) 0]

/-- The item of `a` still reports `d`. Listings of `d` report the root. -/
theorem parents_misreported :
    LawfulVolume (refLibvolume [entryA]) RefState.view ∧ Fresh fileInDir ∧
      ¬ ReportsParents (refLibvolume [entryA]) RefState.view
        (movesOut.foldl (perform (refLibvolume [entryA]) false) fileInDir) ∧
      LawfulReaddir (refLibvolume [entryA]).toLibdir 20 (indexOf 20 [entryA]) ∧
      indexOf 20 [entryA] fileInDir.raw = some [entryA] ∧
      ¬ PacksParents (refLibvolume [entryA]) 20 fileInDir := by
  have hL := refLibvolume_lawful [entryA]
  have hR := refLibvolume_readdir 20 entryA
  refine ⟨hL, nofun, fun h => ?_, hR, rfl, fun h => ?_⟩
  · have hbut : ¬ (movesOut.foldl (perform (refLibvolume [entryA]) false)
        fileInDir).raw.ns.NamedBut (5, [0x61]) 21 := by decide
    have hparent := h (5, [0x61]) 21 (by decide) ⟨rfl, hbut⟩ _ _ rfl
    exact absurd hparent (by decide)
  · have hroot := (packsParents_iff hL hR rfl).mp h entryA List.mem_cons_self (by decide)
    exact absurd hroot.1 (by decide)

end Ntfs
end Usbrw
