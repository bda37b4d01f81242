import Usbrw.Ntfs.Statistics

/-!
# Ntfs.Invariants

What every call of libntfs-3g keeps, every operation of a volume keeps.

* `LibraryKeeps`    — an invariant of the calls.
* `fillStat_keeps`, `nfskSetattr_keeps`, `nfskCreate_keeps`, `nfskUnlink_keeps`, `nfskWrite_keeps` — it
  is one of each function of the bridge.
* `step_keeps`      — and of every step of a run.
-/

namespace Usbrw
namespace Ntfs

open Call

variable {σ : Type}

/-- The calls keep `I`, whether they return or fail. -/
structure LibraryKeeps (lib : Libstatfs σ) (I : σ → Prop) : Prop where
  inodeOpen : ∀ r, Keeps I (lib.inodeOpen r)
  inodeClose : ∀ ni, Keeps I (lib.inodeClose ni)
  inodeCloseInDir : ∀ ni dirNi, Keeps I (lib.inodeCloseInDir ni dirNi)
  inodeLookupByName : ∀ ni uname, Keeps I (lib.inodeLookupByName ni uname)
  inodeUpdateTimes : ∀ ni w s, I s → I (lib.inodeUpdateTimes ni w s)
  create : ∀ dirNi uname type, Keeps I (lib.create dirNi uname type)
  delete : ∀ ni dirNi uname, Keeps I (lib.delete ni dirNi uname)
  attrOpen : ∀ ni, Keeps I (lib.attrOpen ni)
  attrClose : ∀ na s, I s → I (lib.attrClose na s)
  attrTruncate : ∀ na n, Keeps I (lib.attrTruncate na n)
  attrPwrite : ∀ na pos bytes, Keeps I (lib.attrPwrite na pos bytes)
  attrPread : ∀ na pos count, Keeps I (lib.attrPread na pos count)
  malloc : ∀ size, Keeps I (lib.malloc size)
  setFlags : ∀ ni flags s, I s → I (lib.setFlags ni flags s)
  setTime : ∀ ni w t s, I s → I (lib.setTime ni w t s)
  setNtfsAttrib : ∀ ni attrib, Keeps I (lib.setNtfsAttrib ni attrib)
  makeSymlink : ∀ ni, Keeps I (lib.makeSymlink ni)
  indexOpen : ∀ ni, Keeps I (lib.indexOpen ni)
  indexClose : ∀ na s, I s → I (lib.indexClose na s)
  setKnownSize : ∀ ni size alloc s, I s → I (lib.setKnownSize ni size alloc s)
  dataInodeOpen : ∀ r env, I env.state → I (lib.data.inodeOpen r env).1.state
  dataInodeClose : ∀ ni env, I env.state → I (lib.data.inodeClose ni env).1.state
  dataAttrOpen : ∀ ni env, I env.state → I (lib.data.attrOpen ni env).1.state
  dataAttrClose : ∀ na env, I env.state → I (lib.data.attrClose na env).state
  dataAttrPwrite : ∀ na off size buf env, I env.state →
    I (lib.data.attrPwrite na off size buf env).1.state
  dataSetArchive : ∀ ni env, I env.state → I (lib.data.setArchive ni env).state
  dataInodeUpdateTimes : ∀ ni w env, I env.state → I (lib.data.inodeUpdateTimes ni w env).state

theorem LibraryKeeps.of_forall {lib : Libstatfs σ} {I : σ → Prop} (h : ∀ s, I s) :
    LibraryKeeps lib I := by
  have hkeeps : ∀ {α : Type} (x : EStateM Errno σ α), Keeps I x := by
    intro α x s _
    cases x s with
    | ok a s' => exact h s'
    | error e s' => exact h s'
  constructor
  all_goals intros
  all_goals first | exact hkeeps _ | exact h _

section Bridge

variable {lib : Libstatfs σ} {I : σ → Prop}

/-! ## Attributes -/

theorem closing_keeps {α : Type} (hK : LibraryKeeps lib I) {ni : NtfsInode} {x : EStateM Int σ α}
    (hx : Keeps I x) : Keeps I (closing lib.toLibntfs ni x) := by
  refine Keeps.bind (hx.onFail (hK.inodeClose ni)) fun a => ?_
  exact Keeps.bind ((hK.inodeClose ni).orFail _) fun _ => Keeps.pure a

theorem readIntx_keeps (hK : LibraryKeeps lib I) (na : DataAttr) :
    Keeps I (readIntx lib.toLibstat na) := by
  refine Keeps.bind ((hK.malloc na.dataSize).orFail _) fun _ => ?_
  refine Keeps.bind ((hK.attrPread na 0 na.dataSize).orFail _) fun read => ?_
  exact Keeps.ite (fun _ _ hs => hs) fun _ => Keeps.pure _

theorem fillReparse_keeps (hK : LibraryKeeps lib I) (ni : NtfsInode) (out : NfskStat) :
    Keeps I (fillReparse lib.toLibstat ni out) := by
  refine Keeps.bind (hK.makeSymlink ni).attempt fun res => ?_
  cases res with
  | ok target => exact Keeps.bind_get fun _ => Keeps.pure _
  | error e =>
    refine Keeps.ite (fun _ => Keeps.throw _) fun _ => ?_
    exact Keeps.bind_get fun _ => Keeps.pure _

theorem loadSizes_keeps (hK : LibraryKeeps lib I) (ni : NtfsInode) {s : σ} (hs : I s) :
    I (loadSizes lib.toLibstat ni s) := by
  unfold loadSizes
  by_cases hknown : lib.knownSize ni s = true
  · rw [if_pos hknown]
    exact hs
  · rw [if_neg hknown]
    have hopen := hK.indexOpen ni s hs
    cases hrun : lib.indexOpen ni s with
    | ok na s' =>
      rw [hrun] at hopen
      exact hK.indexClose na _ (hK.setKnownSize ni na.dataSize na.allocatedSize s' hopen)
    | error e s' =>
      rw [hrun] at hopen
      exact hopen

theorem fillDirectory_keeps (hK : LibraryKeeps lib I) (ni : NtfsInode) (out : NfskStat) :
    Keeps I (fillDirectory lib.toLibstat ni out) := by
  refine Keeps.bind (Keeps.modify fun s hs => loadSizes_keeps hK ni hs) fun _ => ?_
  exact Keeps.bind_get fun _ => Keeps.pure _

theorem fillSpecial_keeps (hK : LibraryKeeps lib I) (ni : NtfsInode) (na : DataAttr)
    (out : NfskStat) : Keeps I (fillSpecial lib.toLibstat ni na out) := by
  refine Keeps.bind_get fun s => Keeps.ite (fun _ => ?_) fun _ => Keeps.pure _
  refine Keeps.bind ((readIntx_keeps hK na).orFail _) fun intx => ?_
  split
  · exact Keeps.pure _
  · exact Keeps.throw _

theorem fillFile_keeps (hK : LibraryKeeps lib I) (ni : NtfsInode) (out : NfskStat) :
    Keeps I (fillFile lib.toLibstat ni out) := by
  refine Keeps.bind_get fun s => Keeps.ite (fun _ => ?_) fun _ => Keeps.pure _
  refine Keeps.bind (hK.attrOpen ni).attempt fun res => ?_
  cases res with
  | error e => exact Keeps.pure _
  | ok na =>
    have hclose : Keeps I (modify (lib.attrClose na) : EStateM Int σ Unit) :=
      Keeps.modify (hK.attrClose na)
    exact Keeps.bind ((fillSpecial_keeps hK ni na _).afterwards hclose) fun _ => Keeps.pure _

theorem fillKind_keeps (hK : LibraryKeeps lib I) (ni : NtfsInode) :
    Keeps I (fillKind lib.toLibstat ni) := by
  refine Keeps.bind_get fun s => Keeps.ite (fun _ => fillReparse_keeps hK ni _) fun _ => ?_
  exact Keeps.ite (fun _ => fillDirectory_keeps hK ni _) fun _ => fillFile_keeps hK ni _

theorem fillStat_keeps (hK : LibraryKeeps lib I) (ni : NtfsInode) {s : σ} (hs : I s) :
    I (fillStat lib.toLibstat ni s).2 := by
  have hkind := fillKind_keeps hK ni s hs
  unfold fillStat
  cases hrun : fillKind lib.toLibstat ni s with
  | ok out s' =>
    rw [hrun] at hkind
    exact hkind
  | error ret s' =>
    rw [hrun] at hkind
    exact hkind

theorem recordStat_keeps {dir : Libdir σ} {mft : UInt64} (hopen : Keeps I (dir.inodeOpen mft))
    (hfill : ∀ ni s, I s → I (dir.fillStat ni s).2) (hclose : ∀ ni, Keeps I (dir.inodeClose ni))
    {s : σ} (hs : I s) : I (recordStat dir mft s).2 := by
  unfold recordStat
  cases hrun : dir.inodeOpen mft s with
  | error e s₁ => exact hopen.error hs hrun
  | ok ni s₁ =>
    have hs₂ := hfill ni s₁ (hopen.ok hs hrun)
    cases hend : dir.inodeClose ni (dir.fillStat ni s₁).2 with
    | ok _ s₃ =>
      simp only [hend]
      exact (hclose ni).ok hs₂ hend
    | error e s₃ =>
      simp only [hend]
      exact (hclose ni).error hs₂ hend

theorem getattr_keeps (hK : LibraryKeeps lib I) (mft : UInt64) {s : σ} (hs : I s) :
    I (nfskGetattrImpl lib.toLibstat.volume mft s).2 := by
  unfold nfskGetattrImpl
  by_cases hmft : mft ≤ 1
  · rw [if_pos hmft]
    exact hs
  · rw [if_neg hmft]
    exact recordStat_keeps (hK.inodeOpen mft) (fun ni _ => fillStat_keeps hK ni) hK.inodeClose hs

theorem resizeAttr_keeps (hK : LibraryKeeps lib I) (na : DataAttr) (n : Int64) :
    Keeps I (resizeAttr lib.toLibsetattr na n) := by
  refine Keeps.ite (fun _ => ?_) fun _ => (hK.attrTruncate na n).orFail _
  refine Keeps.bind ((hK.attrPwrite na (n - 1) [0]).orFail _) fun ret => ?_
  exact Keeps.ite (fun _ _ hs => hs) fun _ => Keeps.pure _

theorem setSize_keeps (hK : LibraryKeeps lib I) (mft : UInt64) (ni : NtfsInode) (n : Int64) :
    Keeps I (setSize lib.toLibsetattr mft ni n) := by
  refine Keeps.ite (fun _ => Keeps.throw _) fun _ => Keeps.ite (fun _ => Keeps.throw _) fun _ => ?_
  refine Keeps.bind ((hK.attrOpen ni).orFail _) fun na => ?_
  have hclose : Keeps I (modify (lib.attrClose na) : EStateM Int σ Unit) :=
    Keeps.modify (hK.attrClose na)
  refine Keeps.bind ((resizeAttr_keeps hK na n).afterwards hclose) fun _ => ?_
  refine Keeps.bind (Keeps.modify fun s hs => ?_) fun _ =>
    Keeps.modify fun s hs => hK.inodeUpdateTimes ni .mctime s hs
  split
  · exact hK.setFlags ni _ s hs
  · exact hs

theorem setTimes_keeps (hK : LibraryKeeps lib I) (ni : NtfsInode) (st : NfskStat) (which : UInt32)
    {s : σ} (hs : I s) : I (setTimes lib.toLibsetattr ni st which s) := by
  have htime : ∀ (p : Prop) [Decidable p] (w : InodeTime) (t : Int64) (s : σ), I s →
      I (if p then lib.setTime ni w t s else s) := by
    intro p _ w t s hs
    split
    · exact hK.setTime ni w t s hs
    · exact hs
  unfold setTimes
  split
  · exact hK.inodeUpdateTimes ni .ctime _ (htime _ _ _ _ (htime _ _ _ _ (htime _ _ _ _ hs)))
  · exact hs

theorem setHidden_keeps (hK : LibraryKeeps lib I) (ni : NtfsInode) (flags : UInt32) :
    Keeps I (setHidden lib.toLibsetattr ni flags) := fun s hs =>
  (hK.setNtfsAttrib ni (hiddenAs flags (lib.flags ni s))).orFail negErrno s hs

theorem setattrBody_keeps (hK : LibraryKeeps lib I) (mft : UInt64) (st : NfskStat) (which : UInt32)
    (ni : NtfsInode) : Keeps I (setattrBody lib.toLibsetattr mft st which ni) := by
  have hrest : Keeps I (modify (setTimes lib.toLibsetattr ni st which) >>= fun _ =>
      if which &&& 32 ≠ 0 then setHidden lib.toLibsetattr ni st.flags else pure ()) := by
    refine Keeps.bind (Keeps.modify fun s hs => setTimes_keeps hK ni st which hs) fun _ => ?_
    exact Keeps.ite (fun _ => setHidden_keeps hK ni st.flags) fun _ => Keeps.pure _
  unfold setattrBody
  by_cases hwhich : which &&& 8 ≠ 0
  · simp only [if_pos hwhich]
    exact Keeps.bind (setSize_keeps hK mft ni _) fun _ => hrest
  · simp only [if_neg hwhich]
    exact hrest

theorem nfskSetattr_keeps (hK : LibraryKeeps lib I) (mft : UInt64) (st : NfskStat) (which : UInt32) :
    Keeps I (nfskSetattrImpl lib.toLibsetattr mft st which) := by
  refine Keeps.ite (fun _ => Keeps.throw _) fun _ => ?_
  refine Keeps.bind ((hK.inodeOpen mft).orFail _) fun ni => ?_
  exact closing_keeps hK (setattrBody_keeps hK mft st which ni)

/-! ## Names -/

theorem convert_keeps (name : List UInt8) : Keeps I (convert lib.toLibntfs name) := by
  unfold convert
  split
  · exact Keeps.pure _
  · exact Keeps.throw _

theorem finishNew_keeps {calls : Libcreate σ} {dirNi ni : NtfsInode}
    (hclose : Keeps I (calls.inodeCloseInDir ni dirNi))
    (htimes : ∀ s, I s → I (calls.inodeUpdateTimes dirNi .mctime s)) :
    Keeps I (finishNew calls dirNi ni) := by
  refine Keeps.bind hclose.attempt fun res => Keeps.bind (Keeps.modify htimes) fun _ => ?_
  cases res with
  | ok _ => exact Keeps.pure _
  | error e => exact Keeps.throw _

theorem refuseName_keeps (calls : Libcreate σ) (windowsNames : Bool) (uname : List UInt16) :
    Keeps I (refuseName calls windowsNames uname) := by
  refine Keeps.ite (fun _ => ?_) fun _ => Keeps.pure _
  split
  · exact Keeps.throw _
  · exact Keeps.pure _

theorem nfskCreate_keeps (hK : LibraryKeeps lib I) (windowsNames : Bool) (dirMft : UInt64)
    (name : List UInt8) (type : Char) :
    Keeps I (nfskCreateImpl lib.toLibcreate windowsNames dirMft name type) := by
  refine Keeps.ite (fun _ => Keeps.throw _) fun _ => Keeps.ite (fun _ => Keeps.throw _) fun _ => ?_
  refine Keeps.bind ((convert_keeps name).orFail _) fun uname => ?_
  refine Keeps.ite (fun _ => Keeps.throw _) fun _ => ?_
  refine Keeps.bind ((hK.inodeOpen dirMft).orFail _) fun dirNi => closing_keeps hK ?_
  refine Keeps.ite (fun _ => Keeps.throw _) fun _ => ?_
  refine Keeps.bind (refuseName_keeps lib.toLibcreate windowsNames uname) fun _ => ?_
  refine Keeps.bind ((hK.create dirNi uname _).orFail _) fun ni => ?_
  exact finishNew_keeps (hK.inodeCloseInDir ni dirNi) (hK.inodeUpdateTimes dirNi .mctime)

theorem unlinkVictim_keeps (hK : LibraryKeeps lib I) (dirNi : NtfsInode) (name : List UInt8) :
    Keeps I (unlinkVictim lib.toLibntfs dirNi name) := by
  have hlookup : Keeps I (nfskLookupMft lib.toLibntfs dirNi name) :=
    Keeps.bind (convert_keeps name) fun uname => hK.inodeLookupByName dirNi uname
  refine Keeps.bind (hlookup.orFail _) fun iref => Keeps.ite (fun _ => Keeps.throw _) fun _ => ?_
  refine Keeps.bind ((hK.inodeOpen _).orFail _) fun ni => ?_
  exact (Keeps.ite (fun _ => Keeps.throw _) fun _ => Keeps.pure _).onFail (hK.inodeClose ni)

theorem nfskUnlink_keeps (hK : LibraryKeeps lib I) (dirMft : UInt64) (name : List UInt8)
    (mft : UInt64) : Keeps I (nfskUnlinkImpl lib.toLibntfs dirMft name mft) := by
  refine Keeps.ite (fun _ => Keeps.throw _) fun _ => ?_
  refine Keeps.bind ((convert_keeps name).orFail _) fun uname => ?_
  refine Keeps.bind ((hK.inodeOpen dirMft).orFail _) fun dirNi => ?_
  refine Keeps.bind ((unlinkVictim_keeps hK dirNi name).onFail (hK.inodeClose dirNi)) fun ni => ?_
  exact (hK.delete ni dirNi uname).orFail _

/-! ## Data -/

theorem writeLoop_keeps (hK : LibraryKeeps lib I) (na : NtfsAttr) (off size total : Int64)
    (buf : List UInt8) (env : Env σ) (hs : I env.state) :
    I (writeLoop lib.data na off size total buf env).1.state := by
  fun_induction writeLoop lib.data na off size total buf env with
  | case1 off size total env hsize env' ret hwrite hret =>
    have hstep := hK.dataAttrPwrite na off size (buf.drop total.toInt.toNat) env hs
    rwa [hwrite] at hstep
  | case2 off size total env hsize env' ret hwrite hret ih =>
    have hstep := hK.dataAttrPwrite na off size (buf.drop total.toInt.toNat) env hs
    rw [hwrite] at hstep
    exact ih hstep
  | case3 off size total env hsize => exact hs

theorem nfskWrite_keeps (hK : LibraryKeeps lib I) (mft offset len : UInt64) (buf : List UInt8)
    (env : Env σ) (hs : I env.state) : I (nfskWrite lib.data mft offset len buf env).1.state := by
  have hend := nfskWrite_ends lib.data mft offset len buf env
  have hopened : ∀ {env₁ : Env σ} {ino : Option NtfsInode},
      lib.data.inodeOpen mft env.clear = (env₁, ino) → I env₁.state := by
    intro env₁ ino hopen
    have hkept := hK.dataInodeOpen mft env.clear hs
    rwa [hopen] at hkept
  have hattached : ∀ {env₁ env₂ : Env σ} {ni : NtfsInode} {attr : Option NtfsAttr},
      lib.data.attrOpen ni env₁ = (env₂, attr) → I env₁.state → I env₂.state := by
    intro env₁ env₂ ni attr hattr hs₁
    have hkept := hK.dataAttrOpen ni env₁ hs₁
    rwa [hattr] at hkept
  have hlooped : ∀ {env₂ env₃ : Env σ} {na : NtfsAttr} {total : Int64} {err : Option Int},
      writeLoop lib.data na offset.toInt64 len.toInt64 0 buf env₂ = (env₃, total, err) →
        I env₂.state → I (lib.data.attrClose na env₃).state := by
    intro env₂ env₃ na total err hloop hs₂
    have hkept := writeLoop_keeps hK na offset.toInt64 len.toInt64 0 buf env₂ hs₂
    rw [hloop] at hkept
    exact hK.dataAttrClose na env₃ hkept
  generalize nfskWrite lib.data mft offset len buf env = res at hend ⊢
  cases hend with
  | nothing hlen => exact hs
  | unopened hopen => exact hopened hopen
  | refused hopen hrc => exact hK.dataInodeClose _ _ (hopened hopen)
  | noData hopen hattr => exact hK.dataInodeClose _ _ (hattached hattr (hopened hopen))
  | cutShort hopen hattr hloop =>
    exact hK.dataInodeClose _ _ (hlooped hloop (hattached hattr (hopened hopen)))
  | @stored env₁ env₂ env₃ env₄ ni na total fails hopen hattr hloop hclose =>
    have hdone := hlooped hloop (hattached hattr (hopened hopen))
    have hnoted : I (if 0 < total then
          lib.data.inodeUpdateTimes ni .mctime (lib.data.setArchive ni (lib.data.attrClose na env₃))
        else lib.data.attrClose na env₃).state := by
      split
      · exact hK.dataInodeUpdateTimes ni .mctime _ (hK.dataSetArchive ni _ hdone)
      · exact hdone
    have hclosed := hK.dataInodeClose ni _ hnoted
    rwa [hclose] at hclosed

theorem writeData_keeps (hK : LibraryKeeps lib I) (mft offset : UInt64) (contents : List UInt8) :
    Keeps I (writeData lib mft offset contents) := by
  intro s hs
  have hwrite := nfskWrite_keeps hK mft offset (UInt64.ofNat contents.length) contents ⟨s, 0⟩ hs
  unfold writeData
  generalize nfskWrite lib.data mft offset (UInt64.ofNat contents.length) contents ⟨s, 0⟩ = written
    at hwrite ⊢
  obtain ⟨env, n⟩ := written
  by_cases hn : n < 0
  · simp only [if_pos hn]
    exact hwrite
  · simp only [if_neg hn]
    exact hwrite

/-! ## Volumes -/

theorem bridged_spec {α : Type} {P E : σ → Prop} {Q : α → σ → Prop} {x : EStateM Int σ α}
    (hx : Spec P x Q fun _ => E) :
    Spec (fun v : NTFSVolume σ => P v.raw) (bridged x) (fun a v => Q a v.raw) fun _ v => E v.raw := by
  intro v hv
  have hxv := hx v.raw hv
  unfold bridged
  cases hrun : x v.raw with
  | ok a s =>
    rw [hrun] at hxv
    exact hxv
  | error rc s =>
    rw [hrun] at hxv
    exact hxv

theorem itemFor_keeps (mft parent : UInt64) :
    Keeps (fun v : NTFSVolume σ => I v.raw) (itemFor mft parent) := by
  intro v hv
  unfold itemFor NTFSVolume.item
  cases v.itemCache mft with
  | some it => exact hv
  | none => exact hv

theorem snapshot_keeps (hK : LibraryKeeps lib I) (mft : UInt64) :
    Keeps (fun v : NTFSVolume σ => I v.raw) (snapshot lib.toLibstat.volume mft) :=
  fun _ hv => getattr_keeps hK mft hv

theorem dropResult_keeps {τ α : Type} {J : τ → Prop} {x : EStateM Int τ α} (hx : Keeps J x) :
    Keeps J (dropResult x) :=
  hx.bind fun _ => Keeps.pure ()

theorem createItem_keeps (hK : LibraryKeeps lib I) (windowsNames : Bool) (name : FSFileName)
    (type : ItemType) (directory : FSItem) : Keeps (fun v : NTFSVolume σ => I v.raw)
      (createItem lib.toLibvolume windowsNames name type directory) := by
  unfold createItem
  split
  · refine Keeps.bind (bridged_spec (nfskCreate_keeps hK windowsNames _ _ _)) fun mft => ?_
    exact Keeps.bind (itemFor_keeps mft _) fun _ => Keeps.pure _
  · exact Keeps.throw _

theorem write_keeps (hK : LibraryKeeps lib I) (contents : List UInt8) (item : FSItem)
    (offset : UInt64) : Keeps (fun v : NTFSVolume σ => I v.raw) (write lib contents item offset) := by
  cases item with
  | other => exact Keeps.throw _
  | ntfs it =>
    refine Keeps.ite (fun _ => Keeps.throw _) fun _ => ?_
    exact bridged_spec (writeData_keeps hK it.mft offset contents)

theorem setAttributes_keeps (hK : LibraryKeeps lib I) (req : SetAttributesRequest) (item : FSItem) :
    Keeps (fun v : NTFSVolume σ => I v.raw) (setAttributes lib.toLibstat req item) := by
  cases item with
  | other => exact Keeps.throw _
  | ntfs it =>
    refine Keeps.bind (snapshot_keeps hK it.mft) fun st => ?_
    refine Keeps.bind (bridged_spec (nfskSetattr_keeps hK it.mft _ _)) fun _ => Keeps.pure _

theorem removeItem_keeps (hK : LibraryKeeps lib I) (item : FSItem) (name : FSFileName)
    (directory : FSItem) : Keeps (fun v : NTFSVolume σ => I v.raw)
      (removeItem lib.toLibvolume item name directory) := by
  unfold removeItem
  split
  · exact bridged_spec (nfskUnlink_keeps hK _ _ _)
  · exact Keeps.throw _

end Bridge

/-- A step keeps what the library keeps. -/
theorem step_keeps {lib : Libstatfs σ} {I : σ → Prop} (hK : LibraryKeeps lib I)
    (windowsNames : Bool) (v : MountedVolume σ) (c : FileCall) (hv : I v.raw) :
    I (step lib windowsNames v c).raw := by
  have hrun : Keeps (fun v : NTFSVolume σ => I v.raw) (c.run lib windowsNames) := by
    cases c with
    | createItem name type directory =>
      exact dropResult_keeps (createItem_keeps hK windowsNames name type directory)
    | write contents item offset => exact dropResult_keeps (write_keeps hK contents item offset)
    | setAttributes req item => exact dropResult_keeps (setAttributes_keeps hK req item)
    | removeItem item name directory => exact removeItem_keeps hK item name directory
  exact Spec.final hrun hv

end Ntfs
end Usbrw
