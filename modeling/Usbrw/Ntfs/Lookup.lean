import Mathlib.Data.List.Nodup
import Mathlib.Data.List.Pairwise
import Mathlib.Data.List.TakeWhile
import Usbrw.Ntfs.Readdir
import Usbrw.Ntfs.Utf8

/-!
# Ntfs.Lookup

`nfsk_lookup_impl`, and whether it finds what `nfsk_readdir_impl` delivers. An index holds names of
up to 255 UTF-16 units, each up to three bytes of UTF-8, and both functions count bytes: the listing
cuts a name after 255 of them, the lookup refuses one of 256.

* `nfskLookupImpl` — the code.
* `delivered`      — what a call of `nfsk_readdir` hands to its callback.
* `nfskReaddir_lookup_iff` — what is delivered can be looked up, and goes by different names, exactly
  if no name has more than 255 bytes.
-/

namespace Usbrw
namespace Ntfs

open Call Paging

variable {σ κ : Type}

/-- The record a name in a directory stands for, as far as `*out_mft = MREF(iref)`. -/
def lookupRecord (lib : Libdir σ) (dirMft : UInt64) (name : List UInt8) : EStateM Int σ UInt64 := do
  if 256 ≤ name.length then throw (-ENAMETOOLONG)
  else
    let dirNi ← orFail negErrno (lib.inodeOpen dirMft)
    let found ← attempt (nfskLookupMft lib.toLibntfs dirNi name)
    orFail negErrno (lib.inodeClose dirNi)
    match found with
    | .error _ => throw (-ENOENT)
    | .ok iref => if MREF iref ≤ 1 then throw (-ENOENT) else pure (MREF iref)

/-- The attributes of a record, for `out_stat`. -/
def recordStat (lib : Libdir σ) (mft : UInt64) (s : σ) : (Int × Option NfskStat) × σ :=
  match lib.inodeOpen mft s with
  | .error e s => ((negErrno e, none), s)
  | .ok ni s =>
    match lib.fillStat ni s with
    | ((res, st), s) =>
      match lib.inodeClose ni s with
      | .ok () s => ((res, some st), s)
      | .error e s => ((if res = 0 then negErrno e else res, some st), s)

/-- The return value, with `*out_mft` and `*out_stat` where they were written. -/
structure LookupRet where
  res : Int
  outMft : Option UInt64
  outStat : Option NfskStat

/-- `wantStat` is whether `out_stat` is given. -/
def nfskLookupImpl (lib : Libdir σ) (dirMft : UInt64) (name : List UInt8) (wantStat : Bool)
    (s : σ) : LookupRet × σ :=
  match lookupRecord lib dirMft name s with
  | .error res s => (⟨res, none, none⟩, s)
  | .ok mft s =>
    if wantStat then
      match recordStat lib mft s with
      | ((res, st), s) => (⟨res, some mft, st⟩, s)
    else (⟨0, some mft, none⟩, s)

/-! ## The directory -/

/-- The entry an index has under a name: an 8.3 alias only where no other entry has the name. `.` and
`..` are not in an index; `ntfs_readdir` adds them. -/
structure Indexed (es : List IndexEntry) (u : List UInt16) (e : IndexEntry) : Prop where
  mem : e ∈ es
  notDots : ¬ IsDots e.name
  name : e.name = u
  onlyAlias : e.nameType = .dos → ∀ e' ∈ es, e'.name = u → e'.nameType = .dos

/-- `ntfs_inode_lookup_by_name` finds exactly the entry with the name. -/
structure LawfulLookup (lib : Libdir σ) (d : UInt64) (index : σ → Option (List IndexEntry)) : Prop
    extends LawfulReaddir lib d index where
  lookup : ∀ ni es u, ni.mftNo = d → Spec (fun s => index s = some es) (lib.inodeLookupByName ni u)
    (fun iref s => (∃ e, Indexed es u e ∧ MREF iref = MREF e.mref) ∧ index s = some es)
    fun _ s => (∀ e, ¬ Indexed es u e) ∧ index s = some es

/-- The names of a directory: of 1 to 255 units, distinct but for 8.3 aliases, and the two
conversions are inverse on them. An 8.3 alias has at most 12 units, so that no 255 bytes convert to it. -/
structure Named (lib : Libdir σ) (es : List IndexEntry) : Prop where
  distinct : ((es.filter fun e => e.nameType ≠ .dos).map IndexEntry.name).Nodup
  units : ∀ e ∈ es, e.nameType ≠ .dos → 1 ≤ e.name.length ∧ e.name.length ≤ 255
  converts : ∀ e ∈ es, e.nameType ≠ .dos → ∃ mbs, lib.ucstombs e.name = some mbs
  cString : ∀ e ∈ es, e.nameType ≠ .dos → ∀ mbs, lib.ucstombs e.name = some mbs → 0 ∉ mbs
  inverse : ∀ e ∈ es, e.nameType ≠ .dos → ∀ mbs, 0 ∉ mbs →
    (lib.ucstombs e.name = some mbs ↔ lib.mbstoucs mbs = .ok e.name)
  aliases : ∀ e ∈ es, e.nameType = .dos → ∀ mbs, lib.mbstoucs mbs = .ok e.name → mbs.length < 255

/-- No name that is listed has more than 255 bytes. -/
def ShortNames (lib : Libdir σ) (es : List IndexEntry) : Prop :=
  ∀ e ∈ es, skipped e = false → ∀ mbs, lib.ucstombs e.name = some mbs → mbs.length ≤ 255

theorem not_skipped {e : IndexEntry} (h : skipped e = false) :
    e.nameType ≠ .dos ∧ ¬ IsDots e.name ∧ ¬ MREF e.mref ≤ 1 := by
  simpa only [skipped, decide_eq_false_iff_not, not_or] using h

theorem cName_of_le {mbs : List UInt8} (h : mbs.length ≤ 255) (hz : 0 ∉ mbs) : cName mbs = mbs := by
  rw [cName, List.take_of_length_le h, List.takeWhile_eq_self_iff]
  intro b hb
  simp only [ne_eq, decide_not, Bool.not_eq_true', decide_eq_false_iff_not]
  rintro rfl
  exact hz hb

theorem cName_of_gt {mbs : List UInt8} (hz : 0 ∉ mbs) : cName mbs = mbs.take 255 := by
  have hz' : 0 ∉ mbs.take 255 := fun h => hz (List.mem_of_mem_take h)
  have hshort : (mbs.take 255).length ≤ 255 := List.length_take_le 255 mbs
  have hself := cName_of_le hshort hz'
  rwa [cName, List.take_take, Nat.min_self] at hself

section Directory

variable {lib : Libdir σ} {d : UInt64} {index : σ → Option (List IndexEntry)}
  {es : List IndexEntry} {e : IndexEntry}

theorem Named.unique (hn : Named lib es) (he : e ∈ es) (hdos : e.nameType ≠ .dos) {e' : IndexEntry}
    (he' : e' ∈ es) (hdos' : e'.nameType ≠ .dos) (h : e'.name = e.name) : e' = e := by
  have hmem : ∀ {x}, x ∈ es → x.nameType ≠ .dos → x ∈ es.filter fun e => e.nameType ≠ .dos :=
    fun hx hd => List.mem_filter.mpr ⟨hx, decide_eq_true hd⟩
  exact List.inj_on_of_nodup_map hn.distinct (hmem he' hdos') (hmem he hdos) h

/-- The index has nothing else under the name of an entry that is listed. -/
theorem indexed_iff (hn : Named lib es) (he : e ∈ es) (h : skipped e = false) {e' : IndexEntry} :
    Indexed es e.name e' ↔ e' = e := by
  obtain ⟨hdos, hdots, _⟩ := not_skipped h
  constructor
  · intro hi
    have hdos' : e'.nameType ≠ .dos := fun ha => hdos (hi.onlyAlias ha e he rfl)
    exact hn.unique he hdos hi.mem hdos' hi.name
  · rintro rfl
    exact ⟨he, hdots, rfl, fun ha => absurd ha hdos⟩

theorem openDir_spec (hL : LawfulReaddir lib d index) (es : List IndexEntry) :
    Spec (fun s => index s = some es) (lib.inodeOpen d)
      (fun ni s => ni.mftNo = d ∧ index s = some es) fun _ _ => False := by
  intro s hs
  obtain ⟨ni, s', hopen, hno, _, hs'⟩ := hL.opened hs
  rw [hopen]
  exact ⟨hno, hs'⟩

theorem closeDir_spec (hL : LawfulReaddir lib d index) (es : List IndexEntry) {ni : NtfsInode}
    (hno : ni.mftNo = d) :
    Spec (fun s => index s = some es) (lib.inodeClose ni) (fun _ s => index s = some es)
      fun _ _ => False := by
  intro s hs
  obtain ⟨s', hclose, hs'⟩ := hL.closed s hno
  rw [hclose]
  exact hs'.trans hs

/-- The entry that bytes stand for in a directory. -/
def Resolves (lib : Libdir σ) (es : List IndexEntry) (name : List UInt8) (m : UInt64) : Prop :=
  ∃ u e, lib.mbstoucs name = .ok u ∧ Indexed es u e ∧ MREF e.mref = m

theorem nfskLookupMft_resolves (hL : LawfulLookup lib d index) (es : List IndexEntry)
    (name : List UInt8) {ni : NtfsInode} (hno : ni.mftNo = d) :
    Spec (fun s => index s = some es) (nfskLookupMft lib.toLibntfs ni name)
      (fun iref s => Resolves lib es name (MREF iref) ∧ index s = some es)
      fun _ s => (∀ m, ¬ Resolves lib es name m) ∧ index s = some es := by
  unfold nfskLookupMft
  cases hu : lib.mbstoucs name with
  | error err =>
    refine Spec.bind (Spec.conseq_error (convert_fails lib.toLibntfs hu) ?_) fun _ _ hf => hf.elim
    rintro _ s hs
    refine ⟨fun m hm => ?_, hs⟩
    obtain ⟨u, _, hu', _⟩ := hm
    rw [hu] at hu'
    cases hu'
  | ok u =>
    rw [bind_convert hu]
    refine Spec.conseq (hL.lookup ni es u hno) ?_ ?_
    · rintro iref s ⟨⟨e, he, hm⟩, hs⟩
      exact ⟨⟨u, e, hu, he, hm.symm⟩, hs⟩
    · rintro _ s ⟨hnone, hs⟩
      refine ⟨fun m hm => ?_, hs⟩
      obtain ⟨u', e, hu', he, _⟩ := hm
      rw [hu] at hu'
      cases hu'
      exact hnone e he

/-- A name that is not too long is found unless it stands for nothing or for a metadata record. -/
theorem lookupRecord_spec (hL : LawfulLookup lib d index) (es : List IndexEntry) {name : List UInt8}
    (hlen : name.length ≤ 255) :
    Spec (fun s => index s = some es) (lookupRecord lib d name)
      (fun m s => (Resolves lib es name m ∧ ¬ m ≤ 1) ∧ index s = some es)
      fun _ s => ((∀ m, ¬ Resolves lib es name m) ∨ ∃ m, Resolves lib es name m ∧ m ≤ 1) ∧
        index s = some es := by
  unfold lookupRecord
  refine Spec.guard (fun h => by omega) fun _ => ?_
  refine Spec.bind_orFail (openDir_spec hL.toLawfulReaddir es) (fun _ _ hf => hf.elim) ?_
  intro ni
  refine Spec.assume fun hno => ?_
  refine Spec.bind_attempt (nfskLookupMft_resolves hL es name hno) ?_ ?_
  · intro iref
    refine Spec.assume fun hm => ?_
    refine Spec.bind_orFail (closeDir_spec hL.toLawfulReaddir es hno) (fun _ _ hf => hf.elim) ?_
    intro _
    refine Spec.guard (fun hle s hs => ⟨Or.inr ⟨_, hm, hle⟩, hs⟩) fun hgt => ?_
    exact Spec.pure fun s hs => ⟨⟨hm, hgt⟩, hs⟩
  · intro _
    refine Spec.assume fun hnone => ?_
    refine Spec.bind_orFail (closeDir_spec hL.toLawfulReaddir es hno) (fun _ _ hf => hf.elim) ?_
    intro _
    exact Spec.throw fun s hs => ⟨Or.inl hnone, hs⟩

/-- `nfsk_lookup` finds the record `m`. With `out_stat` its result is what comes of reading the
attributes of that record. -/
def Finds (lib : Libdir σ) (d : UInt64) (name : List UInt8) (m : UInt64) (s : σ) : Prop :=
  ∃ s', nfskLookupImpl lib d name false s = (⟨0, some m, none⟩, s') ∧
    nfskLookupImpl lib d name true s =
      (⟨(recordStat lib m s').1.1, some m, (recordStat lib m s').1.2⟩, (recordStat lib m s').2)

theorem finds_iff {name : List UInt8} {m : UInt64} {s : σ} :
    Finds lib d name m s ↔ ∃ s', lookupRecord lib d name s = .ok m s' := by
  constructor
  · intro h
    obtain ⟨s', hplain, _⟩ := h
    unfold nfskLookupImpl at hplain
    cases hr : lookupRecord lib d name s with
    | error res s₁ => simp [hr] at hplain
    | ok m' s₁ =>
      simp only [hr, Bool.false_eq_true, if_false, Prod.mk.injEq, LookupRet.mk.injEq,
        Option.some.injEq, true_and, and_true] at hplain
      rw [hplain.1]
      exact ⟨s₁, rfl⟩
  · intro h
    obtain ⟨s', hr⟩ := h
    refine ⟨s', ?_, ?_⟩
    · simp [nfskLookupImpl, hr]
    · simp [nfskLookupImpl, hr]

/-- An entry whose name is not cut is found under it. -/
theorem finds_of_short (hL : LawfulLookup lib d index) (hn : Named lib es) (he : e ∈ es)
    (h : skipped e = false) {mbs : List UInt8} (hu : lib.ucstombs e.name = some mbs)
    (hlen : mbs.length ≤ 255) {s : σ} (hs : index s = some es) :
    Finds lib d mbs (MREF e.mref) s := by
  obtain ⟨hdos, _, hmref⟩ := not_skipped h
  have hback := (hn.inverse e he hdos mbs (hn.cString e he hdos mbs hu)).mp hu
  have honly : ∀ m, Resolves lib es mbs m → m = MREF e.mref := by
    intro m hm
    obtain ⟨u, e', hu', hi, rfl⟩ := hm
    rw [hback] at hu'
    cases hu'
    rw [(indexed_iff hn he h).mp hi]
  have hspec := lookupRecord_spec hL es hlen
  refine finds_iff.mpr ?_
  cases hr : lookupRecord lib d mbs s with
  | ok m s' =>
    obtain ⟨⟨hm, _⟩, _⟩ := hspec.ok hs hr
    rw [honly m hm]
    exact ⟨s', rfl⟩
  | error res s' =>
    obtain ⟨hnone | hlow, _⟩ := hspec.error hs hr
    · exact absurd ⟨e.name, e, hback, (indexed_iff hn he h).mpr rfl, rfl⟩ (hnone (MREF e.mref))
    · obtain ⟨m, hm, hle⟩ := hlow
      rw [honly m hm] at hle
      exact absurd hle hmref

end Directory

/-! ## What a call delivers -/

/-- The callback, keeping what it is given. -/
def recording (cb : NfskDirentCb κ) : NfskDirentCb (κ × List Pending) :=
  fun (k, got) mft name st next =>
    match cb k mft name st next with
    | (rc, k) => (rc, (k, got ++ [⟨mft, name, st⟩]))

def delivered (lib : Libdir σ) (d : UInt64) (cookie : Nat) (wantAttrs : Bool)
    (cb : NfskDirentCb κ) (k : κ) (s : σ) : List Pending :=
  (nfskReaddirImpl lib d cookie wantAttrs (recording cb) (s, (k, []))).2.2.2

def Continues (cb : NfskDirentCb κ) : Prop := ∀ k mft name st next, (cb k mft name st next).1 = 0

section Delivered

variable {lib : Libdir σ} {d : UInt64} {index : σ → Option (List IndexEntry)}
  {es : List IndexEntry} {cb : NfskDirentCb κ}

/-- What was delivered and what is pending. -/
def handed (c : RdCtx (κ × List Pending)) : List Pending := c.cbctx.2 ++ c.prev.toList

theorem deliverPrev_handed (cb : NfskDirentCb κ) (pos : Nat) (c : RdCtx (κ × List Pending)) :
    handed (deliverPrev (recording cb) pos c).2 = handed c ∧
      (deliverPrev (recording cb) pos c).2.prev = none ∧
      (deliverPrev (recording cb) pos c).2.stopped = c.stopped ∧
      (deliverPrev (recording cb) pos c).2.err = c.err ∧
      (Continues cb → (deliverPrev (recording cb) pos c).1 = 0) := by
  unfold deliverPrev
  cases hp : c.prev with
  | none => simp [hp]
  | some p =>
    refine ⟨?_, rfl, rfl, rfl, fun hcb => hcb _ _ _ _ _⟩
    simp [handed, hp, recording]

/-- What there is to deliver of an entry. -/
def reportable (lib : Libdir σ) (e : IndexEntry) : Option Listed :=
  if skipped e then none else report lib e

/-- The attributes are those of some entry for the record. -/
def Stated (lib : Libdir σ) (p : Pending) : Prop :=
  ∃ e w s, p.mft = MREF e.mref ∧ p.st = (entryStat lib w e s).1

/-- One entry. Nothing is delivered but what was pending, and nothing is pending but this entry. -/
theorem filldir_handed (lib : Libdir σ) (cb : NfskDirentCb κ) (e : IndexEntry) (s : σ)
    {c : RdCtx (κ × List Pending)} (hgo : c.stopped = false) :
    let r := nfskRdFilldir lib (recording cb) e (s, c)
    ((handed r.2.2).map Pending.listed).Sublist
        ((handed c).map Pending.listed ++ (reportable lib e).toList) ∧
      (∀ p ∈ handed r.2.2, p ∈ handed c ∨ Stated lib p) ∧
      (r.1 = 0 → r.2.2.stopped = false) ∧
      (Continues cb → r.1 = 0 ∧ r.2.2.err = c.err ∧ (handed r.2.2).map Pending.listed =
        (handed c).map Pending.listed ++ (reportable lib e).toList) := by
  by_cases h : skipped e = true
  · rw [filldir_skip hgo h]
    simp +contextual [reportable, h, hgo]
  · rw [filldir_taken hgo h]
    obtain ⟨hhanded, hprev, hstop, herr, hcb⟩ := deliverPrev_handed cb e.pos c
    generalize deliverPrev (recording cb) e.pos c = r at hhanded hprev hstop herr hcb ⊢
    obtain ⟨rc, c'⟩ := r
    simp only at hhanded hprev hstop herr hcb ⊢
    -- what stays as it was delivers no more
    have hsame : ∀ c'' : RdCtx (κ × List Pending), handed c'' = handed c' →
        ((handed c'').map Pending.listed).Sublist
            ((handed c).map Pending.listed ++ (reportable lib e).toList) ∧
          ∀ p ∈ handed c'', p ∈ handed c ∨ Stated lib p := by
      intro c'' hc''
      rw [hc'', hhanded]
      exact ⟨List.sublist_append_left _ _, fun p hp => .inl hp⟩
    by_cases hpos : 0 < rc
    · -- the callback is full
      simp only [hpos, if_true]
      refine ⟨(hsame _ rfl).1, (hsame _ rfl).2, by simp, fun hc => ?_⟩
      have hzero := hcb hc
      omega
    · by_cases hneg : rc < 0
      · simp only [hpos, hneg, if_true, if_false]
        refine ⟨(hsame _ rfl).1, (hsame _ rfl).2, by simp, fun hc => ?_⟩
        have hzero := hcb hc
        omega
      · simp only [hpos, hneg, if_false]
        cases hu : lib.ucstombs e.name with
        | none =>
          have hnone : reportable lib e = none := by simp [reportable, h, report, hu]
          refine ⟨(hsame _ rfl).1, (hsame _ rfl).2, fun _ => hstop.trans hgo, fun _ => ?_⟩
          simp [hnone, hhanded, herr]
        | some mbs =>
          have hsome : reportable lib e = some (MREF e.mref, cName mbs) := by
            simp [reportable, h, report, hu]
          have hgot : c'.cbctx.2 = handed c := by
            rw [← hhanded]
            simp [handed, hprev]
          refine ⟨?_, ?_, fun _ => hstop.trans hgo, fun _ => ?_⟩
          · simp [hsome, handed, hgot, Pending.listed]
          · intro p hp
            simp only [handed, hgot, Option.toList_some, List.mem_append, List.mem_singleton] at hp
            rcases hp with hp | rfl
            · exact .inl (List.mem_append.mpr hp)
            · exact .inr ⟨e, _, s, rfl, rfl⟩
          · simp [hsome, handed, hgot, Pending.listed, herr]

theorem visitIndex_handed (lib : Libdir σ) (cb : NfskDirentCb κ) (es : List IndexEntry) :
    ∀ (s : σ) (c : RdCtx (κ × List Pending)), c.stopped = false →
      let r := visitIndex (nfskRdFilldir lib (recording cb)) es (s, c)
      ((handed r.2.2).map Pending.listed).Sublist
          ((handed c).map Pending.listed ++ es.filterMap (reportable lib)) ∧
        (∀ p ∈ handed r.2.2, p ∈ handed c ∨ Stated lib p) ∧
        (Continues cb → r.1 = none ∧ r.2.2.stopped = false ∧ r.2.2.err = c.err ∧
          (handed r.2.2).map Pending.listed =
            (handed c).map Pending.listed ++ es.filterMap (reportable lib)) := by
  induction es with
  | nil =>
    intro s c hgo
    simp +contextual [visitIndex, hgo]
  | cons e es ih =>
    intro s c hgo
    obtain ⟨hsub, hstated, hstop, hall⟩ := filldir_handed lib cb e s hgo
    have hlist : (e :: es).filterMap (reportable lib) =
        (reportable lib e).toList ++ es.filterMap (reportable lib) := by
      cases hr : reportable lib e with
      | none => simp [hr]
      | some l => simp [hr]
    simp only [visitIndex]
    generalize nfskRdFilldir lib (recording cb) e (s, c) = r at hsub hstated hstop hall ⊢
    obtain ⟨rc, s', c'⟩ := r
    simp only at hsub hstated hstop hall ⊢
    rw [hlist, ← List.append_assoc]
    by_cases hz : rc = 0
    · simp only [hz, if_true]
      obtain ⟨hsub', hstated', hall'⟩ := ih s' c' (hstop hz)
      refine ⟨hsub'.trans (List.Sublist.append hsub (List.Sublist.refl _)), ?_, fun hc => ?_⟩
      · intro p hp
        rcases hstated' p hp with hp' | hp'
        · exact hstated p hp'
        · exact .inr hp'
      · obtain ⟨hnone, hgo', herr', heq'⟩ := hall' hc
        obtain ⟨_, herr, heq⟩ := hall hc
        exact ⟨hnone, hgo', herr'.trans herr, by rw [heq', heq]⟩
    · simp only [hz, if_false]
      exact ⟨hsub.trans (List.sublist_append_left _ _), hstated, fun hc => absurd (hall hc).1 hz⟩

/-- The last entry is delivered or dropped. -/
theorem flushLast_handed (cb : NfskDirentCb κ) (pos : Nat) (res : Int)
    (c : RdCtx (κ × List Pending)) :
    (flushLast (recording cb) pos res c).2.cbctx.2.Sublist (handed c) ∧
      (res = 0 → c.stopped = false →
        (flushLast (recording cb) pos res c).2.cbctx.2 = handed c) := by
  have hpart : ∀ c' : RdCtx (κ × List Pending), c'.cbctx.2.Sublist (handed c') :=
    fun c' => List.sublist_append_left _ _
  unfold flushLast
  by_cases h : res = 0 ∧ ¬ c.stopped = true
  · obtain ⟨hhanded, hprev, _⟩ := deliverPrev_handed cb pos c
    rw [if_pos h]
    generalize deliverPrev (recording cb) pos c = r at hhanded hprev ⊢
    obtain ⟨prc, c'⟩ := r
    simp only at hhanded hprev ⊢
    rw [← hhanded]
    exact ⟨hpart c', fun _ _ => by simp [handed, hprev]⟩
  · rw [if_neg h]
    exact ⟨hpart c, fun hres hgo => absurd ⟨hres, by simp [hgo]⟩ h⟩

/-- A call delivers some of the entries, and all of them from its cookie on to a callback that always
continues. -/
theorem delivered_reported (hL : LawfulReaddir lib d index) {s : σ} (hes : index s = some es)
    (cb : NfskDirentCb κ) (k : κ) (cookie : Nat) (wantAttrs : Bool) :
    ((delivered lib d cookie wantAttrs cb k s).map Pending.listed).Sublist
        (es.filterMap (reportable lib)) ∧
      (∀ p ∈ delivered lib d cookie wantAttrs cb k s, Stated lib p) ∧
      (Continues cb → (delivered lib d cookie wantAttrs cb k s).map Pending.listed =
        (above es IndexEntry.pos cookie).filterMap (reportable lib)) := by
  obtain ⟨ni, s₁, hopen, hno, hdir, hs₁⟩ := hL.opened hes
  obtain ⟨ret, hrun, hret⟩ := hL.readdir ni cookie (nfskRdFilldir lib (recording cb))
    (s₁, ⟨(k, []), wantAttrs, false, 0, none⟩) es hno hs₁ (filldir_index hL _)
  obtain ⟨hsub, hstated, hall⟩ := visitIndex_handed lib cb (above es IndexEntry.pos cookie) s₁
    ⟨(k, []), wantAttrs, false, 0, none⟩ rfl
  generalize visitIndex (nfskRdFilldir lib (recording cb)) (above es IndexEntry.pos cookie)
    (s₁, ⟨(k, []), wantAttrs, false, 0, none⟩) = r at hrun hret hsub hstated hall
  obtain ⟨stop, s₂, c⟩ := r
  simp only at hrun hret hsub hstated hall
  have hwalk : delivered lib d cookie wantAttrs cb k s =
      (flushLast (recording cb) ret.pos (walkResult ret c) c).2.cbctx.2 := by
    obtain ⟨s₃, hclose, _⟩ := hL.closed s₂ hno
    simp only [delivered, nfskReaddirImpl, hopen, hdir, Bool.true_eq_false, if_false, hrun]
    generalize flushLast (recording cb) ret.pos (walkResult ret c) c = q
    obtain ⟨res, c'⟩ := q
    simp only [hclose]
  obtain ⟨hflush, hlast⟩ := flushLast_handed cb ret.pos (walkResult ret c) c
  rw [hwalk]
  refine ⟨?_, ?_, ?_⟩
  · have hfrom : ((above es IndexEntry.pos cookie).filterMap (reportable lib)).Sublist
        (es.filterMap (reportable lib)) := List.Sublist.filterMap _ List.filter_sublist
    exact (hflush.map _).trans (hsub.trans hfrom)
  · intro p hp
    rcases hstated p (hflush.subset hp) with hnone | hp'
    · cases hnone
    · exact hp'
  · intro hc
    obtain ⟨hnone, hgo, herr, heq⟩ := hall hc
    rw [hnone] at hret
    rw [hlast (walkResult_zero herr fun _ => hret.1) hgo, heq]
    rfl

end Delivered

/-! ## Listing and lookup -/

/-- Every entry is found by its name, and no two have the same. -/
structure Agree (lib : Libdir σ) (d : UInt64) (s : σ) (ls : List Listed) : Prop where
  found : ∀ l ∈ ls, Finds lib d l.2 l.1 s
  distinct : (ls.map Prod.snd).Nodup

/-- Whoever lists the directory, in one call from any cookie or page by page, while it stays as it
is. -/
structure ListingAgrees (lib : Libdir σ) (d : UInt64) (index : σ → Option (List IndexEntry)) (s : σ) :
    Prop where
  call : ∀ {κ : Type} (cb : NfskDirentCb κ) (k : κ) (cookie : Nat) (wantAttrs : Bool) (s' : σ),
    index s' = index s →
      Agree lib d s' ((delivered lib d cookie wantAttrs cb k s).map Pending.listed)
  pages : ∀ (wantAttrs : Bool) (limit : Nat → Nat) (s' : σ), index s' = index s →
    ∃ fuel ls, enumerate (readdirPage lib d wantAttrs) limit fuel 0 0 s = some ls ∧ Agree lib d s' ls

section Agreement

variable {lib : Libdir σ} {d : UInt64} {index : σ → Option (List IndexEntry)}
  {es : List IndexEntry}

theorem reportable_iff {e : IndexEntry} {l : Listed} : reportable lib e = some l ↔
    skipped e = false ∧ ∃ mbs, lib.ucstombs e.name = some mbs ∧ l = (MREF e.mref, cName mbs) := by
  unfold reportable report
  by_cases h : skipped e = true
  · simp [h]
  · cases hu : lib.ucstombs e.name with
    | none => simp
    | some mbs => simp [h, eq_comm]

/-- With short names, what is listed is found, and the names are those of the entries. -/
theorem agree_of_short (hL : LawfulLookup lib d index) (hn : Named lib es)
    (hshort : ShortNames lib es) {s : σ} (hs : index s = some es) :
    Agree lib d s (es.filterMap (reportable lib)) := by
  have hwhole : ∀ e ∈ es, ∀ l, reportable lib e = some l →
      skipped e = false ∧ lib.ucstombs e.name = some l.2 ∧ l.1 = MREF e.mref := by
    intro e he l hl
    obtain ⟨h, mbs, hu, rfl⟩ := reportable_iff.mp hl
    have hz := hn.cString e he (not_skipped h).1 mbs hu
    rw [cName_of_le (hshort e he h mbs hu) hz]
    exact ⟨h, hu, rfl⟩
  constructor
  · intro l hl
    obtain ⟨e, he, hle⟩ := List.mem_filterMap.mp hl
    obtain ⟨h, hu, hm⟩ := hwhole e he l hle
    rw [hm]
    exact finds_of_short hL hn he h hu (hshort e he h _ hu) hs
  · rw [List.Nodup, List.pairwise_map, List.pairwise_filterMap]
    have hdistinct := hn.distinct
    rw [List.Nodup, List.pairwise_map, List.pairwise_filter] at hdistinct
    refine hdistinct.imp_of_mem fun {e e'} he he' hne l hl l' hl' heq => ?_
    obtain ⟨h, hu, _⟩ := hwhole e he l hl
    obtain ⟨h', hu', _⟩ := hwhole e' he' l' hl'
    have hdos := (not_skipped h).1
    have hdos' := (not_skipped h').1
    -- the same bytes convert back to the same units
    have hback := (hn.inverse e he hdos _ (hn.cString e he hdos _ hu)).mp hu
    have hback' := (hn.inverse e' he' hdos' _ (hn.cString e' he' hdos' _ hu')).mp hu'
    rw [heq, hback'] at hback
    exact hne (decide_eq_true hdos) (decide_eq_true hdos') (Except.ok.inj hback).symm

/-- A name that is cut stands for no entry, or for one that is listed under the same name. -/
theorem short_of_agree (hL : LawfulLookup lib d index) (hn : Named lib es) {s : σ}
    (hs : index s = some es) (ha : Agree lib d s (es.filterMap (reportable lib))) :
    ShortNames lib es := by
  intro e he h mbs hu
  by_contra hlong
  have hdos := (not_skipped h).1
  have hz := hn.cString e he hdos mbs hu
  have hcut : (mbs.take 255).length = 255 := by
    rw [List.length_take]
    omega
  have hl : reportable lib e = some (MREF e.mref, mbs.take 255) := by
    rw [reportable_iff, ← cName_of_gt hz]
    exact ⟨h, mbs, hu, rfl⟩
  obtain ⟨s', hfound⟩ := finds_iff.mp (ha.found _ (List.mem_filterMap.mpr ⟨e, he, hl⟩))
  obtain ⟨⟨⟨u, e', hu', hi, hm⟩, hgt⟩, _⟩ :=
    (lookupRecord_spec hL es (Nat.le_of_eq hcut)).ok hs hfound
  obtain ⟨hmem, hdots, rfl, _⟩ := hi
  have hdos' : e'.nameType ≠ .dos := by
    intro hd
    have hlt := hn.aliases e' hmem hd _ hu'
    omega
  have hz' : 0 ∉ mbs.take 255 := fun hzero => hz (List.mem_of_mem_take hzero)
  have hconv := (hn.inverse e' hmem hdos' _ hz').mpr hu'
  have hl' : reportable lib e' = some (MREF e'.mref, mbs.take 255) := by
    refine reportable_iff.mpr ⟨?_, _, hconv, ?_⟩
    · have hnot : ¬ MREF e'.mref ≤ 1 := by rwa [hm]
      simp [skipped, hdos', hdots, hnot]
    · rw [cName_of_le (Nat.le_of_eq hcut) hz']
  have hne : e ≠ e' := by
    rintro rfl
    rw [hu] at hconv
    have hlen := congrArg List.length (Option.some.inj hconv)
    omega
  -- so two entries are listed under one name
  have hdistinct := ha.distinct
  rw [List.Nodup, List.pairwise_map, List.pairwise_filterMap] at hdistinct
  have hsymm : Std.Symm fun a b : IndexEntry =>
      ∀ l, reportable lib a = some l → ∀ l', reportable lib b = some l' → l.2 ≠ l'.2 :=
    ⟨fun _ _ hab l hl l' hl' => (hab l' hl' l hl).symm⟩
  exact hdistinct.forall he hmem hne _ hl _ hl' rfl

theorem agree_of_listing (hL : LawfulReaddir lib d index) {s : σ} (hs : index s = some es)
    (h : ListingAgrees lib d index s) : Agree lib d s (es.filterMap (reportable lib)) := by
  have hcb : Continues fun (_ : Unit) _ _ _ _ => ((0 : Int), ()) := fun _ _ _ _ _ => rfl
  have ha := h.call (fun _ _ _ _ _ => (0, ())) () 0 false s rfl
  rwa [(delivered_reported hL hs _ () 0 false).2.2 hcb, above_zero] at ha

end Agreement

/-- What a directory lists can be looked up, and goes by different names, exactly if none of the
names it lists has more than 255 bytes. -/
theorem nfskReaddir_lookup_iff {lib : Libdir σ} {d : UInt64}
    {index : σ → Option (List IndexEntry)} (hL : LawfulLookup lib d index) {s : σ}
    {es : List IndexEntry} (hes : index s = some es) (hn : Named lib es) :
    ListingAgrees lib d index s ↔ ShortNames lib es := by
  constructor
  · intro h
    exact short_of_agree hL hn hes (agree_of_listing hL.toLawfulReaddir hes h)
  · intro hshort
    constructor
    · intro κ cb k cookie wantAttrs s' hs'
      have ha := agree_of_short hL hn hshort (hs'.trans hes)
      have hsub := (delivered_reported hL.toLawfulReaddir hes cb k cookie wantAttrs).1
      exact ⟨fun l hl => ha.found l (hsub.subset hl), ha.distinct.sublist (hsub.map _)⟩
    · intro wantAttrs limit s' hs'
      obtain ⟨fuel, hf⟩ := nfskReaddir_exact hL.toLawfulReaddir wantAttrs limit hes
      exact ⟨fuel, _, hf, agree_of_short hL hn hshort (hs'.trans hes)⟩

/-! ## Names of more than 255 bytes -/

/-- `refLibdir` with names in UTF-8, and lookup in the index. -/
def utf8Libdir (entries : List IndexEntry) : Libdir RefState :=
  { refLibdir entries with
    mbstoucs := utf8Mbstoucs
    ucstombs := utf8Ucstombs
    inodeLookupByName := fun _ u s =>
      let named := entries.filter fun e => ¬ IsDots e.name ∧ e.name = u
      match named.find? fun e => e.nameType ≠ .dos with
      | some e => .ok e.mref s
      | none =>
        match named with
        | e :: _ => .ok e.mref s
        | [] => .error ⟨ENOENT, ENOENT_pos⟩ s }

theorem utf8Libdir_lawful {entries : List IndexEntry} (h : Increasing IndexEntry.pos entries) :
    LawfulLookup (utf8Libdir entries) 5 (refIndex entries) := by
  obtain ⟨hincreasing, hopenDir, hcloseDir, hopen, hclose, hstat, hreaddir⟩ := refLibdir_lawful h
  refine ⟨⟨hincreasing, hopenDir, hcloseDir, hopen, hclose, hstat, hreaddir⟩, ?_⟩
  intro ni es u _ s hs
  obtain rfl : es = entries := by
    unfold refIndex at hs
    split at hs
    · exact (Option.some.inj hs).symm
    · cases hs
  have hmem : ∀ {e}, e ∈ es.filter (fun e => ¬ IsDots e.name ∧ e.name = u) ↔
      e ∈ es ∧ ¬ IsDots e.name ∧ e.name = u := by simp
  simp only [utf8Libdir]
  cases hf : (es.filter fun e => ¬ IsDots e.name ∧ e.name = u).find? fun e => e.nameType ≠ .dos with
  | some e =>
    obtain ⟨he, hdots, hname⟩ := hmem.mp (List.mem_of_find?_eq_some hf)
    have hdos : e.nameType ≠ .dos := by simpa using List.find?_some hf
    exact ⟨⟨e, ⟨he, hdots, hname, fun hd => absurd hd hdos⟩, rfl⟩, hs⟩
  | none =>
    rw [List.find?_eq_none] at hf
    cases hl : es.filter fun e => ¬ IsDots e.name ∧ e.name = u with
    | cons e rest =>
      obtain ⟨he, hdots, hname⟩ := hmem.mp (by rw [hl]; exact List.mem_cons_self)
      refine ⟨⟨e, ⟨he, hdots, hname, fun _ e' he' hname' => ?_⟩, rfl⟩, hs⟩
      rw [← hname] at hname'
      have hall := hf e' (hmem.mpr ⟨he', by rwa [hname'], by rw [hname', hname]⟩)
      simpa using hall
    | nil =>
      refine ⟨fun e hi => ?_, hs⟩
      have hin := hmem.mpr ⟨hi.mem, hi.notDots, hi.name⟩
      rw [hl] at hin
      cases hin

/-- 85 characters of three bytes each, and more. -/
def wide (more : List UInt16) : List UInt16 := List.replicate 85 0x4E2D ++ more

/-- A file whose name has 255 bytes, with its 8.3 alias. -/
def fullEntries : List IndexEntry :=
  [⟨wide [], .win32, 0, 20, .reg⟩, ⟨[0x61, 0x7E], .dos, 1, 20, .reg⟩]

/-- Two files with names of 86 units and 256 bytes, different in the last. -/
def cutEntries : List IndexEntry :=
  [⟨wide [0x61], .posix, 0, 20, .reg⟩, ⟨wide [0x62], .posix, 1, 21, .reg⟩]

/-- What is to be checked of the names of a directory; the rest holds of UTF-8. -/
theorem utf8_named {entries : List IndexEntry}
    (hdistinct : ((entries.filter fun e => e.nameType ≠ .dos).map IndexEntry.name).Nodup)
    (hnames : ∀ e ∈ entries, e.nameType ≠ .dos → 1 ≤ e.name.length ∧ e.name.length ≤ 255 ∧
      ∃ mbs, utf8Ucstombs e.name = some mbs ∧ 0 ∉ mbs)
    (haliases : ∀ e ∈ entries, e.nameType = .dos →
      ∃ mbs, utf8Ucstombs e.name = some mbs ∧ mbs.length < 255) :
    Named (utf8Libdir entries) entries where
  distinct := hdistinct
  units := fun e he hdos => ⟨(hnames e he hdos).1, (hnames e he hdos).2.1⟩
  converts := by
    intro e he hdos
    obtain ⟨_, _, mbs, hu, _⟩ := hnames e he hdos
    exact ⟨mbs, hu⟩
  cString := by
    intro e he hdos mbs hu
    obtain ⟨_, _, mbs', hu', hz⟩ := hnames e he hdos
    have hsame : some mbs' = some mbs := hu'.symm.trans hu
    rwa [← Option.some.inj hsame]
  inverse := fun e _ _ mbs _ => utf8_inverse e.name mbs
  aliases := by
    intro e he hdos mbs hback
    obtain ⟨mbs', hu', hlen⟩ := haliases e he hdos
    have hsame : some mbs' = some mbs := hu'.symm.trans ((utf8_inverse e.name mbs).mpr hback)
    rwa [← Option.some.inj hsame]

/-- The bytes of the 85 characters. -/
def wideBytes : List UInt8 := (List.replicate 85 [0xE4, 0xB8, 0xAD]).flatten

theorem wideBytes_length : wideBytes.length = 255 := by
  rw [wideBytes, List.length_flatten, List.map_replicate]
  rfl

theorem zero_not_mem_wideBytes : 0 ∉ wideBytes := by
  unfold wideBytes
  rw [List.mem_flatten]
  rintro ⟨l, hl, hzero⟩
  rw [(List.mem_replicate.mp hl).2] at hzero
  simp at hzero

theorem wide_converts {more : List UInt16} {mbs : List UInt8}
    (h : utf8Ucstombs more = some mbs) :
    utf8Ucstombs (wide more) = some (wideBytes ++ mbs) := by
  suffices hn : ∀ n, utf8Ucstombs (List.replicate n 0x4E2D ++ more) =
      some ((List.replicate n [0xE4, 0xB8, 0xAD]).flatten ++ mbs) from hn 85
  intro n
  induction n with
  | zero => simpa using h
  | succ n ih =>
    rw [List.replicate_succ, List.cons_append, utf8Ucstombs_cons (by decide), ih]
    rfl

theorem wide_named {more : List UInt16} {mbs : List UInt8} (h : utf8Ucstombs more = some mbs)
    (hz : 0 ∉ mbs) (hlen : more.length ≤ 170) :
    1 ≤ (wide more).length ∧ (wide more).length ≤ 255 ∧
      ∃ mbs, utf8Ucstombs (wide more) = some mbs ∧ 0 ∉ mbs := by
  refine ⟨?_, ?_, _, wide_converts h, ?_⟩
  · simp [wide]
  · simp only [wide, List.length_append, List.length_replicate]
    omega
  · simp [zero_not_mem_wideBytes, hz]

theorem full_increasing : Increasing IndexEntry.pos fullEntries := by
  simp [Increasing, fullEntries]

theorem cut_increasing : Increasing IndexEntry.pos cutEntries := by
  simp [Increasing, cutEntries]

theorem full_named : Named (utf8Libdir fullEntries) fullEntries := by
  refine utf8_named (by simp [fullEntries]) ?_ ?_
  · intro e he hdos
    simp only [fullEntries, List.mem_cons, List.not_mem_nil, or_false] at he
    obtain rfl | rfl := he
    · exact wide_named (by rfl) (by simp) (by simp)
    · exact absurd rfl hdos
  · intro e he hdos
    simp only [fullEntries, List.mem_cons, List.not_mem_nil, or_false] at he
    obtain rfl | rfl := he
    · cases hdos
    · exact ⟨[0x61, 0x7E], by decide, by decide⟩

theorem cut_named : Named (utf8Libdir cutEntries) cutEntries := by
  refine utf8_named ?_ ?_ ?_
  · simp [cutEntries, wide]
  · intro e he _
    simp only [cutEntries, List.mem_cons, List.not_mem_nil, or_false] at he
    obtain rfl | rfl := he
    · exact wide_named ascii_converts.1 (by simp) (by simp)
    · exact wide_named ascii_converts.2 (by simp) (by simp)
  · intro e he hdos
    simp only [cutEntries, List.mem_cons, List.not_mem_nil, or_false] at he
    obtain rfl | rfl := he
    · cases hdos
    · cases hdos

/-- A name of exactly 255 bytes is listed whole. -/
theorem nfskReaddir_lookup_full :
    ListingAgrees (utf8Libdir fullEntries) 5 (refIndex fullEntries) twoFiles := by
  refine (nfskReaddir_lookup_iff (utf8Libdir_lawful full_increasing) rfl full_named).mpr ?_
  intro e he h mbs hu
  simp only [fullEntries, List.mem_cons, List.not_mem_nil, or_false] at he
  obtain rfl | rfl := he
  · have hwide : utf8Ucstombs (wide []) = some (wideBytes ++ []) := wide_converts rfl
    have hsame := hwide.symm.trans hu
    rw [← Option.some.inj hsame, List.append_nil, wideBytes_length]
  · simp [skipped] at h

/-- Both names are cut to the same 255 bytes, under which there is nothing. -/
theorem cut_disagrees :
    LawfulLookup (utf8Libdir cutEntries) 5 (refIndex cutEntries) ∧
      refIndex cutEntries twoFiles = some cutEntries ∧
      Named (utf8Libdir cutEntries) cutEntries ∧
      ¬ ListingAgrees (utf8Libdir cutEntries) 5 (refIndex cutEntries) twoFiles := by
  have hL := utf8Libdir_lawful cut_increasing
  refine ⟨hL, rfl, cut_named, fun h => ?_⟩
  have hshort := short_of_agree hL cut_named rfl (agree_of_listing hL.toLawfulReaddir rfl h)
  have hlong := hshort _ List.mem_cons_self rfl _ (wide_converts ascii_converts.1)
  rw [List.length_append, wideBytes_length] at hlong
  exact absurd hlong (by decide)

end Ntfs
end Usbrw
