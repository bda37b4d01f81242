import Usbrw.Stat
import Usbrw.Base.Lookahead
import Usbrw.Ntfs.Link
import Usbrw.Ntfs.Reference

/-!
# Ntfs.Readdir

`nfsk_readdir_impl`, which hands the entries of a directory's index to a callback one entry late, so
that each comes with the position of the next one as its cookie.

* `nfskRdFilldir`, `nfskReaddirImpl` — the code.
* `skipped`, `report` — 8.3 aliases, `.`, `..` and metadata; the name and record of any other entry.
* `nfskReaddir_exact`     — page by page every entry there is to report is delivered exactly once, in
  order, and every call returns 0.

Positions are `s64` and never negative, and they are `Nat` here.
-/

namespace Usbrw
namespace Ntfs

open Call Paging

variable {σ κ : Type}

inductive FileNameType where
  | posix
  | win32
  | dos
  | win32AndDos
  deriving DecidableEq

/-- `NTFS_DT_*`. -/
inductive NtfsDt where
  | fifo
  | chr
  | dir
  | blk
  | reg
  | lnk
  | sock
  | reparse
  | unknown
  deriving DecidableEq

def nfskDtMode : NtfsDt → UInt32
  | .dir => S_IFDIR ||| 0o777
  | .lnk => S_IFLNK ||| 0o777
  | .fifo => S_IFIFO
  | .sock => S_IFSOCK
  | .blk => S_IFBLK ||| 0o666
  | .chr => S_IFCHR ||| 0o666
  | .reparse => S_IFLNK ||| 0o777
  | _ => S_IFREG ||| 0o777

/-- What `ntfs_readdir` hands to its `filldir` of an index entry. -/
structure IndexEntry where
  name : List UInt16
  nameType : FileNameType
  pos : Nat
  mref : UInt64
  dtType : NtfsDt

/-- `ntfs_filldir_t`; `κ` is its private data. -/
abbrev Filldir (σ κ : Type) : Type := IndexEntry → σ × κ → Int × (σ × κ)

/-- The return code of `ntfs_readdir`, `errno` after it, `*pos` after it. -/
structure ReaddirRet where
  rc : Int
  errno : Int
  pos : Nat

/-- The calls that `nfsk_readdir_impl` makes besides. `fillStat` is `fill_stat`: its result and what
it leaves in `*out`. -/
structure Libdir (σ : Type) : Type 1 extends Libntfs σ where
  ucstombs : List UInt16 → Option (List UInt8)
  readdir : {κ : Type} → NtfsInode → Nat → Filldir σ κ → σ × κ → ReaddirRet × (σ × κ)
  fillStat : NtfsInode → σ → (Int × NfskStat) × σ

/-- `nfsk_dirent_cb`: context, record, name, attributes, cookie of the next entry. -/
abbrev NfskDirentCb (κ : Type) : Type := κ → UInt64 → List UInt8 → NfskStat → Nat → Int × κ

/-- An entry that is still to be delivered. -/
structure Pending where
  mft : UInt64
  name : List UInt8
  st : NfskStat

structure RdCtx (κ : Type) where
  cbctx : κ
  wantAttrs : Bool
  stopped : Bool
  err : Int
  prev : Option Pending

def IsDots (name : List UInt16) : Prop := name = [0x2E] ∨ name = [0x2E, 0x2E]

instance (name : List UInt16) : Decidable (IsDots name) := by
  unfold IsDots
  infer_instance

/-- A converted name as the callback reads it: cut after 255 bytes, and at its first zero byte. -/
def cName (mbs : List UInt8) : List UInt8 := (mbs.take 255).takeWhile (· ≠ 0)

/-- The attributes of an entry: from its inode if they are wanted and can be had, else only what the
index says. -/
def entryStat (lib : Libdir σ) (wantAttrs : Bool) (e : IndexEntry) (s : σ) : NfskStat × σ :=
  let light := { NfskStat.zero with mft := MREF e.mref, mode := nfskDtMode e.dtType }
  if wantAttrs then
    match lib.inodeOpen (MREF e.mref) s with
    | .error _ s => (light, s)
    | .ok ni s =>
      match lib.fillStat ni s with
      | ((res, st), s) =>
        match lib.inodeClose ni s with
        | .error _ s => (light, s)
        | .ok () s => (if res = 0 then { st with mft := MREF e.mref } else st, s)
  else (light, s)

/-- Deliver the pending entry, if there is one, with the cookie `pos`. -/
def deliverPrev (cb : NfskDirentCb κ) (pos : Nat) (c : RdCtx κ) : Int × RdCtx κ :=
  match c.prev with
  | none => (0, c)
  | some p =>
    match cb c.cbctx p.mft p.name p.st pos with
    | (rc, ctx) => (rc, { c with cbctx := ctx, prev := none })

def nfskRdFilldir (lib : Libdir σ) (cb : NfskDirentCb κ) : Filldir σ (RdCtx κ) := fun e (s, c) =>
  if c.stopped then (1, (s, c))
  else if e.nameType = .dos then (0, (s, c))
  else if IsDots e.name then (0, (s, c))
  else if MREF e.mref ≤ 1 then (0, (s, c))
  else
    match deliverPrev cb e.pos c with
    | (rc, c) =>
      if 0 < rc then (1, (s, { c with stopped := true }))
      else if rc < 0 then (-1, (s, { c with err := rc }))
      else
        match lib.ucstombs e.name with
        | none => (0, (s, c))
        | some mbs =>
          match entryStat lib c.wantAttrs e s with
          | (st, s) => (0, (s, { c with prev := some ⟨MREF e.mref, cName mbs, st⟩ }))

/-- The result of the walk over the index. -/
def walkResult (ret : ReaddirRet) (c : RdCtx κ) : Int :=
  if ret.rc ≠ 0 ∧ ¬ c.stopped then
    if c.err ≠ 0 then c.err else if ret.errno ≠ 0 then - ret.errno else (- EIO)
  else if c.err ≠ 0 then c.err
  else 0

/-- Deliver the last entry, unless the walk failed or was stopped. That the packer is full now is no
error. -/
def flushLast (cb : NfskDirentCb κ) (pos : Nat) (res : Int) (c : RdCtx κ) : Int × RdCtx κ :=
  if res = 0 ∧ ¬ c.stopped then
    match deliverPrev cb pos c with
    | (prc, c) => (if prc < 0 then prc else res, c)
  else (res, c)

/-- The result with `*io_cookie` after the call. -/
def nfskReaddirImpl (lib : Libdir σ) (dirMft : UInt64) (cookie : Nat) (wantAttrs : Bool)
    (cb : NfskDirentCb κ) : σ × κ → (Int × Nat) × (σ × κ) := fun (s, k) =>
  match lib.inodeOpen dirMft s with
  | .error e s => ((negErrno e, cookie), (s, k))
  | .ok dirNi s =>
    if dirNi.isDirectory = false then ((-ENOTDIR, cookie), (final (lib.inodeClose dirNi s), k))
    else
      match lib.readdir dirNi cookie (nfskRdFilldir lib cb)
          (s, { cbctx := k, wantAttrs := wantAttrs, stopped := false, err := 0, prev := none }) with
      | (ret, (s, c)) =>
        match flushLast cb ret.pos (walkResult ret c) c with
        | (res, c) =>
          match lib.inodeClose dirNi s with
          | .ok () s => ((res, ret.pos), (s, c.cbctx))
          | .error e s => ((if res = 0 then negErrno e else res, ret.pos), (s, c.cbctx))

/-! ## What is to be reported -/

def skipped (e : IndexEntry) : Bool := e.nameType = .dos ∨ IsDots e.name ∨ MREF e.mref ≤ 1

/-- What a client keeps of an entry: its record and its name. -/
abbrev Listed : Type := UInt64 × List UInt8

def report (lib : Libdir σ) (e : IndexEntry) : Option Listed :=
  (lib.ucstombs e.name).map fun mbs => (MREF e.mref, cName mbs)

/-- Take entries until there are `n`, then report the packer full. -/
def pack (n : Nat) : NfskDirentCb (List (Listed × Nat)) := fun got mft name _ next =>
  if got.length < n then (0, got ++ [((mft, name), next)]) else (1, got)

/-- A call of a client that takes `n` entries; `none` unless it returns 0. -/
def readdirPage (lib : Libdir σ) (dirMft : UInt64) (wantAttrs : Bool) (n cookie : Nat) (s : σ) :
    Option (List (Listed × Nat) × σ) :=
  match nfskReaddirImpl lib dirMft cookie wantAttrs (pack n) (s, []) with
  | ((res, _), (s, got)) => if res = 0 then some (got, s) else none

/-- Visit entries until `filldir` returns something else than 0, and say where that was. -/
def visitIndex (filldir : Filldir σ κ) : List IndexEntry → σ × κ → Option Nat × (σ × κ)
  | [], st => (none, st)
  | e :: es, st =>
    match filldir e st with
    | (rc, st) => if rc = 0 then visitIndex filldir es st else (some e.pos, st)

/-- While `d` is a directory, which `index` says, it can be opened and closed, and `ntfs_readdir` visits
its entries, those at its starting position and above. They are at increasing positions. -/
structure LawfulReaddir (lib : Libdir σ) (d : UInt64) (index : σ → Option (List IndexEntry)) :
    Prop where
  increasing : ∀ s es, index s = some es → Increasing IndexEntry.pos es
  openDir : ∀ s es, index s = some es →
    ∃ ni s', lib.inodeOpen d s = .ok ni s' ∧ ni.mftNo = d ∧ ni.isDirectory = true
  closeDir : ∀ ni s, ni.mftNo = d → ∃ s', lib.inodeClose ni s = .ok () s'
  inodeOpen : ∀ r s, index (final (lib.inodeOpen r s)) = index s
  inodeClose : ∀ ni s, index (final (lib.inodeClose ni s)) = index s
  fillStat : ∀ ni s, index (lib.fillStat ni s).2 = index s
  /-- For a `filldir` that leaves the index alone. -/
  readdir : ∀ {κ : Type} (ni : NtfsInode) (cookie : Nat) (filldir : Filldir σ κ) (st : σ × κ) es,
    ni.mftNo = d → index st.1 = some es → (∀ e st, index (filldir e st).2.1 = index st.1) →
    ∃ ret, lib.readdir ni cookie filldir st =
        (ret, (visitIndex filldir (above es IndexEntry.pos cookie) st).2) ∧
      match (visitIndex filldir (above es IndexEntry.pos cookie) st).1 with
      | none => ret.rc = 0 ∧ ∀ e ∈ es, e.pos < ret.pos
      | some pos => ret.pos = pos

/-! ## One entry -/

section Entry

variable {lib : Libdir σ} {d : UInt64} {index : σ → Option (List IndexEntry)} {n : Nat}
  {e : IndexEntry} {s : σ}

theorem LawfulReaddir.opened (hL : LawfulReaddir lib d index) {es : List IndexEntry}
    (hes : index s = some es) :
    ∃ ni s', lib.inodeOpen d s = .ok ni s' ∧ ni.mftNo = d ∧ ni.isDirectory = true ∧
      index s' = some es := by
  obtain ⟨ni, s', hopen, hno, hdir⟩ := hL.openDir s es hes
  have hindex := hL.inodeOpen d s
  rw [hopen] at hindex
  exact ⟨ni, s', hopen, hno, hdir, hindex.trans hes⟩

theorem LawfulReaddir.closed (hL : LawfulReaddir lib d index) (s : σ) {ni : NtfsInode}
    (hno : ni.mftNo = d) : ∃ s', lib.inodeClose ni s = .ok () s' ∧ index s' = index s := by
  obtain ⟨s', hclose⟩ := hL.closeDir ni s hno
  have hindex := hL.inodeClose ni s
  rw [hclose] at hindex
  exact ⟨s', hclose, hindex⟩

def Pending.listed (p : Pending) : Listed := (p.mft, p.name)

theorem entryStat_index (hL : LawfulReaddir lib d index) (w : Bool) (e : IndexEntry) (s : σ) :
    index (entryStat lib w e s).2 = index s := by
  unfold entryStat
  cases w with
  | false => rfl
  | true =>
    have hopen := hL.inodeOpen (MREF e.mref) s
    simp only [if_true]
    cases ho : lib.inodeOpen (MREF e.mref) s with
    | error err s₁ => rw [ho] at hopen; exact hopen
    | ok ni s₁ =>
      rw [ho] at hopen
      have hstat := hL.fillStat ni s₁
      have hclose := hL.inodeClose ni (lib.fillStat ni s₁).2
      simp only
      cases hc : lib.inodeClose ni (lib.fillStat ni s₁).2 with
      | error err s₂ => rw [hc] at hclose; exact hclose.trans (hstat.trans hopen)
      | ok u s₂ => rw [hc] at hclose; exact hclose.trans (hstat.trans hopen)

theorem filldir_skip {cb : NfskDirentCb κ} {c : RdCtx κ} (hgo : c.stopped = false)
    (h : skipped e = true) : nfskRdFilldir lib cb e (s, c) = (0, (s, c)) := by
  simp only [skipped, decide_eq_true_eq] at h
  simp only [nfskRdFilldir, hgo, Bool.false_eq_true, if_false]
  by_cases hdos : e.nameType = .dos
  · rw [if_pos hdos]
  · by_cases hdots : IsDots e.name
    · rw [if_neg hdos, if_pos hdots]
    · rw [if_neg hdos, if_neg hdots, if_pos ((h.resolve_left hdos).resolve_left hdots)]

/-- Past the checks, for an entry that is not skipped. -/
theorem filldir_taken {cb : NfskDirentCb κ} {c : RdCtx κ} (hgo : c.stopped = false)
    (h : ¬ skipped e = true) :
    nfskRdFilldir lib cb e (s, c) =
      match deliverPrev cb e.pos c with
      | (rc, c) =>
        if 0 < rc then (1, (s, { c with stopped := true }))
        else if rc < 0 then (-1, (s, { c with err := rc }))
        else
          match lib.ucstombs e.name with
          | none => (0, (s, c))
          | some mbs =>
            match entryStat lib c.wantAttrs e s with
            | (st, s) => (0, (s, { c with prev := some ⟨MREF e.mref, cName mbs, st⟩ })) := by
  simp only [skipped, decide_eq_true_eq, not_or] at h
  simp only [nfskRdFilldir, hgo, Bool.false_eq_true, if_false]
  rw [if_neg h.1, if_neg h.2.1, if_neg h.2.2]

variable {c : RdCtx (List (Listed × Nat))} {p : Pending}

theorem filldir_full (hgo : c.stopped = false) (h : ¬ skipped e = true) (hp : c.prev = some p)
    (hfull : ¬ c.cbctx.length < n) :
    nfskRdFilldir lib (pack n) e (s, c) = (1, (s, { c with prev := none, stopped := true })) := by
  rw [filldir_taken hgo h]
  simp [deliverPrev, hp, pack, hfull]

/-- The pending entry is delivered, and this one is pending if there is anything to report of it. -/
theorem filldir_next (hL : LawfulReaddir lib d index) (hgo : c.stopped = false)
    (h : ¬ skipped e = true) (hroom : c.prev = none ∨ c.cbctx.length < n) :
    ∃ s' next, nfskRdFilldir lib (pack n) e (s, c) =
        (0, (s', { c with
          cbctx := c.cbctx ++ c.prev.toList.map fun p => (p.listed, e.pos), prev := next })) ∧
      index s' = index s ∧ next.map Pending.listed = report lib e := by
  have hdeliver : deliverPrev (pack n) e.pos c =
      (0, { c with cbctx := c.cbctx ++ c.prev.toList.map fun p => (p.listed, e.pos), prev := none })
      := by
    obtain ⟨got, w, stop, err, prev⟩ := c
    cases prev with
    | none => simp [deliverPrev]
    | some p =>
      have hlt : got.length < n := hroom.resolve_left (by simp)
      simp [deliverPrev, pack, hlt, Pending.listed]
  rw [filldir_taken hgo h, hdeliver]
  simp only [Int.lt_irrefl, if_false]
  cases hu : lib.ucstombs e.name with
  | none => exact ⟨s, none, rfl, rfl, by simp [report, hu]⟩
  | some mbs =>
    exact ⟨_, _, rfl, entryStat_index hL _ e s, by simp [report, hu, Pending.listed]⟩

theorem filldir_index (hL : LawfulReaddir lib d index) (cb : NfskDirentCb κ) (e : IndexEntry)
    (st : σ × RdCtx κ) : index (nfskRdFilldir lib cb e st).2.1 = index st.1 := by
  obtain ⟨s, c⟩ := st
  by_cases hgo : c.stopped = false
  · by_cases h : skipped e = true
    · rw [filldir_skip hgo h]
    · rw [filldir_taken hgo h]
      simp only
      split
      · rfl
      · split
        · rfl
        · split
          · rfl
          · exact entryStat_index hL _ e s
  · rw [Bool.not_eq_false] at hgo
    simp [nfskRdFilldir, hgo]

end Entry

/-! ## One call -/

section Page

variable {lib : Libdir σ} {d : UInt64} {index : σ → Option (List IndexEntry)}

/-- What the client has when the walk is over, with the last entry delivered if there is one. -/
def drained (n fin : Nat) (c : RdCtx (List (Listed × Nat))) : List (Listed × Nat) :=
  if c.stopped then c.cbctx else (deliverPrev (pack n) fin c).2.cbctx

theorem drained_go {n fin : Nat} {c : RdCtx (List (Listed × Nat))} (hgo : c.stopped = false)
    (hlen : c.cbctx.length ≤ n) :
    drained n fin c = c.cbctx ++
      (c.prev.toList.map fun p => (p.listed, fin)).take (n - c.cbctx.length) := by
  unfold drained deliverPrev
  rw [hgo]
  cases hp : c.prev with
  | none => simp
  | some p =>
    by_cases hlt : c.cbctx.length < n
    · obtain ⟨m, hm⟩ : ∃ m, n - c.cbctx.length = m + 1 := ⟨n - c.cbctx.length - 1, by omega⟩
      simp [pack, hlt, hm, Pending.listed]
    · have hz : n - c.cbctx.length = 0 := by omega
      simp [pack, hlt, hz]

/-- The walk ends with the first deliveries made, as many as the client takes. -/
theorem visitIndex_pack (hL : LawfulReaddir lib d index) (n fin : Nat) (es : List IndexEntry) :
    ∀ (s : σ) (c : RdCtx (List (Listed × Nat))), c.stopped = false → c.err = 0 →
      c.cbctx.length ≤ n →
      let r := visitIndex (nfskRdFilldir lib (pack n)) es (s, c)
      index r.2.1 = index s ∧ r.2.2.err = 0 ∧ (r.1 = none ↔ r.2.2.stopped = false) ∧
        drained n fin r.2.2 = c.cbctx ++ (deliveries IndexEntry.pos skipped (report lib) fin
          (c.prev.map Pending.listed) es).take (n - c.cbctx.length) := by
  induction es with
  | nil =>
    intro s c hgo herr hlen
    refine ⟨rfl, herr, iff_of_true rfl hgo, ?_⟩
    simp only [visitIndex]
    rw [drained_go hgo hlen]
    cases hp : c.prev with
    | none => rfl
    | some p => rfl
  | cons e es ih =>
    intro s c hgo herr hlen
    simp only [visitIndex]
    by_cases h : skipped e = true
    · rw [filldir_skip hgo h, deliveries_skip h]
      exact ih s c hgo herr hlen
    · rw [deliveries_cons h]
      by_cases hroom : c.prev = none ∨ c.cbctx.length < n
      · obtain ⟨s', next, hrun, hs', hnext⟩ := filldir_next hL (s := s) hgo h hroom
        rw [hrun]
        simp only [if_true]
        have hpending : (c.prev.map Pending.listed).toList.map (fun b => (b, e.pos)) =
            c.prev.toList.map fun p => (p.listed, e.pos) := by
          cases c.prev with
          | none => rfl
          | some p => rfl
        rw [hpending]
        generalize hD : (c.prev.toList.map fun p => (p.listed, e.pos)) = D
        have hfits : D.length ≤ n - c.cbctx.length := by
          rw [← hD]
          cases hp : c.prev with
          | none => exact Nat.zero_le _
          | some p =>
            have hlt := hroom.resolve_left (by rw [hp]; exact Option.some_ne_none p)
            show 1 ≤ n - c.cbctx.length
            omega
        obtain ⟨hindex, herr', hstop, hdrained⟩ := ih s'
          { c with cbctx := c.cbctx ++ D, prev := next } hgo herr
          (by simp only [List.length_append]; omega)
        refine ⟨hindex.trans hs', herr', hstop, ?_⟩
        rw [hdrained, hnext, List.append_assoc, List.length_append, List.take_append,
          List.take_of_length_le hfits, Nat.sub_sub]
      · rw [not_or] at hroom
        obtain ⟨p, hp⟩ := Option.ne_none_iff_exists'.mp hroom.1
        rw [filldir_full hgo h hp hroom.2]
        have hz : n - c.cbctx.length = 0 := by omega
        refine ⟨rfl, herr, by simp, ?_⟩
        simp [drained, hz]

theorem walkResult_zero {ret : ReaddirRet} {c : RdCtx κ} (herr : c.err = 0)
    (hrc : c.stopped = false → ret.rc = 0) : walkResult ret c = 0 := by
  unfold walkResult
  by_cases hstop : c.stopped = false
  · simp [hrc hstop, herr]
  · simp [hstop, herr]

/-- A full packer at the last entry is no error. -/
theorem flushLast_pack (n pos : Nat) (c : RdCtx (List (Listed × Nat))) :
    (flushLast (pack n) pos 0 c).1 = 0 ∧ (flushLast (pack n) pos 0 c).2.cbctx = drained n pos c := by
  unfold flushLast drained
  by_cases hstop : c.stopped = true
  · simp [hstop]
  · simp only [hstop, not_false_eq_true, and_self, if_true, Bool.false_eq_true, if_false]
    unfold deliverPrev
    cases c.prev with
    | none => simp
    | some p =>
      by_cases hlt : c.cbctx.length < n
      · simp [pack, hlt]
      · simp [pack, hlt]

/-- A position past all entries. -/
def pastAll : List IndexEntry → Nat
  | [] => 0
  | e :: es => max (e.pos + 1) (pastAll es)

theorem lt_pastAll {es : List IndexEntry} {e : IndexEntry} (h : e ∈ es) : e.pos < pastAll es := by
  induction es with
  | nil => cases h
  | cons x xs ih =>
    unfold pastAll
    cases h with
    | head => omega
    | tail _ h =>
      have hlt := ih h
      omega

/-- Every call returns 0 and delivers a page. -/
theorem readdirPage_delivers (hL : LawfulReaddir lib d index) (wantAttrs : Bool) (n c : Nat)
    {s : σ} {es : List IndexEntry} (hes : index s = some es) :
    ∃ page s', readdirPage lib d wantAttrs (n + 1) c s = some (page, s') ∧ index s' = some es ∧
      Pages (reportedFrom IndexEntry.pos skipped (report lib) es) c page := by
  obtain ⟨ni, s₁, hopen, hno, hdir, hs₁⟩ := hL.opened hes
  obtain ⟨ret, hrun, hret⟩ := hL.readdir ni c (nfskRdFilldir lib (pack (n + 1)))
    (s₁, { cbctx := [], wantAttrs := wantAttrs, stopped := false, err := 0, prev := none }) es hno
    hs₁ (filldir_index hL _)
  have hwalk := fun fin => visitIndex_pack hL (n + 1) fin (above es IndexEntry.pos c) s₁
    { cbctx := [], wantAttrs := wantAttrs, stopped := false, err := 0, prev := none } rfl rfl
    (Nat.zero_le _)
  simp only at hrun hret hwalk
  generalize visitIndex (nfskRdFilldir lib (pack (n + 1))) (above es IndexEntry.pos c)
    (s₁, { cbctx := [], wantAttrs := wantAttrs, stopped := false, err := 0, prev := none }) = r
    at hrun hret hwalk
  obtain ⟨stop, s₂, c'⟩ := r
  simp only at hrun hret hwalk
  obtain ⟨hs₂, herr, hstop, _⟩ := hwalk 0
  obtain ⟨s₃, hclose, hs₃⟩ := hL.closed s₂ hno
  -- where the walk came to its end, its last position is past all entries
  have hrc : c'.stopped = false → ret.rc = 0 ∧ ∀ e ∈ es, e.pos < ret.pos := by
    intro hgo
    rw [hstop.mpr hgo] at hret
    exact hret
  have hpage : readdirPage lib d wantAttrs (n + 1) c s =
      some (drained (n + 1) ret.pos c', s₃) := by
    obtain ⟨hres, hctx⟩ := flushLast_pack (n + 1) ret.pos c'
    have hzero := walkResult_zero herr fun hgo => (hrc hgo).1
    simp only [readdirPage, nfskReaddirImpl, hopen, hdir, Bool.true_eq_false, if_false, hrun, hzero,
      hres, hctx, hclose, if_true]
  have hpages : ∀ fin, (∀ e ∈ es, e.pos < fin) →
      Pages (reportedFrom IndexEntry.pos skipped (report lib) es) c (drained (n + 1) fin c') := by
    intro fin hfin
    rw [(hwalk fin).2.2.2]
    exact pages_of_deliveries (hL.increasing s es hes) hfin c n
  refine ⟨_, s₃, hpage, hs₃.trans (hs₂.trans hs₁), ?_⟩
  by_cases hgo : c'.stopped = false
  · exact hpages ret.pos (hrc hgo).2
  · -- nothing was delivered at the end, so any position past all entries will do
    have hsame : drained (n + 1) ret.pos c' = drained (n + 1) (pastAll es) c' := by
      rw [Bool.not_eq_false] at hgo
      simp [drained, hgo]
    rw [hsame]
    exact hpages (pastAll es) fun e he => lt_pastAll he

end Page

/-- Reading a directory page by page delivers every entry there is to report exactly once and in
order, whatever the pages, and every call returns 0. -/
theorem nfskReaddir_exact {lib : Libdir σ} {d : UInt64} {index : σ → Option (List IndexEntry)}
    (hL : LawfulReaddir lib d index) (wantAttrs : Bool) (limit : Nat → Nat) {s : σ}
    {es : List IndexEntry} (hes : index s = some es) :
    ∃ fuel, enumerate (readdirPage lib d wantAttrs) limit fuel 0 0 s =
      some (reported skipped (report lib) es) := by
  obtain ⟨fuel, hf⟩ := enumerate_exact limit
    (fun n c _ hs => readdirPage_delivers hL wantAttrs n c hs) 0 0 s hes
  rw [reportedFrom, above_zero] at hf
  exact ⟨fuel, hf⟩

/-! ## A directory with all kinds of entries -/

/-- `ntfs_readdir` on the record 5. Names are converted if they are ASCII, and `fill_stat` fails. -/
def refLibdir (entries : List IndexEntry) : Libdir RefState :=
  { refLibntfs with
    ucstombs := fun name => if name.all (· < 0x80) then some (name.map UInt16.toUInt8) else none
    readdir := fun _ cookie filldir st =>
      match visitIndex filldir (above entries IndexEntry.pos cookie) st with
      | (none, st) => (⟨0, 0, pastAll entries⟩, st)
      | (some pos, st) => (⟨-1, 0, pos⟩, st)
    fillStat := fun _ s => ((- EIO, NfskStat.zero), s) }

def refIndex (entries : List IndexEntry) (s : RefState) : Option (List IndexEntry) :=
  if (s.ns.node 5).any NtfsInode.isDirectory then some entries else none

theorem refLibdir_readdir (entries : List IndexEntry) {κ : Type} (ni : NtfsInode) (cookie : Nat)
    (filldir : Filldir RefState κ) (st : RefState × κ) :
    ∃ ret, (refLibdir entries).readdir ni cookie filldir st =
        (ret, (visitIndex filldir (above entries IndexEntry.pos cookie) st).2) ∧
      match (visitIndex filldir (above entries IndexEntry.pos cookie) st).1 with
      | none => ret.rc = 0 ∧ ∀ e ∈ entries, e.pos < ret.pos
      | some pos => ret.pos = pos := by
  simp only [refLibdir]
  cases hv : visitIndex filldir (above entries IndexEntry.pos cookie) st with
  | mk stop st' =>
    cases stop with
    | none => exact ⟨_, rfl, rfl, fun e he => lt_pastAll he⟩
    | some pos => exact ⟨_, rfl, rfl⟩

/-- For a listing that any one directory has while there is that directory. -/
theorem refLibdir_lawful_of {entries : List IndexEntry} (h : Increasing IndexEntry.pos entries)
    {d : UInt64} {index : RefState → Option (List IndexEntry)}
    (hindex : ∀ s es, index s = some es →
      es = entries ∧ (s.ns.node d).any NtfsInode.isDirectory = true) :
    LawfulReaddir (refLibdir entries) d index := by
  refine ⟨?_, ?_, fun ni s _ => ⟨s, rfl⟩, ?_, fun _ _ => rfl, fun _ _ => rfl, ?_⟩
  · intro s es hs
    rw [(hindex s es hs).1]
    exact h
  · intro s es hs
    obtain ⟨ni, hni, hdir⟩ := (Option.any_eq_true _ _).mp (hindex s es hs).2
    exact ⟨ni, s, by simp [refLibdir, refLibntfs, hni], s.wellFormed.mftNo _ _ hni, hdir⟩
  · intro r s
    cases hn : s.ns.node r with
    | none => simp [refLibdir, refLibntfs, hn, final]
    | some n => simp [refLibdir, refLibntfs, hn, final]
  · intro κ ni cookie filldir st es _ hs _
    rw [(hindex st.1 es hs).1]
    exact refLibdir_readdir entries ni cookie filldir st

theorem refLibdir_lawful {entries : List IndexEntry} (h : Increasing IndexEntry.pos entries) :
    LawfulReaddir (refLibdir entries) 5 (refIndex entries) := by
  refine refLibdir_lawful_of h fun s es hs => ?_
  unfold refIndex at hs
  split at hs
  · exact ⟨(Option.some.inj hs).symm, ‹_›⟩
  · cases hs

/-- `.`, `..`, a metadata record, a file `ab` with an 8.3 alias, a name that does not convert, and a
file `c`. -/
def mixedEntries : List IndexEntry :=
  [⟨[0x2E], .posix, 0, 5, .dir⟩, ⟨[0x2E, 0x2E], .posix, 1, 5, .dir⟩,
    ⟨[0x24], .win32, 2, 0, .reg⟩, ⟨[0x61, 0x62], .win32, 3, 20, .reg⟩,
    ⟨[0x61, 0x7E], .dos, 4, 20, .reg⟩, ⟨[0xD800], .posix, 5, 21, .reg⟩,
    ⟨[0x63], .posix, 6, 22, .dir⟩]

/-- One entry a page. -/
theorem nfskReaddir_mixed : ∃ fuel,
    enumerate (readdirPage (refLibdir mixedEntries) 5 true) (fun _ => 0) fuel 0 0 twoFiles =
      some [(20, [0x61, 0x62]), (22, [0x63])] := by
  have hinc : Increasing IndexEntry.pos mixedEntries := by
    unfold Increasing mixedEntries
    decide
  exact nfskReaddir_exact (refLibdir_lawful hinc) true _ (s := twoFiles) rfl

end Ntfs
end Usbrw
