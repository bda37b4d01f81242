import Usbrw.Ntfs.Lookup

/-!
# Ntfs.Resume

What `*io_cookie` is worth to a client whose packer is full. An entry is handed out with the position
of the next one, and that is where the walk is when the entry is refused: `ntfs_readdir` leaves its
own position behind, which is past the entry that the client did not take.

* `Stops`                     — a call whose callback refuses an entry.
* `listingFrom_refused`       — the entries from where the client is are the refused one and those
  from `*io_cookie`.
* `nfskReaddir_never_resumes` — the two places to go on from never deliver the same.
-/

namespace Usbrw
namespace Ntfs

open Call Paging

variable {σ κ : Type}

/-- One call of the callback: the entry, its cookie, and what the callback returned. -/
structure Handing where
  entry : Listed
  next : Nat
  rc : Int

def Handing.delivery (h : Handing) : Listed × Nat := (h.entry, h.next)

/-- The callback, keeping its calls. -/
def logging (cb : NfskDirentCb κ) : NfskDirentCb (κ × List Handing) :=
  fun (k, calls) mft name st next =>
    match cb k mft name st next with
    | (rc, k) => (rc, (k, calls ++ [⟨(mft, name), next, rc⟩]))

/-- A call that starts at `cookie` and hands out the entries `taken`, which the callback accepts, and
`refused`, which it does not. `io` is `*io_cookie` after it. -/
structure Stops (lib : Libdir σ) (d : UInt64) (cookie : Nat) (wantAttrs : Bool)
    (cb : NfskDirentCb κ) (k : κ) (s : σ) (taken : List Handing) (refused : Handing) (io : Nat)
    (s' : σ) : Prop where
  returns : ∃ res k', nfskReaddirImpl lib d cookie wantAttrs (logging cb) (s, (k, [])) =
    ((res, io), (s', (k', taken ++ [refused])))
  accepted : ∀ h ∈ taken, h.rc = 0
  full : refused.rc = 1

/-- Where a client is that took entries: at the cookie that came with the last, or where it began. -/
def clientCookie (cookie : Nat) (taken : List Handing) : Nat :=
  (taken.getLast?.map Handing.next).getD cookie

/-- What there is to deliver from a cookie on, to a client that takes everything. -/
def listingFrom (lib : Libdir σ) (d : UInt64) (wantAttrs : Bool) (s : σ) (cookie : Nat) :
    List Listed :=
  (delivered lib d cookie wantAttrs (fun (_ : Unit) _ _ _ _ => ((0 : Int), ())) () s).map
    Pending.listed

/-- From two cookies on the same is delivered. -/
def ResumesAlike (lib : Libdir σ) (d : UInt64) (s : σ) (c c' : Nat) : Prop :=
  ∀ wantAttrs, listingFrom lib d wantAttrs s c = listingFrom lib d wantAttrs s c'

theorem clientCookie_concat (cookie : Nat) (taken : List Handing) (h : Handing) :
    clientCookie cookie (taken ++ [h]) = h.next := by
  simp [clientCookie]

/-! ## The calls of the callback -/

section Walk

variable {lib : Libdir σ} {d : UInt64} {index : σ → Option (List IndexEntry)}
  {es : List IndexEntry} {cb : NfskDirentCb κ} {s : σ}

/-- After a walk with `all` to deliver: the callback accepted the first of them, and all but a pending
one, or did not accept the one at whose cookie the walk ended. -/
def Walked (fin : Nat) (calls : List Handing) (all : List (Listed × Nat)) :
    Option Nat → RdCtx (κ × List Handing) → Prop
  | none, c => c.stopped = false ∧ c.err = 0 ∧
      ∃ front, c.cbctx.2 = calls ++ front ∧ (∀ h ∈ front, h.rc = 0) ∧
        all = front.map Handing.delivery ++ c.prev.toList.map fun p => (p.listed, fin)
  | some pos, c => c.prev = none ∧
      ∃ front last back, c.cbctx.2 = calls ++ front ++ [last] ∧ (∀ h ∈ front, h.rc = 0) ∧
        last.next = pos ∧ all = front.map Handing.delivery ++ last.delivery :: back

theorem deliverPrev_logging (cb : NfskDirentCb κ) (pos : Nat) (c : RdCtx (κ × List Handing)) :
    ∃ k rc, deliverPrev (logging cb) pos c = (rc, { c with
        cbctx := (k, c.cbctx.2 ++ c.prev.toList.map fun p => ⟨p.listed, pos, rc⟩), prev := none }) ∧
      (c.prev = none → rc = 0) := by
  obtain ⟨⟨k, calls⟩, w, stopped, err, prev⟩ := c
  cases prev with
  | none => exact ⟨k, 0, by simp [deliverPrev], fun _ => rfl⟩
  | some p =>
    exact ⟨(cb k p.mft p.name p.st pos).2, (cb k p.mft p.name p.st pos).1,
      by simp [deliverPrev, logging, Pending.listed], by simp⟩

/-- One entry: the pending one is handed out with its position. -/
theorem filldir_logging (hL : LawfulReaddir lib d index) (cb : NfskDirentCb κ) (e : IndexEntry)
    (s : σ) {c : RdCtx (κ × List Handing)} (hgo : c.stopped = false) (herr : c.err = 0)
    (h : ¬ skipped e = true) :
    ∃ rc s' c' made, nfskRdFilldir lib (logging cb) e (s, c) = (rc, (s', c')) ∧
      index s' = index s ∧ c'.cbctx.2 = c.cbctx.2 ++ made ∧
      made.map Handing.delivery = c.prev.toList.map (fun p => (p.listed, e.pos)) ∧
      if rc = 0 then c'.stopped = false ∧ c'.err = 0 ∧ (∀ h ∈ made, h.rc = 0) ∧
        c'.prev.map Pending.listed = report lib e
      else c'.prev = none ∧ ∃ last, made = [last] := by
  obtain ⟨k, rc, hdeliver, hnone⟩ := deliverPrev_logging cb e.pos c
  rw [filldir_taken hgo h, hdeliver]
  have hmade : ∀ rc, (c.prev.toList.map fun p => (⟨p.listed, e.pos, rc⟩ : Handing)).map
      Handing.delivery = c.prev.toList.map fun p => (p.listed, e.pos) := by
    intro rc
    rw [List.map_map]
    rfl
  simp only
  by_cases hzero : rc = 0
  · subst hzero
    have haccepted : ∀ h ∈ c.prev.toList.map fun p => (⟨p.listed, e.pos, 0⟩ : Handing), h.rc = 0 := by
      simp
    simp only [Int.lt_irrefl, if_false]
    cases hu : lib.ucstombs e.name with
    | none =>
      exact ⟨0, s, _, _, rfl, rfl, rfl, hmade 0, by simp [hgo, herr, report, hu]⟩
    | some mbs =>
      exact ⟨0, _, _, _, rfl, entryStat_index hL _ e s, rfl, hmade 0,
        by simp [hgo, herr, report, hu, Pending.listed]⟩
  · -- the callback was called, and did not accept
    obtain ⟨p, hp⟩ := Option.ne_none_iff_exists'.mp fun hn => hzero (hnone hn)
    by_cases hpos : 0 < rc
    · simp only [hpos, if_true]
      exact ⟨1, s, _, _, rfl, rfl, rfl, hmade rc, by simp [hp]⟩
    · have hneg : rc < 0 := by omega
      simp only [hpos, hneg, if_true, if_false]
      exact ⟨-1, s, _, _, rfl, rfl, rfl, hmade rc, by simp [hp]⟩

theorem visitIndex_logging (hL : LawfulReaddir lib d index) (cb : NfskDirentCb κ) (fin : Nat)
    (es : List IndexEntry) :
    ∀ (s : σ) (c : RdCtx (κ × List Handing)), c.stopped = false → c.err = 0 →
      let r := visitIndex (nfskRdFilldir lib (logging cb)) es (s, c)
      index r.2.1 = index s ∧ Walked fin c.cbctx.2
        (deliveries IndexEntry.pos skipped (report lib) fin (c.prev.map Pending.listed) es)
        r.1 r.2.2 := by
  induction es with
  | nil =>
    intro s c hgo herr
    simp only [visitIndex]
    refine ⟨trivial, hgo, herr, [], by simp, by simp, ?_⟩
    cases c.prev with
    | none => rfl
    | some p => rfl
  | cons e es ih =>
    intro s c hgo herr
    simp only [visitIndex]
    by_cases h : skipped e = true
    · rw [filldir_skip hgo h, deliveries_skip h]
      exact ih s c hgo herr
    · obtain ⟨rc, s', c', made, hrun, hs', hcalls, hmade, hthen⟩ :=
        filldir_logging hL cb e s hgo herr h
      have hpending : (c.prev.map Pending.listed).toList.map (fun b => (b, e.pos)) =
          made.map Handing.delivery := by
        rw [hmade]
        cases c.prev with
        | none => rfl
        | some p => rfl
      rw [deliveries_cons h, hpending, hrun]
      by_cases hzero : rc = 0
      · simp only [hzero, if_true] at hthen ⊢
        obtain ⟨hgo', herr', haccepted, hnext⟩ := hthen
        obtain ⟨hindex, hwalked⟩ := ih s' c' hgo' herr'
        refine ⟨hindex.trans hs', ?_⟩
        rw [hnext, hcalls] at hwalked
        generalize visitIndex (nfskRdFilldir lib (logging cb)) es (s', c') = r at hwalked
        obtain ⟨stop, s₂, c₂⟩ := r
        have hboth : ∀ front : List Handing, (∀ h ∈ front, h.rc = 0) →
            ∀ h ∈ made ++ front, h.rc = 0 := by
          intro front hfront h hm
          rcases List.mem_append.mp hm with hm | hm
          · exact haccepted h hm
          · exact hfront h hm
        cases stop with
        | none =>
          obtain ⟨hgo₂, herr₂, front, hcalls₂, hfront, hall⟩ := hwalked
          refine ⟨hgo₂, herr₂, made ++ front, ?_, hboth front hfront, ?_⟩
          · rw [hcalls₂, List.append_assoc]
          · rw [hall, List.map_append, List.append_assoc]
        | some pos =>
          obtain ⟨hprev₂, front, last, back, hcalls₂, hfront, hlast, hall⟩ := hwalked
          refine ⟨hprev₂, made ++ front, last, back, ?_, hboth front hfront, hlast, ?_⟩
          · rw [hcalls₂, List.append_assoc, List.append_assoc, List.append_assoc, List.append_assoc]
          · rw [hall, List.map_append, List.append_assoc]
      · simp only [hzero, if_false] at hthen ⊢
        obtain ⟨hprev, last, rfl⟩ := hthen
        refine ⟨hs', hprev, [], last, _, by rw [hcalls, List.append_nil], by simp, ?_, rfl⟩
        -- it was handed out with the position of this entry
        obtain ⟨p, _, hp⟩ := List.mem_map.mp (hmade ▸ List.mem_map_of_mem (f := Handing.delivery)
          (List.mem_singleton.mpr rfl : last ∈ [last]))
        exact (congrArg Prod.snd hp).symm

/-- The calls of a walk that came to its end, with the one for the pending entry. -/
theorem flushLast_logging (cb : NfskDirentCb κ) (pos : Nat) (res : Int)
    (c : RdCtx (κ × List Handing)) :
    ∃ made, (flushLast (logging cb) pos res c).2.cbctx.2 = c.cbctx.2 ++ made ∧
      (made = [] ∨ ∃ p rc, c.prev = some p ∧ made = [⟨p.listed, pos, rc⟩]) := by
  obtain ⟨k, rc, hdeliver, _⟩ := deliverPrev_logging cb pos c
  unfold flushLast
  by_cases h : res = 0 ∧ ¬ c.stopped = true
  · rw [if_pos h, hdeliver]
    refine ⟨_, rfl, ?_⟩
    cases hp : c.prev with
    | none => exact .inl rfl
    | some p => exact .inr ⟨p, rc, rfl, rfl⟩
  · rw [if_neg h]
    exact ⟨[], by simp, .inl rfl⟩

/-- The entries that a call hands out are the first that there are to deliver. The refused one has
the cookie that the call leaves behind. -/
theorem stops_deliveries (hL : LawfulReaddir lib d index) (hes : index s = some es) {cookie : Nat}
    {wantAttrs : Bool} {k : κ} {taken : List Handing} {refused : Handing} {io : Nat} {s' : σ}
    (hstops : Stops lib d cookie wantAttrs cb k s taken refused io s') :
    index s' = some es ∧ refused.next = io ∧ ∃ fin back, (∀ e ∈ es, e.pos < fin) ∧
      deliveries IndexEntry.pos skipped (report lib) fin none (above es IndexEntry.pos cookie) =
        taken.map Handing.delivery ++ refused.delivery :: back := by
  obtain ⟨⟨res, k', hcall⟩, _, hfull⟩ := hstops
  have hrefused : refused.rc ≠ 0 := by omega
  obtain ⟨ni, s₁, hopen, hno, hdir, hs₁⟩ := hL.opened hes
  obtain ⟨ret, hrun, hret⟩ := hL.readdir ni cookie (nfskRdFilldir lib (logging cb))
    (s₁, ⟨(k, []), wantAttrs, false, 0, none⟩) es hno hs₁ (filldir_index hL _)
  have hwalk := fun fin => visitIndex_logging hL cb fin
    (above es IndexEntry.pos cookie) s₁ ⟨(k, []), wantAttrs, false, 0, none⟩ rfl rfl
  generalize visitIndex (nfskRdFilldir lib (logging cb)) (above es IndexEntry.pos cookie)
    (s₁, ⟨(k, []), wantAttrs, false, 0, none⟩) = r at hrun hret hwalk
  obtain ⟨stop, s₂, c⟩ := r
  simp only at hrun hret hwalk
  obtain ⟨s₃, hclose, hs₃⟩ := hL.closed s₂ hno
  obtain ⟨made, hcalls, hmade⟩ := flushLast_logging cb ret.pos (walkResult ret c) c
  have hend : s₃ = s' ∧ ret.pos = io ∧ c.cbctx.2 ++ made = taken ++ [refused] := by
    simp only [nfskReaddirImpl, hopen, hdir, Bool.true_eq_false, if_false, hrun] at hcall
    generalize flushLast (logging cb) ret.pos (walkResult ret c) c = q at hcalls hcall
    obtain ⟨res', c'⟩ := q
    simp only [hclose, Prod.mk.injEq] at hcall hcalls
    obtain ⟨⟨_, hio⟩, hs, hctx⟩ := hcall
    exact ⟨hs, hio, by rw [← hcalls, hctx]⟩
  obtain ⟨rfl, rfl, hall⟩ := hend
  refine ⟨hs₃.trans ((hwalk 0).1.trans hs₁), ?_⟩
  cases stop with
  | none =>
    -- the walk came to its end, and the last entry was refused
    obtain ⟨_, _, front, hfront, haccepted, hdeliveries⟩ := (hwalk ret.pos).2
    rw [hfront, List.nil_append] at hall
    rcases hmade with rfl | ⟨p, rc, hp, rfl⟩
    · rw [List.append_nil] at hall
      exact absurd (haccepted refused (by rw [hall]; simp)) hrefused
    · obtain ⟨rfl, hlast⟩ := List.append_inj' hall rfl
      obtain rfl := List.singleton_inj.mp hlast
      rw [hp] at hdeliveries
      exact ⟨rfl, ret.pos, [], hret.2, hdeliveries⟩
  | some pos =>
    obtain ⟨hprev, front, last, back, hfront, _, hlast, hdeliveries⟩ := (hwalk (pastAll es)).2
    have hnone : made = [] := by
      rcases hmade with rfl | ⟨p, rc, hp, _⟩
      · rfl
      · rw [hprev] at hp
        cases hp
    rw [hfront, hnone, List.nil_append, List.append_nil] at hall
    obtain ⟨rfl, hsame⟩ := List.append_inj' hall rfl
    obtain rfl := List.singleton_inj.mp hsame
    exact ⟨hlast.trans hret.symm, pastAll es, back, fun e he => lt_pastAll he, hdeliveries⟩

end Walk

/-! ## Going on -/

section Resume

variable {lib : Libdir σ} {d : UInt64} {index : σ → Option (List IndexEntry)}
  {es : List IndexEntry} {cb : NfskDirentCb κ} {s : σ}

theorem listingFrom_eq (hL : LawfulReaddir lib d index) (hes : index s = some es)
    (wantAttrs : Bool) (cookie : Nat) : listingFrom lib d wantAttrs s cookie =
      reportedFrom IndexEntry.pos skipped (report lib) es cookie :=
  (delivered_reported hL hes _ () cookie wantAttrs).2.2 fun _ _ _ _ _ => rfl

/-- From `*io_cookie` on the refused entry is missing. -/
theorem listingFrom_refused (hL : LawfulReaddir lib d index) (hes : index s = some es)
    {cookie : Nat} {wantAttrs : Bool} {k : κ} {taken : List Handing} {refused : Handing} {io : Nat}
    {s' : σ} (hstops : Stops lib d cookie wantAttrs cb k s taken refused io s') (w : Bool) :
    listingFrom lib d w s' (clientCookie cookie taken) =
      refused.entry :: listingFrom lib d w s' io := by
  obtain ⟨hs', hio, fin, back, hfin, hall⟩ := stops_deliveries hL hes hstops
  have hinc := hL.increasing s es hes
  obtain ⟨pre, hpre⟩ := above_suffix hinc cookie
  have hafter : reportedFrom IndexEntry.pos skipped (report lib) es io = back.map Prod.fst := by
    rw [← hio]
    exact deliveries_cookie hinc hfin hpre hall
  rw [listingFrom_eq hL hs', listingFrom_eq hL hs', hafter]
  rcases List.eq_nil_or_concat taken with rfl | ⟨before, last, rfl⟩
  · -- nothing was taken, and the client begins again
    have hfst := @deliveries_fst _ _ IndexEntry.pos skipped (report lib) fin
      (above es IndexEntry.pos cookie) none
    rw [hall] at hfst
    exact hfst.symm
  · rw [List.concat_eq_append] at hall ⊢
    rw [clientCookie_concat]
    rw [List.map_append, List.append_assoc] at hall
    exact deliveries_cookie hinc hfin hpre hall

/-- Whatever the callback takes before it is full, in the middle of a directory or at its last entry:
what is delivered from `*io_cookie` on is not what is delivered from the cookie of the last entry it
took. -/
theorem nfskReaddir_never_resumes (hL : LawfulReaddir lib d index) (hes : index s = some es)
    {cookie : Nat} {wantAttrs : Bool} {k : κ} {taken : List Handing} {refused : Handing} {io : Nat}
    {s' : σ} (hstops : Stops lib d cookie wantAttrs cb k s taken refused io s') :
    ¬ ResumesAlike lib d s' io (clientCookie cookie taken) := by
  intro h
  have halike := congrArg List.length (h wantAttrs)
  rw [listingFrom_refused hL hes hstops wantAttrs, List.length_cons] at halike
  omega

/-- Refused at the end: a client with room for one entry gets the file `ab`, and the file `c` again
from the cookie of `ab` only. -/
theorem nfskReaddir_never_resumes_flush :
    ¬ ResumesAlike (refLibdir mixedEntries) 5 twoFiles 7 5 := by
  have hinc : Increasing IndexEntry.pos mixedEntries := by
    unfold Increasing mixedEntries
    decide
  have hstops : Stops (refLibdir mixedEntries) 5 0 false (pack 1) [] twoFiles
      [⟨(20, [0x61, 0x62]), 5, 0⟩] ⟨(22, [0x63]), 7, 1⟩ 7 twoFiles :=
    ⟨⟨0, _, rfl⟩, by simp, rfl⟩
  exact nfskReaddir_never_resumes (refLibdir_lawful hinc) rfl hstops

end Resume

/-! ## An entry that is lost -/

/-- Three files `a`, `b` and `c`. -/
def threeEntries : List IndexEntry :=
  [⟨[0x61], .posix, 0, 20, .reg⟩, ⟨[0x62], .posix, 1, 21, .reg⟩, ⟨[0x63], .posix, 2, 22, .reg⟩]

/-- Refused in the middle: a client with room for `a` only is left with a cookie past `b`. -/
theorem refused_entry_lost :
    LawfulReaddir (refLibdir threeEntries) 5 (refIndex threeEntries) ∧
      refIndex threeEntries twoFiles = some threeEntries ∧
      Stops (refLibdir threeEntries) 5 0 false (pack 1) [] twoFiles
        [⟨(20, [0x61]), 1, 0⟩] ⟨(21, [0x62]), 2, 1⟩ 2 twoFiles ∧
      listingFrom (refLibdir threeEntries) 5 false twoFiles 1 = [(21, [0x62]), (22, [0x63])] ∧
      listingFrom (refLibdir threeEntries) 5 false twoFiles 2 = [(22, [0x63])] ∧
      ¬ ResumesAlike (refLibdir threeEntries) 5 twoFiles 2 1 := by
  have hinc : Increasing IndexEntry.pos threeEntries := by
    unfold Increasing threeEntries
    decide
  have hfull : listingFrom (refLibdir threeEntries) 5 false twoFiles 1 =
      [(21, [0x62]), (22, [0x63])] := rfl
  have hcut : listingFrom (refLibdir threeEntries) 5 false twoFiles 2 = [(22, [0x63])] := rfl
  refine ⟨refLibdir_lawful hinc, rfl, ⟨⟨0, _, rfl⟩, by simp, rfl⟩, hfull, hcut, fun h => ?_⟩
  have halike := h false
  rw [hfull, hcut] at halike
  simp at halike

end Ntfs
end Usbrw
