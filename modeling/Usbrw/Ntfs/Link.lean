import Usbrw.Ntfs.Library

/-!
# Ntfs.Link

`nfsk_do_link` and `nfsk_do_unlink`, the steps of a rename.

* `nfskDoLink`, `nfskDoUnlink` — the code.
* `Linkable`, `Unlinkable`     — when they succeed.
* `nfskDoLink_spec`, `nfskDoUnlink_spec` — what they do then, and that nothing changes otherwise.
-/

namespace Usbrw
namespace Ntfs

open Call Namespace

variable {σ : Type}

def negErrno (e : Errno) : Int := - e.val

theorem negErrno_neg (e : Errno) : negErrno e < 0 := by
  have := e.property
  unfold negErrno
  omega

/-- `ntfs_mbstoucs` of a name. -/
def convert (lib : Libntfs σ) (name : List UInt8) : EStateM Errno σ (List UInt16) :=
  match lib.mbstoucs name with
  | .ok uname => pure uname
  | .error e => throw e

/-- The reference the name stands for; a failure is the source's `(u64)-1`. -/
def nfskLookupMft (lib : Libntfs σ) (dirNi : NtfsInode) (name : List UInt8) :
    EStateM Errno σ UInt64 := do
  let uname ← convert lib name
  lib.inodeLookupByName dirNi uname

/-- Go on with an open inode and close it; a failing close counts if nothing else has failed. -/
def closing {α : Type} (lib : Libntfs σ) (ni : NtfsInode) (x : EStateM Int σ α) :
    EStateM Int σ α := do
  let a ← onFail x (lib.inodeClose ni)
  orFail negErrno (lib.inodeClose ni)
  pure a

def nfskDoLink (lib : Libntfs σ) (mft dirMft : UInt64) (name : List UInt8) (allowDir : Bool) :
    EStateM Int σ Unit := do
  let ni ← orFail negErrno (lib.inodeOpen mft)
  closing lib ni do
    if ¬ allowDir ∧ ni.isDirectory then throw (-EPERM)
    else
      let uname ← orFail negErrno (convert lib name)
      if 255 < uname.length then throw (-ENAMETOOLONG)
      else
        let dirNi ← orFail negErrno (lib.inodeOpen dirMft)
        closing lib dirNi do
          if dirNi.reparsePoint then throw (-EOPNOTSUPP)
          else
            orFail negErrno (lib.link ni dirNi uname)
            modify (lib.inodeUpdateTimes ni .ctime)
            modify (lib.inodeUpdateTimes dirNi .mctime)

/-- The inode `nfsk_do_unlink` is to delete, once it may be deleted. -/
def unlinkVictim (lib : Libntfs σ) (dirNi : NtfsInode) (name : List UInt8) :
    EStateM Int σ NtfsInode := do
  let iref ← orFail negErrno (nfskLookupMft lib dirNi name)
  if MREF iref < FILE_first_user then throw (-EPERM)
  else
    let ni ← orFail negErrno (lib.inodeOpen (MREF iref))
    onFail (if dirNi.reparsePoint then throw (-EOPNOTSUPP) else pure ni) (lib.inodeClose ni)

/-- `ntfs_delete` closes both inodes, whether it fails or not. -/
def nfskDoUnlink (lib : Libntfs σ) (dirMft : UInt64) (name : List UInt8) : EStateM Int σ Unit := do
  let uname ← orFail negErrno (convert lib name)
  let dirNi ← orFail negErrno (lib.inodeOpen dirMft)
  let ni ← onFail (unlinkVictim lib dirNi name) (lib.inodeClose dirNi)
  orFail negErrno (lib.delete ni dirNi uname)

/-! ## When the steps succeed -/

/-- A new entry `k` for the record can be made. -/
structure Linkable (ns : Namespace) (mft : UInt64) (k : Key) : Prop where
  named : k.2 ≠ []
  short : k.2.length ≤ 255
  apart : mft ≠ k.1
  node : ∃ n, ns.node mft = some n
  dir : ∃ d, ns.node k.1 = some d ∧ d.reparsePoint = false ∧ d.isDirectory = true
  absent : ns.entry k = none

theorem Linkable.wellFormed {ns : Namespace} {mft : UInt64} {k : Key} (h : Linkable ns mft k)
    (hwf : ns.WellFormed) : (ns.link k mft).WellFormed := by
  obtain ⟨n, hn⟩ := h.node
  obtain ⟨d, hd, _, hdir⟩ := h.dir
  exact hwf.link h.named h.short ⟨d, hd, hdir⟩ (hwf.nodeRecord _ _ hn) h.absent

/-- `nfsk_do_link` makes the entry: directories get one only where they are allowed to. -/
structure LinkAllowed (ns : Namespace) (allowDir : Bool) (mft : UInt64) (k : Key) : Prop
    extends Linkable ns mft k where
  allowed : ∀ n, ns.node mft = some n → ¬ (¬ allowDir = true ∧ n.isDirectory = true)

/-- The entry `k` refers to `r` and can be removed. -/
structure Unlinkable (ns : Namespace) (k : Key) (r : UInt64) : Prop where
  entry : ns.entry k = some r
  user : FILE_first_user ≤ r
  dir : ∃ d, ns.node k.1 = some d ∧ d.reparsePoint = false
  node : ∃ n, ns.node r = some n ∧ ns.Removable k n

section Steps

variable {lib : Libntfs σ} {V : View σ} {ns : Namespace}

theorem spec_wellFormed {α ε : Type} {x : EStateM ε σ α} {Q : α → σ → Prop} {E : ε → σ → Prop}
    (h : ns.WellFormed → Spec (V.Is ns) x Q E) : Spec (V.Is ns) x Q E := by
  intro s hs
  have hwf : ns.WellFormed := by
    rw [← hs.eq]
    exact V.wellFormed s
  exact h hwf s hs

theorem final_inodeClose (hL : Lawful lib V) (ni : NtfsInode) (s : σ) :
    V.names (final (lib.inodeClose ni s)) = V.names s :=
  Spec.final (I := V.Is (V.names s)) (Spec.conseq_error (hL.inodeClose (V.names s) ni) fun _ _ h => h.elim) rfl

/-- Closing does not change what a call has done to the namespace. -/
theorem closing_spec {α : Type} (hL : Lawful lib V) {P : σ → Prop} {Q : α → Namespace → Prop}
    {E : Int → Namespace → Prop} {ni : NtfsInode} {x : EStateM Int σ α}
    (h : Spec P x (fun a s => Q a (V.names s)) fun e s => E e (V.names s)) :
    Spec P (closing lib ni x) (fun a s => Q a (V.names s)) fun e s => E e (V.names s) := by
  unfold closing
  refine Spec.bind (Spec.onFail h ?_) ?_
  · intro e s he
    rwa [final_inodeClose hL]
  · intro a s hq
    have hclose := hL.inodeClose (V.names s) ni
    refine Spec.bind_orFail (R := fun a s => Q a (V.names s)) (D := fun e s => E e (V.names s))
      hclose (fun _ _ hf => hf.elim) ?_ s rfl
    intro _
    refine Spec.pure fun s' hs' => ?_
    rwa [hs'.eq]

theorem bind_convert {β : Type} {lib : Libntfs σ} {name : List UInt8} {u : List UInt16}
    (hu : lib.mbstoucs name = .ok u) (g : List UInt16 → EStateM Errno σ β) :
    (convert lib name >>= g) = g u := by
  unfold convert
  rw [hu]
  rfl

theorem orFail_bind_convert {β δ : Type} {lib : Libntfs σ} {name : List UInt8} {u : List UInt16}
    (hu : lib.mbstoucs name = .ok u) (f : Errno → δ) (g : List UInt16 → EStateM δ σ β) :
    (orFail f (convert lib name) >>= g) = g u := by
  unfold convert
  rw [hu]
  rfl

theorem convert_fails (lib : Libntfs σ) {name : List UInt8} {e : Errno}
    (hu : lib.mbstoucs name = .error e) {P : σ → Prop} :
    Spec P (convert lib name) (fun _ _ => False) fun _ => P := by
  unfold convert
  rw [hu]
  exact Spec.throw fun _ h => h

theorem nfskDoLink_exact (hL : Lawful lib V) {name : List UInt8} {u : List UInt16}
    (hu : lib.mbstoucs name = .ok u) (ns : Namespace) (mft d : UInt64) (allowDir : Bool) :
    Spec (V.Is ns) (nfskDoLink lib mft d name allowDir)
      (fun _ s => LinkAllowed ns allowDir mft (d, u) ∧ V.Is (ns.link (d, u) mft) s)
      fun e s => (e < 0 ∧ ¬ LinkAllowed ns allowDir mft (d, u)) ∧ V.Is ns s := by
  refine spec_wellFormed fun hwf => ?_
  unfold nfskDoLink
  refine Spec.bind_orFail (hL.inodeOpen ns mft) ?_ ?_
  · rintro e s ⟨hnone, hs⟩
    refine ⟨⟨negErrno_neg e, fun h => ?_⟩, hs⟩
    obtain ⟨n, hn⟩ := h.node
    rw [hnone] at hn
    cases hn
  intro n
  refine Spec.assume fun hn => ?_
  refine closing_spec hL
    (Q := fun _ ns' => LinkAllowed ns allowDir mft (d, u) ∧ ns' = ns.link (d, u) mft)
    (E := fun e ns' => (e < 0 ∧ ¬ LinkAllowed ns allowDir mft (d, u)) ∧ ns' = ns) ?_
  refine Spec.guard (fun hdirs s hs => ⟨⟨by decide, fun h => h.allowed n hn hdirs⟩, hs⟩)
    fun hdirs => ?_
  have hallowed : ∀ n', ns.node mft = some n' → ¬ (¬ allowDir = true ∧ n'.isDirectory = true) := by
    intro n' hn'
    rw [hn] at hn'
    cases hn'
    exact hdirs
  rw [orFail_bind_convert hu]
  refine Spec.guard (fun hlen s hs => ⟨⟨by decide, fun h => ?_⟩, hs⟩) fun hlen => ?_
  · have hshort : u.length ≤ 255 := h.short
    omega
  refine Spec.bind_orFail (hL.inodeOpen ns d) ?_ ?_
  · rintro e s ⟨hnone, hs⟩
    refine ⟨⟨negErrno_neg e, fun h => ?_⟩, hs⟩
    obtain ⟨n, hn, _⟩ := h.dir
    rw [hnone] at hn
    cases hn
  intro dn
  refine Spec.assume fun hd => ?_
  refine closing_spec hL
    (Q := fun _ ns' => LinkAllowed ns allowDir mft (d, u) ∧ ns' = ns.link (d, u) mft)
    (E := fun e ns' => (e < 0 ∧ ¬ LinkAllowed ns allowDir mft (d, u)) ∧ ns' = ns) ?_
  refine Spec.guard (fun hrep s hs => ⟨⟨by decide, fun h => ?_⟩, hs⟩) fun hrep => ?_
  · obtain ⟨dn', hd', hrep', _⟩ := h.dir
    rw [hd] at hd'
    cases hd'
    rw [hrep] at hrep'
    cases hrep'
  have hnno := hwf.mftNo _ _ hn
  have hdno := hwf.mftNo _ _ hd
  have hlink := hL.link ns n dn u (by rwa [hnno]) (by rwa [hdno]) (by omega)
  rw [hnno, hdno] at hlink
  refine Spec.bind_orFail hlink ?_ ?_
  · rintro e s ⟨hno, hs⟩
    refine ⟨⟨negErrno_neg e, fun h => hno ?_⟩, hs⟩
    obtain ⟨dn', hd', _, hdir⟩ := h.dir
    rw [hd] at hd'
    cases hd'
    exact ⟨h.named, by rw [hnno, hdno]; exact h.apart, hdir, by rw [hdno]; exact h.absent⟩
  · intro _
    refine Spec.assume fun h => ?_
    obtain ⟨hnamed, hapart, hdir, habsent⟩ := h
    rw [hnno, hdno] at hapart
    rw [hdno] at habsent
    have hlinkable : Linkable ns mft (d, u) :=
      ⟨hnamed, by show u.length ≤ 255; omega, hapart, ⟨n, hn⟩,
        ⟨dn, hd, by simpa using hrep, hdir⟩, habsent⟩
    refine Spec.bind (Q := fun _ => V.Is (ns.link (d, u) mft))
      (Spec.modify fun s hs => hL.inodeUpdateTimes _ n .ctime s hs) fun _ => ?_
    exact Spec.modify fun s hs =>
      ⟨⟨hlinkable, hallowed⟩, hL.inodeUpdateTimes _ dn .mctime s hs⟩

/-- As a step of a rename, which may link a directory. -/
theorem nfskDoLink_spec (hL : Lawful lib V) {name : List UInt8} {u : List UInt16}
    (hu : lib.mbstoucs name = .ok u) (ns : Namespace) (mft d : UInt64) :
    Spec (V.Is ns) (nfskDoLink lib mft d name true)
      (fun _ s => Linkable ns mft (d, u) ∧ V.Is (ns.link (d, u) mft) s)
      fun e s => (e < 0 ∧ ¬ Linkable ns mft (d, u)) ∧ V.Is ns s := by
  refine Spec.conseq (nfskDoLink_exact hL hu ns mft d true) ?_ ?_
  · exact fun _ s h => ⟨h.1.toLinkable, h.2⟩
  · rintro e s ⟨⟨he, hnot⟩, hs⟩
    exact ⟨⟨he, fun h => hnot ⟨h, fun _ _ hdirs => hdirs.1 rfl⟩⟩, hs⟩

theorem nfskDoLink_unconverted (hL : Lawful lib V) {name : List UInt8} {e : Errno}
    (hu : lib.mbstoucs name = .error e) (ns : Namespace) (mft d : UInt64) (allowDir : Bool) :
    Spec (V.Is ns) (nfskDoLink lib mft d name allowDir) (fun _ _ => False)
      fun e s => e < 0 ∧ V.Is ns s := by
  unfold nfskDoLink
  refine Spec.bind_orFail (hL.inodeOpen ns mft) (fun e s hs => ⟨negErrno_neg e, hs.2⟩) ?_
  intro n
  refine Spec.assume fun _ => ?_
  refine closing_spec hL (Q := fun _ _ => False) (E := fun e ns' => e < 0 ∧ ns' = ns) ?_
  refine Spec.guard (fun _ s hs => ⟨by decide, hs⟩) fun _ => ?_
  exact Spec.bind_orFail (convert_fails lib hu) (fun e s hs => ⟨negErrno_neg e, hs⟩)
    fun _ _ hf => hf.elim

theorem nfskLookupMft_spec (hL : Lawful lib V) {name : List UInt8} {u : List UInt16}
    (hu : lib.mbstoucs name = .ok u) (ns : Namespace) (dirNi : NtfsInode) :
    Spec (V.Is ns) (nfskLookupMft lib dirNi name)
      (fun iref s => ns.entry (dirNi.mftNo, u) = some (MREF iref) ∧ V.Is ns s)
      fun _ s => ns.entry (dirNi.mftNo, u) = none ∧ V.Is ns s := by
  unfold nfskLookupMft
  rw [bind_convert hu]
  exact hL.inodeLookupByName ns dirNi u

theorem unlinkVictim_spec (hL : Lawful lib V) {name : List UInt8} {u : List UInt16}
    (hu : lib.mbstoucs name = .ok u) {d : UInt64} {dirNi : NtfsInode}
    (hd : ns.node d = some dirNi) :
    Spec (V.Is ns) (unlinkVictim lib dirNi name)
      (fun n s => (ns.entry (d, u) = some n.mftNo ∧ FILE_first_user ≤ n.mftNo ∧
        ns.node n.mftNo = some n ∧ dirNi.reparsePoint = false) ∧ V.Is ns s)
      fun e s => (e < 0 ∧ ∀ r, ¬ Unlinkable ns (d, u) r) ∧ V.Is ns s := by
  refine spec_wellFormed fun hwf => ?_
  have hlookup := nfskLookupMft_spec hL hu ns dirNi
  rw [hwf.mftNo _ _ hd] at hlookup
  unfold unlinkVictim
  refine Spec.bind_orFail hlookup ?_ ?_
  · rintro e s ⟨hnone, hs⟩
    refine ⟨⟨negErrno_neg e, fun r h => ?_⟩, hs⟩
    have hentry := h.entry
    rw [hnone] at hentry
    cases hentry
  intro iref
  refine Spec.assume fun hentry => ?_
  -- an entry that can be removed refers to what was found
  have hfound : ∀ r, Unlinkable ns (d, u) r → r = MREF iref := by
    intro r h
    have hr := h.entry
    rw [hentry] at hr
    exact (Option.some.inj hr).symm
  refine Spec.guard (fun huser s hs => ⟨⟨by decide, fun r h => ?_⟩, hs⟩) fun huser => ?_
  · have hr := h.user
    rw [hfound r h] at hr
    exact absurd huser (UInt64.not_lt.mpr hr)
  refine Spec.bind_orFail (hL.inodeOpen ns (MREF iref)) ?_ ?_
  · rintro e s ⟨hnone, hs⟩
    refine ⟨⟨negErrno_neg e, fun r h => ?_⟩, hs⟩
    obtain ⟨n, hn, _⟩ := h.node
    rw [hfound r h, hnone] at hn
    cases hn
  intro n
  refine Spec.assume fun hn => ?_
  have hno := hwf.mftNo _ _ hn
  by_cases hrep : dirNi.reparsePoint = true
  · rw [if_pos hrep]
    refine Spec.onFail (E := fun e => fun s => e < 0 ∧ V.Is ns s)
      (Spec.throw fun s hs => ⟨by decide, hs⟩) ?_
    rintro e s ⟨he, hs⟩
    refine ⟨⟨he, fun r h => ?_⟩, (final_inodeClose hL n s).trans hs⟩
    obtain ⟨dn, hdn, hdrep⟩ := h.dir
    rw [hd] at hdn
    cases hdn
    rw [hrep] at hdrep
    cases hdrep
  · rw [if_neg hrep]
    refine Spec.onFail (E := fun _ _ => False) (Spec.pure fun s hs => ?_) fun _ _ hf => hf.elim
    exact ⟨⟨by rw [hno]; exact hentry, by rw [hno]; exact UInt64.not_lt.mp huser,
      by rw [hno]; exact hn, by simpa using hrep⟩, hs⟩

theorem nfskDoUnlink_spec (hL : Lawful lib V) {name : List UInt8} {u : List UInt16}
    (hu : lib.mbstoucs name = .ok u) (ns : Namespace) (d : UInt64) :
    Spec (V.Is ns) (nfskDoUnlink lib d name)
      (fun _ s => ∃ r, Unlinkable ns (d, u) r ∧ Dropped V ns (d, u) r s)
      fun e s => (e < 0 ∧ ∀ r, ¬ Unlinkable ns (d, u) r) ∧ V.Is ns s := by
  refine spec_wellFormed fun hwf => ?_
  unfold nfskDoUnlink
  rw [orFail_bind_convert hu]
  refine Spec.bind_orFail (hL.inodeOpen ns d) ?_ ?_
  · rintro e s ⟨hnone, hs⟩
    refine ⟨⟨negErrno_neg e, fun r h => ?_⟩, hs⟩
    obtain ⟨n, hn, _⟩ := h.dir
    rw [hnone] at hn
    cases hn
  intro dirNi
  refine Spec.assume fun hd => ?_
  refine Spec.bind (Spec.onFail (unlinkVictim_spec hL hu hd) ?_) ?_
  · rintro e s ⟨he, hs⟩
    exact ⟨he, (final_inodeClose hL dirNi s).trans hs⟩
  intro n
  refine Spec.assume fun h => ?_
  obtain ⟨hentry, huser, hn, hrep⟩ := h
  have hdno := hwf.mftNo _ _ hd
  have hdelete := hL.delete ns n dirNi u hn (by rwa [hdno])
  rw [hdno] at hdelete
  refine Spec.orFail (Spec.conseq_ok hdelete ?_) ?_
  · rintro _ s ⟨hremovable, hdropped⟩
    exact ⟨n.mftNo, ⟨hentry, huser, ⟨dirNi, hd, hrep⟩, ⟨n, hn, hremovable⟩⟩, hdropped⟩
  · rintro e s ⟨hnot, hs⟩
    refine ⟨⟨negErrno_neg e, fun r h => hnot ?_⟩, hs⟩
    obtain ⟨n', hn', hremovable⟩ := h.node
    have hr := h.entry
    rw [hentry] at hr
    rw [← Option.some.inj hr, hn] at hn'
    cases hn'
    exact hremovable

end Steps

end Ntfs
end Usbrw
