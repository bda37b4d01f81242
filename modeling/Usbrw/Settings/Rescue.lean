import Usbrw.Settings.Preferences

/-!
# Settings.Rescue

The rescue of a hibernated volume throws away what Windows had not written, so it is carried out
once for a request, and not at all where nothing may be written.

* `requested`, `rescued` — a request for a volume, and a mount that carries it out.
* `Prefs.pending`        — the requests that are left: none or one.
* `rescue_once`          — over any stretch of a run, there are no more rescues than requests, but for
  one that was left from before it.
-/

namespace Usbrw
namespace Settings

open Function Service

def requested (serial : String) : Request × Reply → Bool
  | (.setHiberfileRescue s, _) => s == serial
  | _ => false

/-- `NTFS_MNT_IGNORE_HIBERFILE`, and then `hiberfil.sys` is removed. -/
def rescued (serial : String) : Request × Reply → Bool
  | (.mountVolume _ (some s) _, .mounted volume) => s == serial && volume.flags.ignoreHiberfile
  | _ => false

namespace Prefs

def pending (p : Prefs) (serial : String) : Nat :=
  if p.flag .extension (.rescue serial) then 1 else 0

variable {p : Prefs} {serial : String}

theorem pending_le (p : Prefs) (serial : String) : p.pending serial ≤ 1 := by
  unfold pending
  split <;> omega

theorem pending_congr {q : Prefs} (h : q.published (.rescue serial) = p.published (.rescue serial)) :
    q.pending serial = p.pending serial := by
  have hflag : q.flag .extension (.rescue serial) = p.flag .extension (.rescue serial) :=
    congrArg (·.getD false) h
  unfold pending
  rw [hflag]

/-- A choice of the app for something else leaves the requests as they are. -/
theorem pending_choose {s : Setting} (hs : s ≠ .rescue serial) (v : Option Bool) :
    (p.choose s v).pending serial = p.pending serial := by
  apply pending_congr
  simp only [choose]
  split
  · rw [update_of_ne (Ne.symm hs)]
  · rfl

/-- A rescue uses up the request. -/
theorem pending_withdraw (p : Prefs) (s serial : String) :
    (p.withdraw (some s)).pending serial = if s = serial then 0 else p.pending serial := by
  by_cases hs : s = serial
  · subst hs
    simp [pending, flag, view, withdraw]
  · rw [if_neg hs]
    apply pending_congr
    simp [withdraw, update_of_ne, Ne.symm hs]

theorem step_pending_quiet {r : Request} {q : Prefs} {reply : Reply}
    (hresc : rescued serial (r, reply) = false) (hreq : requested serial (r, reply) = false)
    (h : q.pending serial = p.pending serial) :
    (if rescued serial (r, reply) then 1 else 0) + q.pending serial ≤
      p.pending serial + if requested serial (r, reply) then 1 else 0 := by
  rw [hresc, hreq, h]
  simp

/-- A rescue is carried out on a request that is left. -/
theorem rescues_iff (p : Prefs) (readonly : Bool) (s : String) :
    p.rescues readonly (some s) = true ↔ readonly = false ∧ p.pending s = 1 := by
  cases readonly with
  | true => simp [rescues]
  | false => simp [rescues, pending]

/-- One call: a rescue takes a request that was left, and a request leaves one. -/
theorem step_pending (p : Prefs) (serial : String) (r : Request) :
    (if rescued serial (r, (p.step r).2) then 1 else 0) + (p.step r).1.pending serial ≤
      p.pending serial + if requested serial (r, (p.step r).2) then 1 else 0 := by
  cases r with
  | setForceReadOnly v => exact step_pending_quiet rfl rfl (pending_choose (by simp) _)
  | setROOverride s value => exact step_pending_quiet rfl rfl (pending_choose (by simp) _)
  | setMountOpt o v => exact step_pending_quiet rfl rfl (pending_choose (by simp) _)
  | setHiberfileRescue s =>
    simp only [step, rescued, requested]
    by_cases hs : s = serial
    · have hle := pending_le (p.choose (.rescue s) (some true)) serial
      simp only [hs, beq_self_eq_true, if_true] at hle ⊢
      simp only [Bool.false_eq_true, if_false]
      omega
    · rw [pending_choose (by simpa using hs)]
      simp
  | mountVolume i bootSerial opens =>
    cases hdevice : p.devices i with
    | none =>
      have hstep : p.step (.mountVolume i bootSerial opens) = (p, .noDevice) := by simp [step, hdevice]
      rw [hstep]
      exact step_pending_quiet (by cases bootSerial <;> rfl) rfl rfl
    | some readonly =>
      by_cases hrescue : p.rescues readonly bootSerial = true
      · cases bootSerial with
        | none => cases readonly <;> cases hrescue
        | some s =>
          have hleft := ((rescues_iff p readonly s).mp hrescue).2
          have hstep : (p.step (.mountVolume i (some s) opens)).1 = p.withdraw (some s) := by
            simp [step, hdevice, hrescue]
          rw [hstep, pending_withdraw]
          by_cases hs : s = serial
          · subst hs
            simp only [if_true, hleft, requested]
            split <;> omega
          · have hnone : rescued serial (.mountVolume i (some s) opens,
                (p.step (.mountVolume i (some s) opens)).2) = false := by
              cases opens <;> simp [step, hdevice, rescued, hs]
            simp [hnone, requested, hs]
      · have hstep : (p.step (.mountVolume i bootSerial opens)).1 = p := by
          simp [step, hdevice, hrescue]
        have hnone : rescued serial (.mountVolume i bootSerial opens,
            (p.step (.mountVolume i bootSerial opens)).2) = false := by
          cases bootSerial with
          | none => rfl
          | some s => cases opens <;> simp [step, hdevice, rescued, hrescue]
        exact step_pending_quiet hnone rfl (by rw [hstep])
  | _ => exact step_pending_quiet rfl rfl rfl

/-- A run: the rescues, and the request that is left, are no more than the requests and the one
that was left. -/
theorem history_pending (serial : String) (calls : List Request) (p : Prefs) :
    (history step p calls).countP (rescued serial) + (after step p calls).pending serial ≤
      p.pending serial + (history step p calls).countP (requested serial) := by
  induction calls generalizing p with
  | nil => simp [history, after]
  | cons r calls ih =>
    have hstep := step_pending p serial r
    have hrest := ih (p.step r).1
    have hafter : after step p (r :: calls) = after step (p.step r).1 calls := rfl
    simp only [history, hafter, List.countP_cons]
    omega

theorem rescued_writable (p : Prefs) (serial : String) (r : Request)
    (h : rescued serial (r, (p.step r).2) = true) :
    ∃ volume, (p.step r).2 = .mounted volume ∧ volume.flags.rdonly = false := by
  cases r with
  | mountVolume i bootSerial opens =>
    cases hdevice : p.devices i with
    | none => cases bootSerial <;> simp [rescued, step, hdevice] at h
    | some readonly =>
      cases bootSerial with
      | none => cases h
      | some s =>
        cases opens with
        | false => simp [rescued, step, hdevice] at h
        | true =>
          refine ⟨_, by simp [step, hdevice]; rfl, ?_⟩
          cases readonly with
          | true => simp [rescued, step, hdevice, rescues] at h
          | false => rfl
  | _ => simp [rescued] at h

theorem history_writable (serial : String) (calls : List Request) (p : Prefs) :
    ∀ e ∈ history step p calls, rescued serial e = true →
      ∃ volume, e.2 = .mounted volume ∧ volume.flags.rdonly = false := by
  induction calls generalizing p with
  | nil => simp [history]
  | cons r calls ih =>
    intro e he h
    obtain rfl | he := List.mem_cons.mp he
    · exact rescued_writable p serial r h
    · exact ih _ e he h

theorem no_request_pending (serial : String) (calls : List Request) (p : Prefs)
    (h : .setHiberfileRescue serial ∉ calls) :
    (history step p calls).countP (requested serial) = 0 := by
  induction calls generalizing p with
  | nil => rfl
  | cons r calls ih =>
    rw [List.mem_cons, not_or] at h
    rw [history, List.countP_cons, ih _ h.2]
    cases r with
    | setHiberfileRescue s =>
      have hs : s ≠ serial := fun e => h.1 (by rw [e])
      simp [requested, hs]
    | _ => rfl

end Prefs

/-- Over any stretch `calls` of a run, and whoever calls what in it, a volume is rescued at most once
more often than it is requested, and no more often when nothing was requested before. A rescue is
never carried out on a read-only mount. -/
theorem rescue_once (io : Ntfs.Locked.NfskBlockio) (group appSuite extSuite : Bool)
    (before calls : List Request) (serial : String) :
    let h := history (World.step io)
      (after (World.step io) (World.fresh group appSuite extSuite) before) calls
    h.countP (rescued serial) ≤ h.countP (requested serial) + 1 ∧
    (.setHiberfileRescue serial ∉ before →
      h.countP (rescued serial) ≤ h.countP (requested serial)) ∧
    ∀ e ∈ h, rescued serial e = true →
      ∃ volume, e.2 = .mounted volume ∧ volume.flags.rdonly = false := by
  intro h
  have hbefore := (history_eq_of_simulation (fun _ _ r h => h.step io r) before
    (Reflects.fresh group appSuite extSuite)).2
  have hcalls : h = history Prefs.step (after Prefs.step (Prefs.fresh group) before) calls :=
    (history_eq_of_simulation (fun _ _ r h => h.step io r) calls hbefore).1
  have hle := Prefs.history_pending serial calls (after Prefs.step (Prefs.fresh group) before)
  have hone := Prefs.pending_le (after Prefs.step (Prefs.fresh group) before) serial
  rw [hcalls]
  refine ⟨by omega, fun hnone => ?_, Prefs.history_writable serial calls _⟩
  have hfirst := Prefs.history_pending serial before (Prefs.fresh group)
  rw [Prefs.no_request_pending serial before _ hnone] at hfirst
  have hzero : (Prefs.fresh group).pending serial = 0 := rfl
  omega

end Settings
end Usbrw
