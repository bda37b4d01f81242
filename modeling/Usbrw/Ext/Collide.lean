import Mathlib.Data.FinEnum
import Mathlib.Data.Set.Card
import Usbrw.Ext.Interleave
import Usbrw.Ext.Names

/-!
# Ext.Collide

When two calls of `extfsk_create` that run at once make two files.

* `Separate`      — both have returned an inode, and these are different, found under their names and
  no longer free.
* `Clash`         — a call is to pick the inode that the other one has picked.
* `Hidden`        — the entry a call is to make does not count, because of an older one of the name.
* `Advances`      — what one step does.
* `creates_apart` — the calls make two files if and only if no step of theirs is one of these.
* `picked_twice`  — two calls that both pick before either marks its inode.
-/

namespace Usbrw
namespace Ext

open Call Run Volume

variable {σ : Type}

namespace Volume

/-- Numbers that are not in the inode table count, but are never taken. -/
noncomputable def freeInodes (v : Volume) : Nat := {ino | v.inUse ino = false}.ncard

theorem freeInodes_of_taken {v w : Volume} {a b : UInt32} (hne : a ≠ b)
    (ha : v.inUse a = false) (hb : v.inUse b = false)
    (h : ∀ i, w.inUse i = true ↔ v.inUse i = true ∨ i = a ∨ i = b) :
    w.freeInodes + 2 = v.freeInodes := by
  have hsub : {a, b} ⊆ {ino | v.inUse ino = false} := by
    rintro i (rfl | rfl)
    · exact ha
    · exact hb
  have hfree : {ino | w.inUse ino = false} = {ino | v.inUse ino = false} \ {a, b} := by
    ext i
    have hi := h i
    rw [← Bool.not_eq_false, ← Bool.not_eq_false] at hi
    simp only [Set.mem_ofPred_eq, Set.mem_sdiff, Set.mem_insert_iff, Set.mem_singleton_iff]
    tauto
  rw [freeInodes, hfree, freeInodes, ← Set.ncard_pair hne]
  exact Set.ncard_sdiff_add_ncard_of_subset hsub

end Volume

/-! ## What one step does -/

section Advance

variable (fs : Ext2fsNew σ) (V : View σ) (c : Creation)

/-- The next step may fail. -/
def Stage.Fallible : Stage → Prop
  | .account _ => False
  | .returned _ => False
  | _ => True

/-- The stage after a step, and the volume. -/
inductive Advances (s : σ) : Stage → Stage → Volume → Prop where
  | rests {r} : Advances s (.returned r) (.returned r) (V.volume s)
  | fails {p e} (hp : p.Fallible) : Advances s p (.returned (.error e)) (V.volume s)
  | picks {child s'} (hnew : fs.newInode c.dir (regularMode c.mode) s = .ok child s')
      (hfree : (V.volume s).inUse child = false) : Advances s .pick (.link child) (V.volume s)
  | fills {child} : Advances s (.link child) (.expand child) (V.volume s)
  | grows {child size} :
      Advances s (.expand child) (.linkAgain child) ((V.volume s).resize c.dir size)
  | links {p child s' l₁ l₂} (hp : p.Links child)
      (hlink : fs.link c.dir c.name child EXT2_FT_REG_FILE s = .ok () s')
      (hdir : (V.volume s).dir c.dir = l₁ ++ l₂)
      (hv : V.volume s' =
        (V.volume s).setDir c.dir (l₁ ++ ⟨child, c.name, EXT2_FT_REG_FILE⟩ :: l₂)) :
      Advances s p (.write child) (V.volume s')
  | writes {child n} : Advances s (.write child) (.account child) ((V.volume s).setNode child n)
  | accounts (child) :
      Advances s (.account child) (.returned (.ok child.toUInt64)) ((V.volume s).setInUse child true)

variable {fs V c} {s : σ}

theorem Advances.linkStep (hL : Lawful fs.toExt2fs V) {p again : Stage} {child : UInt32}
    (hp : p.Links child) (hagain : Advances fs V c s p again (V.volume s)) :
    Advances fs V c s p (c.linkStep fs child again s).1
      (V.volume (c.linkStep fs child again s).2) := by
  have hspec := hL.link (V.volume s) c.dir c.name child EXT2_FT_REG_FILE
  unfold Creation.linkStep
  cases hlink : fs.link c.dir c.name child EXT2_FT_REG_FILE s with
  | ok _ s' =>
    obtain ⟨l₁, l₂, hdir, hv⟩ := hspec.ok rfl hlink
    exact .links hp hlink hdir hv
  | error e s' =>
    have hv := (hspec.error rfl hlink).eq
    by_cases he : e = .dirNoSpace
    · simp only [he, if_true, hv]
      exact hagain
    · simp only [he, if_false, hv]
      refine .fails ?_
      rcases hp with rfl | rfl
      · trivial
      · trivial

theorem advances (hL : LawfulNew fs V) (p : Stage) :
    Advances fs V c s p (c.step fs p s).1 (V.volume (c.step fs p s).2) := by
  have hfailed : ∀ {p : Stage} {e : Errcode} {s' : σ}, p.Fallible →
      V.volume s' = V.volume s → Advances fs V c s p (.failed e) (V.volume s') := by
    intro p e s' hp hv
    rw [hv]
    exact .fails hp
  cases p with
  | pick =>
    simp only [Creation.step]
    by_cases hlen : 255 < c.name.length
    · simp only [if_pos hlen]
      exact .fails trivial
    · simp only [if_neg hlen]
      have hspec := hL.newInode (V.volume s) c.dir (regularMode c.mode)
      cases hnew : fs.newInode c.dir (regularMode c.mode) s with
      | ok child s' =>
        obtain ⟨⟨hfree, _⟩, hv⟩ := hspec.ok rfl hnew
        simp only [hv.eq]
        exact .picks hnew hfree
      | error e s' => exact hfailed trivial (hspec.error rfl hnew)
  | link child => exact Advances.linkStep hL.lawful (.inl rfl) .fills
  | expand child =>
    have hspec := hL.lawful.expandDir (V.volume s) c.dir
    simp only [Creation.step]
    cases hexpand : fs.expandDir c.dir s with
    | ok _ s' =>
      obtain ⟨size, hv⟩ := hspec.ok rfl hexpand
      simp only [hv.eq]
      exact .grows
    | error e s' => exact hfailed trivial (hspec.error rfl hexpand)
  | linkAgain child => exact Advances.linkStep hL.lawful (.inr rfl) (.fails trivial)
  | write child =>
    have hspec := hL.writeNewInode (V.volume s) child
      (newFileInode (regularMode c.mode) c.uid c.gid (fs.time s))
    simp only [Creation.step]
    cases hwrite : fs.writeNewInode child
        (newFileInode (regularMode c.mode) c.uid c.gid (fs.time s)) s with
    | ok _ s' =>
      simp only [(hspec.ok rfl hwrite).eq]
      exact .writes
    | error e s' => exact hfailed trivial (hspec.error rfl hwrite)
  | account child =>
    have hv := hL.lawful.inodeAllocStats2 (V.volume s) child 1 false s rfl
    simp only [Creation.step, hv.eq]
    exact .accounts child
  | returned r => exact .rests

variable {p p' : Stage} {v' : Volume}

/-- A picked inode stays the call's, unless the call fails. -/
theorem Advances.child_kept (h : Advances fs V c s p p' v') {k : UInt32} (hk : p.child = some k) :
    p'.child = some k ∨ ∃ e, p' = .returned (.error e) := by
  cases h with
  | rests => exact .inl hk
  | fails _ => exact .inr ⟨_, rfl⟩
  | picks _ _ => cases hk
  | fills => exact .inl hk
  | grows => exact .inl hk
  | links hp _ _ _ =>
    rcases hp with rfl | rfl
    · exact .inl hk
    · exact .inl hk
  | writes => exact .inl hk
  | accounts => exact .inl (by simpa [Stage.child] using hk)

/-- Where a call has its inode from. -/
theorem Advances.child_from (h : Advances fs V c s p p' v') {k : UInt32}
    (hk : p'.child = some k) :
    p.child = some k ∨ p = .pick ∧ (V.volume s).inUse k = false ∧
      ∃ s', fs.newInode c.dir (regularMode c.mode) s = .ok k s' := by
  cases h with
  | rests => exact .inl hk
  | fails _ => cases hk
  | picks hnew hfree =>
    cases hk
    exact .inr ⟨rfl, hfree, _, hnew⟩
  | fills => exact .inl hk
  | grows => exact .inl hk
  | links hp _ _ _ =>
    rcases hp with rfl | rfl
    · exact .inl hk
    · exact .inl hk
  | writes => exact .inl hk
  | accounts => exact .inl (by simpa [Stage.child] using hk)

/-- A call has returned an inode after a step: it had, or the step marked the inode. -/
theorem Advances.returned_iff (h : Advances fs V c s p p' v') {ino : UInt64} :
    p' = .returned (.ok ino) ↔
      p = .returned (.ok ino) ∨ ∃ child, p = .account child ∧ ino = child.toUInt64 := by
  cases h with
  | rests => simp
  | fails hp =>
    constructor
    · nofun
    · rintro (rfl | ⟨child, rfl, _⟩)
      · exact hp.elim
      · exact hp.elim
  | links hp _ _ _ =>
    rcases hp with rfl | rfl
    · simp
    · simp
  | accounts => simp [eq_comm]
  | _ => simp

/-- The step before a call returns an inode marks it. -/
theorem Advances.inUse_iff (h : Advances fs V c s p p' v') {i : UInt32} :
    v'.inUse i = true ↔ (V.volume s).inUse i = true ∨ p = .account i := by
  cases h with
  | links hp _ _ hv =>
    rw [hv]
    rcases hp with rfl | rfl
    · simp
    · simp
  | accounts child =>
    simp only [setInUse_inUse, Function.update_apply, Stage.account.injEq]
    by_cases hi : i = child
    · simp [hi]
    · simp [hi, Ne.symm hi]
  | fails hp =>
    constructor
    · exact .inl
    · rintro (hi | rfl)
      · exact hi
      · exact hp.elim
  | _ => simp

theorem named_inserted {v : Volume} {d d' : UInt32} {name : List UInt8} {e : Dirent}
    {l₁ l₂ : List Dirent} (hne : e.name ≠ name) (hdir : v.dir d = l₁ ++ l₂) :
    (v.setDir d (l₁ ++ e :: l₂)).named d' name = v.named d' name := by
  unfold named
  rw [setDir_dir]
  by_cases hd : d' = d
  · rw [hd, Function.update_self, hdir, List.find?_append, List.find?_append,
      List.find?_cons_of_neg (by simpa using hne)]
  · rw [Function.update_of_ne hd]

/-- An entry of a name that was free. -/
theorem named_new {v : Volume} {d : UInt32} {e : Dirent} {l₁ l₂ : List Dirent}
    (hdir : v.dir d = l₁ ++ l₂) (hfree : v.named d e.name = none) :
    (v.setDir d (l₁ ++ e :: l₂)).named d e.name = some e.inode := by
  have hnone : l₁.find? (fun x => x.name = e.name) = none := by
    have hfree' := Option.map_eq_none_iff.mp hfree
    rw [hdir, List.find?_append, Option.or_eq_none_iff] at hfree'
    exact hfree'.1
  unfold named
  rw [setDir_dir, Function.update_self, List.find?_append, hnone, Option.none_or,
    List.find?_cons_of_pos (by simp)]
  rfl

/-- What a name resolves to that is not the call's. -/
theorem Advances.named_of_ne (h : Advances fs V c s p p' v') {name : List UInt8}
    (hne : c.name ≠ name) (d : UInt32) : v'.named d name = (V.volume s).named d name := by
  cases h with
  | links _ _ hdir hv =>
    rw [hv]
    exact named_inserted hne hdir
  | grows => exact named_congr rfl d name
  | writes => exact named_congr rfl d name
  | accounts => exact named_congr rfl d name
  | _ => rfl

/-- What any name resolves to, when the call has its entry. -/
theorem Advances.named_linked (h : Advances fs V c s p p' v') (hp : p.Linked) (d : UInt32)
    (name : List UInt8) : v'.named d name = (V.volume s).named d name := by
  cases h with
  | links hp' _ _ _ =>
    rcases hp' with rfl | rfl
    · cases hp
    · cases hp
  | grows => exact named_congr rfl d name
  | writes => exact named_congr rfl d name
  | accounts => exact named_congr rfl d name
  | _ => rfl

theorem Advances.linked (h : Advances fs V c s p p' v') (hp : p.Linked) : p'.Linked := by
  cases h with
  | picks _ _ => cases hp
  | fills => cases hp
  | grows => cases hp
  | _ => trivial

/-- The step that makes the entry. -/
theorem Advances.entered (h : Advances fs V c s p p' v') (hp : ¬ p.Linked) (hp' : p'.Linked)
    {k : UInt32} (hk : p'.child = some k) :
    p.Links k ∧ ∃ s', fs.link c.dir c.name k EXT2_FT_REG_FILE s = .ok () s' ∧
      v' = V.volume s' := by
  cases h with
  | links hlinks hlink _ _ =>
    cases hk
    exact ⟨hlinks, _, hlink, rfl⟩
  | rests => exact absurd trivial hp
  | fails _ => cases hk
  | picks _ _ => exact hp'.elim
  | fills => exact hp'.elim
  | grows => exact hp'.elim
  | writes => exact absurd trivial hp
  | accounts _ => exact absurd trivial hp

/-- A call without its entry leaves its name alone, or it makes the entry. -/
theorem Advances.named_unlinked (h : Advances fs V c s p p' v') (hp' : ¬ p'.Linked) (d : UInt32)
    (name : List UInt8) : v'.named d name = (V.volume s).named d name := by
  cases h with
  | links _ _ _ _ => exact absurd trivial hp'
  | grows => exact named_congr rfl d name
  | writes => exact absurd trivial hp'
  | accounts => exact absurd trivial hp'
  | _ => rfl

end Advance

/-! ## Two calls at once -/

section Runs

variable (fs : Ext2fsNew σ) (V : View σ) (calls : Caller → Creation)

/-- The calls have made two files, with the inodes `ino`. -/
structure Separate (s s' : σ) (ino : Caller → UInt64) : Prop where
  ne : ino .first ≠ ino .second
  own : ∀ t, ((V.volume s').named (calls t).dir (calls t).name).map UInt32.toUInt64 = some (ino t)
  free : (V.volume s').freeInodes + 2 = (V.volume s).freeInodes

/-- The call is to pick an inode, and what `ext2fs_new_inode` gives is what the other one has. -/
def Clash (x : Shared σ) (t : Caller) : Prop :=
  x.stage t = .pick ∧ ∃ child s',
    fs.newInode (calls t).dir (regularMode (calls t).mode) x.state = .ok child s' ∧
    (x.stage t.other).child = some child

/-- The call is to make its entry, and the name will not resolve to it. -/
def Hidden (x : Shared σ) (t : Caller) : Prop :=
  ∃ child s', (x.stage t).Links child ∧
    fs.link (calls t).dir (calls t).name child EXT2_FT_REG_FILE x.state = .ok () s' ∧
    (V.volume s').named (calls t).dir (calls t).name ≠ some child

def Clear (x : Shared σ) (t : Caller) : Prop := ¬ Clash fs calls x t ∧ ¬ Hidden fs V calls x t

variable {fs V calls} {x : Shared σ} {t u : Caller} {k : UInt32}

theorem other_ne (t : Caller) : t.other ≠ t := by
  cases t with
  | first => nofun
  | second => nofun

theorem other_other (t : Caller) : t.other.other = t := by
  cases t with
  | first => rfl
  | second => rfl

theorem eq_other (h : u ≠ t) : u = t.other := by
  cases t with
  | first =>
    cases u with
    | first => exact absurd rfl h
    | second => rfl
  | second =>
    cases u with
    | first => rfl
    | second => exact absurd rfl h

theorem shared_advances (hL : LawfulNew fs V) (calls : Caller → Creation) (x : Shared σ)
    (t : Caller) :
    Advances fs V (calls t) x.state (x.stage t) ((x.step fs calls t).stage t)
      (V.volume (x.step fs calls t).state) := by
  rw [step_stage_self]
  exact advances hL (x.stage t)

/-! ### What lasts -/

theorem stage_kept {P : Stage → Prop} (hL : LawfulNew fs V)
    (hstep : ∀ {s p p' v'}, Advances fs V (calls u) s p p' v' → P p → P p') (hx : P (x.stage u)) :
    P ((x.step fs calls t).stage u) := by
  by_cases hu : u = t
  · subst hu
    exact hstep (shared_advances hL calls x u) hx
  · rwa [step_stage_of_ne hu]

theorem run_stage {P : Stage → Prop} (hL : LawfulNew fs V)
    (hstep : ∀ {s p p' v'}, Advances fs V (calls u) s p p' v' → P p → P p')
    (sched : List Caller) (hx : P (x.stage u)) :
    P ((sched.foldl (Shared.step fs calls) x).stage u) := by
  induction sched generalizing x with
  | nil => exact hx
  | cons t sched ih => exact ih (stage_kept hL hstep hx)

/-- A call has picked the inode, or has failed after that. -/
def Stage.Keeps (k : UInt32) (p : Stage) : Prop :=
  p.child = some k ∨ ∃ e, p = .returned (.error e)

theorem run_keeps (hL : LawfulNew fs V) (sched : List Caller) (hx : (x.stage u).Keeps k) :
    ((sched.foldl (Shared.step fs calls) x).stage u).Keeps k := by
  refine run_stage (P := Stage.Keeps k) hL ?_ sched hx
  intro s p p' v' h hp
  rcases hp with hk | ⟨e, rfl⟩
  · exact h.child_kept hk
  · cases h with
    | rests => exact .inr ⟨e, rfl⟩
    | fails _ => exact .inr ⟨_, rfl⟩
    | links hp' _ _ _ =>
      rcases hp' with hp' | hp'
      · cases hp'
      · cases hp'

theorem step_named (hL : LawfulNew fs V)
    (hne : (calls .first).name ≠ (calls .second).name) (hu : (x.stage u).Linked ∨ u ≠ t) :
    (V.volume (x.step fs calls t).state).named (calls u).dir (calls u).name =
      (V.volume x.state).named (calls u).dir (calls u).name := by
  have hadv := shared_advances hL calls x t
  by_cases hut : u = t
  · rw [hut]
    refine hadv.named_linked ?_ _ _
    rcases hu with hlinked | hne'
    · rwa [hut] at hlinked
    · exact absurd hut hne'
  · refine hadv.named_of_ne ?_ _
    rw [eq_other hut]
    cases t with
    | first => exact hne
    | second => exact hne.symm

theorem run_named (hL : LawfulNew fs V) (hne : (calls .first).name ≠ (calls .second).name)
    (sched : List Caller) (hu : (x.stage u).Linked) :
    (V.volume (sched.foldl (Shared.step fs calls) x).state).named (calls u).dir (calls u).name =
      (V.volume x.state).named (calls u).dir (calls u).name := by
  induction sched generalizing x with
  | nil => rfl
  | cons t sched ih =>
    have hlinked : ((x.step fs calls t).stage u).Linked :=
      stage_kept (P := Stage.Linked) hL (fun h => h.linked) hu
    rw [List.foldl_cons, ih hlinked, step_named hL hne (.inl hu)]

/-! ### Which inodes are in use -/

/-- Only the inodes of calls that have returned are in use that were not before, and a call picks
one that was free. -/
structure Sound (V : View σ) (v₀ : Volume) (x : Shared σ) : Prop where
  inUse : ∀ i, (V.volume x.state).inUse i = true ↔
    v₀.inUse i = true ∨ ∃ t, x.stage t = .returned (.ok i.toUInt64)
  fresh : ∀ t i, (x.stage t).child = some i → v₀.inUse i = false
  narrow : ∀ t ino, x.stage t = .returned (.ok ino) → ino.toUInt32.toUInt64 = ino

theorem sound_begin (V : View σ) (s : σ) : Sound V (V.volume s) (Shared.begin s) := by
  refine ⟨?_, nofun, nofun⟩
  intro i
  constructor
  · exact fun hi => .inl hi
  · rintro (hi | ⟨t, ht⟩)
    · exact hi
    · cases ht

theorem Sound.step {v₀ : Volume} (h : Sound V v₀ x) (hL : LawfulNew fs V) (t : Caller) :
    Sound V v₀ (x.step fs calls t) := by
  have hadv := shared_advances hL calls x t
  have hother : ∀ u, u ≠ t → (x.step fs calls t).stage u = x.stage u :=
    fun u hu => step_stage_of_ne hu
  have hreturned : ∀ u ino, (x.step fs calls t).stage u = .returned (.ok ino) ↔
      x.stage u = .returned (.ok ino) ∨
        u = t ∧ ∃ child, x.stage t = .account child ∧ ino = child.toUInt64 := by
    intro u ino
    by_cases hu : u = t
    · subst hu
      rw [hadv.returned_iff]
      simp
    · rw [hother u hu]
      simp [hu]
  refine ⟨?_, ?_, ?_⟩
  · intro i
    have hmark : (∃ u, (x.step fs calls t).stage u = .returned (.ok i.toUInt64)) ↔
        (∃ u, x.stage u = .returned (.ok i.toUInt64)) ∨ x.stage t = .account i := by
      simp only [hreturned, exists_or, UInt32.toUInt64_inj]
      simp
    rw [hadv.inUse_iff, h.inUse, hmark, or_assoc]
  · intro u i hi
    by_cases hu : u = t
    · subst hu
      rcases hadv.child_from hi with hi | ⟨_, hfree, _⟩
      · exact h.fresh u i hi
      · by_contra huse
        have hold := (h.inUse i).mpr (.inl (by simpa using huse))
        rw [hfree] at hold
        cases hold
    · rw [hother u hu] at hi
      exact h.fresh u i hi
  · intro u ino hino
    rcases (hreturned u ino).mp hino with hold | ⟨_, child, _, rfl⟩
    · exact h.narrow u ino hold
    · rw [UInt32.toUInt32_toUInt64]

/-! ### Two files -/

/-- Nothing has gone wrong so far. -/
structure Clean (V : View σ) (calls : Caller → Creation) (x : Shared σ) : Prop where
  differ : ∀ t i, (x.stage t).child = some i → (x.stage t.other).child ≠ some i
  own : ∀ t i, (x.stage t).Linked → (x.stage t).child = some i →
    (V.volume x.state).named (calls t).dir (calls t).name = some i

theorem clean_begin (V : View σ) (calls : Caller → Creation) (s : σ) :
    Clean V calls (Shared.begin s) := ⟨nofun, nofun⟩

theorem Clean.step (h : Clean V calls x) (hL : LawfulNew fs V)
    (hne : (calls .first).name ≠ (calls .second).name) (hclear : Clear fs V calls x t) :
    Clean V calls (x.step fs calls t) := by
  have hadv := shared_advances hL calls x t
  have hsame : ((x.step fs calls t).stage t.other) = x.stage t.other :=
    step_stage_of_ne (other_ne t)
  have hpicked : ∀ i, ((x.step fs calls t).stage t).child = some i →
      (x.stage t.other).child ≠ some i := by
    intro i hi hother
    rcases hadv.child_from hi with hi | ⟨hpick, _, s', hnew⟩
    · exact h.differ t i hi hother
    · exact hclear.1 ⟨hpick, i, s', hnew, hother⟩
  refine ⟨?_, ?_⟩
  · intro u i hi
    by_cases hu : u = t
    · subst hu
      rw [hsame]
      exact hpicked i hi
    · rw [eq_other hu, hsame] at hi
      rw [eq_other hu, other_other]
      exact fun hself => hpicked i hself hi
  · intro u i hlinked hi
    by_cases hu : u = t
    · subst hu
      by_cases hbefore : (x.stage u).Linked
      · rw [step_named hL hne (.inl hbefore)]
        refine h.own u i hbefore ?_
        rcases hadv.child_from hi with hi | ⟨hpick, _⟩
        · exact hi
        · rw [hpick] at hbefore
          cases hbefore
      · obtain ⟨hlinks, s', hlink, hv⟩ := hadv.entered hbefore hlinked hi
        rw [hv]
        by_contra hnot
        exact hclear.2 ⟨i, s', hlinks, hlink, hnot⟩
    · rw [step_named hL hne (.inr hu)]
      rw [eq_other hu, hsame] at hlinked hi
      rw [eq_other hu]
      exact h.own t.other i hlinked hi

theorem Clean.separate {s : σ} (h : Clean V calls x) (hs : Sound V (V.volume s) x)
    {ino : Caller → UInt64} (hret : ∀ t, x.stage t = .returned (.ok (ino t))) :
    Separate V calls s x.state ino := by
  have hchild : ∀ t, (x.stage t).child = some (ino t).toUInt32 := by
    intro t
    rw [hret t]
    rfl
  have hnarrow : ∀ t, (ino t).toUInt32.toUInt64 = ino t := fun t => hs.narrow t (ino t) (hret t)
  have hne : (ino .first).toUInt32 ≠ (ino .second).toUInt32 := by
    intro heq
    refine h.differ .first _ (hchild .first) ?_
    rw [heq]
    exact hchild .second
  refine ⟨fun heq => hne (by rw [heq]), ?_, ?_⟩
  · intro t
    have hlinked : (x.stage t).Linked := by
      rw [hret t]
      trivial
    rw [h.own t _ hlinked (hchild t), Option.map_some, hnarrow t]
  · refine freeInodes_of_taken hne (hs.fresh _ _ (hchild .first)) (hs.fresh _ _ (hchild .second)) ?_
    intro i
    have hone : ∀ t, x.stage t = .returned (.ok i.toUInt64) ↔ i = (ino t).toUInt32 := by
      intro t
      rw [hret t, Stage.returned.injEq, Except.ok.injEq]
      constructor
      · intro hi
        rw [hi, UInt32.toUInt32_toUInt64]
      · intro hi
        rw [hi, hnarrow t]
    rw [hs.inUse i]
    refine or_congr_right ?_
    constructor
    · rintro ⟨t, ht⟩
      cases t with
      | first => exact .inl ((hone .first).mp ht)
      | second => exact .inr ((hone .second).mp ht)
    · rintro (hi | hi)
      · exact ⟨.first, (hone .first).mpr hi⟩
      · exact ⟨.second, (hone .second).mpr hi⟩

/-! ### Something goes wrong -/

theorem keeps_of_returned {p : Stage} {ino : UInt64} (h : p.Keeps k)
    (hret : p = .returned (.ok ino)) : ino.toUInt32 = k := by
  rcases h with hk | ⟨e, he⟩
  · rw [hret] at hk
    exact Option.some.inj hk
  · rw [hret] at he
    cases he

/-- A step that picks gives an inode, and if it is to be that one then it is. -/
theorem clash_keeps (h : Clash fs calls x t) :
    ∃ i, ((x.step fs calls t).stage t).Keeps i ∧ ((x.step fs calls t).stage t.other).Keeps i := by
  obtain ⟨hpick, i, s', hnew, hother⟩ := h
  refine ⟨i, ?_, ?_⟩
  · rw [step_stage_self, hpick]
    simp only [Creation.step]
    by_cases hlen : 255 < (calls t).name.length
    · rw [if_pos hlen]
      exact .inr ⟨_, rfl⟩
    · rw [if_neg hlen, hnew]
      exact .inl rfl
  · rw [step_stage_of_ne (other_ne t)]
    exact .inl hother

theorem hidden_linked (h : Hidden fs V calls x t) :
    ∃ i, ((x.step fs calls t).stage t).Keeps i ∧ ((x.step fs calls t).stage t).Linked ∧
      (V.volume (x.step fs calls t).state).named (calls t).dir (calls t).name ≠ some i := by
  obtain ⟨i, s', hlinks, hlink, hnamed⟩ := h
  have hstep : (calls t).step fs (x.stage t) x.state = (.write i, s') := by
    rcases hlinks with hp | hp
    · rw [hp]
      simp only [Creation.step, Creation.linkStep, hlink]
    · rw [hp]
      simp only [Creation.step, Creation.linkStep, hlink]
  refine ⟨i, ?_⟩
  rw [step_stage_self, step_state, hstep]
  exact ⟨.inl rfl, trivial, hnamed⟩

theorem Separate.clear {s : σ} {ino : Caller → UInt64} {sched : List Caller} (hL : LawfulNew fs V)
    (hne : (calls .first).name ≠ (calls .second).name)
    (hret : ∀ t, (sched.foldl (Shared.step fs calls) x).stage t = .returned (.ok (ino t)))
    (hnarrow : ∀ t, (ino t).toUInt32.toUInt64 = ino t)
    (h : Separate V calls s (sched.foldl (Shared.step fs calls) x).state ino) :
    Along (Shared.step fs calls) (Clear fs V calls) x sched := by
  induction sched generalizing x with
  | nil => trivial
  | cons t sched ih =>
    refine ⟨⟨?_, ?_⟩, ih hret h⟩
    · intro hclash
      obtain ⟨i, hself, hother⟩ := clash_keeps hclash
      have hi := keeps_of_returned (run_keeps hL sched hself) (hret t)
      have hj := keeps_of_returned (run_keeps hL sched hother) (hret t.other)
      have heq : ino t = ino t.other := by rw [← hnarrow t, hi, ← hj, hnarrow]
      cases t with
      | first => exact h.ne heq
      | second => exact h.ne heq.symm
    · intro hhidden
      obtain ⟨i, hself, hlinked, hnamed⟩ := hidden_linked hhidden
      have hi := keeps_of_returned (run_keeps hL sched hself) (hret t)
      have hown := h.own t
      rw [List.foldl_cons, run_named hL hne sched hlinked] at hown
      obtain ⟨j, hj, hjino⟩ := Option.map_eq_some_iff.mp hown
      refine hnamed ?_
      rw [hj, ← hi, ← hjino, UInt32.toUInt32_toUInt64]

/-- A call that has no entry yet has a name that is free. -/
def Untouched (V : View σ) (calls : Caller → Creation) (x : Shared σ) : Prop :=
  ∀ u, ¬ (x.stage u).Linked → (V.volume x.state).named (calls u).dir (calls u).name = none

theorem Untouched.step (h : Untouched V calls x) (hL : LawfulNew fs V)
    (hne : (calls .first).name ≠ (calls .second).name) (t : Caller) :
    Untouched V calls (x.step fs calls t) := by
  intro u hu
  by_cases hut : u = t
  · subst hut
    have hadv := shared_advances hL calls x u
    rw [hadv.named_unlinked hu]
    exact h u fun hlinked => hu (hadv.linked hlinked)
  · rw [step_named hL hne (.inr hut)]
    rw [step_stage_of_ne hut] at hu
    exact h u hu

theorem Untouched.not_hidden (h : Untouched V calls x) (hL : LawfulNew fs V) :
    ¬ Hidden fs V calls x t := by
  rintro ⟨child, s', hlinks, hlink, hnamed⟩
  have hspec := hL.lawful.link (V.volume x.state) (calls t).dir (calls t).name child
    EXT2_FT_REG_FILE
  obtain ⟨l₁, l₂, hdir, hv⟩ := hspec.ok rfl hlink
  have hunlinked : ¬ (x.stage t).Linked := by
    rcases hlinks with hp | hp
    · rw [hp]
      exact not_false
    · rw [hp]
      exact not_false
  refine hnamed ?_
  rw [hv.eq]
  exact named_new (e := ⟨child, (calls t).name, EXT2_FT_REG_FILE⟩) hdir (h t hunlinked)

/-- Two calls of `extfsk_create` for regular files of different names, with their steps in any order,
both return an inode: they have made two files if and only if no step of theirs was a clash or made
a hidden entry. With names that are free there are no hidden entries. -/
theorem creates_apart (hL : LawfulNew fs V) (hne : (calls .first).name ≠ (calls .second).name)
    (s : σ) (sched : List Caller) (ino : Caller → UInt64)
    (hret : ∀ t, (sched.foldl (Shared.step fs calls) (.begin s)).stage t =
      .returned (.ok (ino t))) :
    (Separate V calls s (sched.foldl (Shared.step fs calls) (.begin s)).state ino ↔
      Along (Shared.step fs calls) (Clear fs V calls) (.begin s) sched) ∧
    ((∀ t, (V.volume s).named (calls t).dir (calls t).name = none) →
      (Separate V calls s (sched.foldl (Shared.step fs calls) (.begin s)).state ino ↔
        Along (Shared.step fs calls) (fun x t => ¬ Clash fs calls x t) (.begin s) sched)) := by
  have hsound : Sound V (V.volume s) (sched.foldl (Shared.step fs calls) (.begin s)) :=
    inv_foldl (fun _ t hx => hx.step hL t) (sound_begin V s) sched
  have hiff : Separate V calls s (sched.foldl (Shared.step fs calls) (.begin s)).state ino ↔
      Along (Shared.step fs calls) (Clear fs V calls) (.begin s) sched := by
    constructor
    · exact Separate.clear hL hne hret fun t => hsound.narrow t (ino t) (hret t)
    · intro hclear
      have hstep : ∀ x t, Clean V calls x → Clear fs V calls x t →
          True ∧ Clean V calls (x.step fs calls t) :=
        fun _ _ hx hok => ⟨trivial, hx.step hL hne hok⟩
      exact (along_of_inv hstep (clean_begin V calls s) hclear).2.separate hsound hret
  refine ⟨hiff, ?_⟩
  intro hfree
  have hnever : Along (Shared.step fs calls) (fun x t => ¬ Hidden fs V calls x t) (.begin s) sched := by
    have hstep : ∀ x t, Untouched V calls x →
        ¬ Hidden fs V calls x t ∧ Untouched V calls (x.step fs calls t) :=
      fun _ t hx => ⟨hx.not_hidden hL, hx.step hL hne t⟩
    exact along_of_steps hstep fun u _ => hfree u
  rw [hiff]
  constructor
  · exact fun hclear => (along_and_iff.mp hclear).1
  · exact fun hapart => along_and_iff.mpr ⟨hapart, hnever⟩

end Runs

/-! ## Two files made in one directory -/

def twoCreations : Caller → Creation
  | .first => ⟨2, nameA, 0, 0, 0⟩
  | .second => ⟨2, nameB, 0, 0, 0⟩

/-- Both calls pick before either has marked its inode. -/
def together : List Caller :=
  [.first, .second, .first, .first, .first, .second, .second, .second]

def inTurn : List Caller :=
  [.first, .first, .first, .first, .second, .second, .second, .second]

theorem creates_apart_in_turn :
    Separate RefState.view twoCreations bareRoot
      (inTurn.foldl (Shared.step refLibraryNew twoCreations) (.begin bareRoot)).state
      fun t => if t = .first then 11 else 12 := by
  have hret : ∀ t, (inTurn.foldl (Shared.step refLibraryNew twoCreations)
      (.begin bareRoot)).stage t = .returned (.ok (if t = .first then 11 else 12)) := by
    intro t
    cases t with
    | first => rfl
    | second => rfl
  have hfree : ∀ t, (RefState.view.volume bareRoot).named (twoCreations t).dir
      (twoCreations t).name = none := by
    intro t
    cases t with
    | first => rfl
    | second => rfl
  refine ((creates_apart refLibraryNew_lawful (by decide) bareRoot inTurn _ hret).2 hfree).mpr ?_
  refine ⟨?_, fun h => ?_, fun h => ?_, fun h => ?_, ?_, fun h => ?_, fun h => ?_, fun h => ?_,
    trivial⟩
  · rintro ⟨_, child, s', _, hother⟩
    cases hother
  · cases h.1
  · cases h.1
  · cases h.1
  · -- the first call has marked 11
    rintro ⟨_, child, s', hnew, hother⟩
    cases hother
    cases hnew
  · cases h.1
  · cases h.1
  · cases h.1

theorem picked_twice :
    LawfulNew refLibraryNew RefState.view ∧
    (∀ t, (RefState.view.volume bareRoot).named (twoCreations t).dir
      (twoCreations t).name = none) ∧
    (∀ t, (together.foldl (Shared.step refLibraryNew twoCreations) (.begin bareRoot)).stage t =
      .returned (.ok 11)) ∧
    ¬ Separate RefState.view twoCreations bareRoot
      (together.foldl (Shared.step refLibraryNew twoCreations) (.begin bareRoot)).state
      fun _ => 11 := by
  refine ⟨refLibraryNew_lawful, ?_, ?_, fun h => h.ne rfl⟩
  · intro t
    cases t with
    | first => rfl
    | second => rfl
  · intro t
    cases t with
    | first => rfl
    | second => rfl

end Ext
end Usbrw
