import Usbrw.Base.Run
import Usbrw.Ext.Loader

/-!
# Ext.Isolation

Which resource a volume's block I/O reaches.

* `Extension`      — the process: the shared holder, the loaded volumes, and for every request the
  resource its volume was loaded from with the one it reached.
* `Event`          — a load, or one callback of a loaded volume.
* `OwnHolder`      — the last load was of the volume's own resource.
* `isolated_iff`   — a run keeps every request at home when and only when that holds at each
  callback.
-/

namespace Usbrw
namespace Ext

open Block Shim Run

variable {ι σ : Type}

abbrev Watched (σ ι : Type) : Type := σ × List (ι × Touch)

structure Extension (ι σ : Type) where
  holder : BlockIOHolder ι σ
  volumes : List (EXTVolume ι (Watched σ ι))
  issued : List (ι × ι)

inductive Event (ι : Type) where
  | load (b : ι) (calls : List IoCall) (opened : Bool) (old : List UInt8)
  | io (volume : Nat) (call : IoCall)

namespace Extension

/-- The process before the first load. -/
def initial (w : σ) : Extension ι σ := ⟨⟨none, w⟩, [], []⟩

/-- The holder with an empty log. -/
def fresh (e : Extension ι σ) : BlockIOHolder ι (Watched σ ι) :=
  ⟨e.holder.block, e.holder.world, []⟩

/-- After requests of a volume loaded from `origin`: the log says where they went. -/
def record (e : Extension ι σ) (origin : ι) (h : BlockIOHolder ι (Watched σ ι)) :
    Extension ι σ :=
  { e with
    holder := ⟨h.block, h.world.1⟩
    issued := e.issued ++ h.world.2.map fun t => (origin, t.1) }

variable (res : ι → FSBlockDevice σ) (forceReadOnly : Bool)

/-- The resources with their logs. -/
def watched (i : ι) : FSBlockDevice (Watched σ ι) := watch (res i) i

def step (e : Extension ι σ) : Event ι → Extension ι σ
  | .load b calls opened old =>
    match loadResource (watched res) forceReadOnly e.fresh b calls opened old with
    | (h, none) => e.record b h
    | (h, some v) => { e.record b h with volumes := e.volumes ++ [v] }
  | .io volume call =>
    match e.volumes[volume]? with
    | none => e
    | some v => e.record v.origin (call.run v.io e.fresh)

/-- Every request reached the resource that its volume was loaded from. -/
def Isolated (e : Extension ι σ) : Prop := ∀ p ∈ e.issued, p.2 = p.1

/-- At a callback of a volume, the last load was of the resource of that volume. -/
def OwnHolder (e : Extension ι σ) : Event ι → Prop
  | .load _ _ _ _ => True
  | .io volume _ => ∀ v, e.volumes[volume]? = some v → e.holder.block = some v.origin

end Extension

/-! ## One callback -/

section Callback

variable {res : ι → FSBlockDevice σ} {h : BlockIOHolder ι (Watched σ ι)} {b : ι}

/-- A callback reaches the resource in the holder, once, whichever volume it belongs to. -/
theorem IoCall.run_touches (res : ι → FSBlockDevice σ) (hb : h.block = some b) (i : ι)
    (writable : Bool) (c : IoCall) :
    ∃ w t, c.run (loaderIo (Extension.watched res) i writable) h =
      ⟨some b, w, h.world.2 ++ [(b, t)]⟩ := by
  obtain ⟨block, w⟩ := h
  cases hb
  have hwatched : Extension.watched res = fun i => watch (res i) i := rfl
  rw [hwatched]
  cases c with
  | read off len =>
    obtain ⟨rc, data, hr⟩ := BlockIOHolder.read_watch res b w off len
    simp only [IoCall.run, NfskBlockio.callRead, loaderIo, hr]
    exact ⟨_, _, rfl⟩
  | write off data =>
    obtain ⟨rc, hr⟩ := BlockIOHolder.write_watch res b w off (UInt64.ofNat data.length) data
    simp only [IoCall.run, loaderIo, hr]
    exact ⟨_, _, rfl⟩
  | sync =>
    simp only [IoCall.run, loaderIo, BlockIOHolder.sync_watch]
    exact ⟨_, _, rfl⟩

/-- So does a run of them. -/
theorem run_touches (res : ι → FSBlockDevice σ) (hb : h.block = some b) (i : ι) (writable : Bool)
    (calls : List IoCall) :
    ∃ w l, calls.foldl (IoCall.run (loaderIo (Extension.watched res) i writable)) h =
      ⟨some b, w, h.world.2 ++ l⟩ ∧ ∀ p ∈ l, p.1 = b := by
  induction calls generalizing h with
  | nil =>
    obtain ⟨block, w, l⟩ := h
    exact ⟨w, [], by simpa using hb, by simp⟩
  | cons c calls ih =>
    obtain ⟨w, t, hrun⟩ := IoCall.run_touches res hb i writable c
    obtain ⟨w', l, hruns, hl⟩ := ih (h := ⟨some b, w, h.world.2 ++ [(b, t)]⟩) rfl
    refine ⟨w', (b, t) :: l, ?_, ?_⟩
    · rw [List.foldl_cons, hrun, hruns, List.append_assoc, List.singleton_append]
    · intro p hp
      rcases List.mem_cons.mp hp with rfl | hp
      · rfl
      · exact hl p hp

end Callback

/-! ## Runs -/

namespace Extension

variable {res : ι → FSBlockDevice σ} {forceReadOnly : Bool}

/-- The volumes have the callbacks of the loader, and there are none before a resource is held. -/
structure Ready (res : ι → FSBlockDevice σ) (e : Extension ι σ) : Prop where
  loaded : ∀ v ∈ e.volumes, ∃ writable, v.io = loaderIo (watched res) v.origin writable
  held : ∀ v ∈ e.volumes, ∃ b, e.holder.block = some b

theorem record_isolated {e : Extension ι σ} {origin : ι} {h : BlockIOHolder ι (Watched σ ι)} :
    (e.record origin h).Isolated ↔ e.Isolated ∧ ∀ t ∈ h.world.2, t.1 = origin := by
  simp only [Isolated, record, List.mem_append, List.mem_map]
  constructor
  · intro hall
    exact ⟨fun p hp => hall p (Or.inl hp), fun t ht => hall (origin, t.1) (Or.inr ⟨t, ht, rfl⟩)⟩
  · rintro ⟨hold, hnew⟩ p (hp | ⟨t, ht, rfl⟩)
    · exact hold p hp
    · exact hnew t ht

/-- A load reaches the resource it loads, and leaves it in the holder. -/
theorem loadResource_touches (res : ι → FSBlockDevice σ) (forceReadOnly : Bool)
    (h : BlockIOHolder ι (Watched σ ι)) (b : ι) (calls : List IoCall)
    (opened : Bool) (old : List UInt8) (hl : h.world.2 = []) :
    ∃ w l, (∀ p ∈ l, p.1 = b) ∧
      (loadResource (watched res) forceReadOnly h b calls opened old).1 = ⟨some b, w, l⟩ ∧
      ∀ v ∈ (loadResource (watched res) forceReadOnly h b calls opened old).2,
        v.origin = b ∧ ∃ writable, v.io = loaderIo (watched res) b writable := by
  obtain ⟨w, l, hrun, hown⟩ := run_touches res (h := h.setup b) rfl b
    ((watched res b).isWritable && !forceReadOnly) calls
  have hworld : (h.setup b).world.2 = [] := hl
  rw [hworld, List.nil_append] at hrun
  simp only [loadResource, hrun]
  cases opened with
  | false => exact ⟨w, l, hown, rfl, by simp⟩
  | true =>
    refine ⟨((res b).read w 0 1024).1, l ++ [(b, .transfer 0 1024)], ?_, ?_, ?_⟩
    · intro p hp
      rcases List.mem_append.mp hp with hp | hp
      · exact hown p hp
      · rw [List.mem_singleton.mp hp]
    · simp only [if_true, readVolumeID, watched, watch_read]
      rcases (res b).read w 0 1024 with ⟨s, e | bs⟩ <;> rfl
    · intro v hv
      simp only [if_true, Option.mem_def, Option.some.injEq] at hv
      rw [← hv]
      exact ⟨rfl, _, rfl⟩

/-- One step keeps the requests at home exactly where the volume's own resource is held. -/
theorem step_isolated (e : Extension ι σ) (o : Event ι) (hr : Ready res e) :
    Ready res (step res forceReadOnly e o) ∧
      ((step res forceReadOnly e o).Isolated ↔ e.Isolated ∧ e.OwnHolder o) := by
  cases o with
  | load b calls opened old =>
    obtain ⟨w, l, hown, hh, hv⟩ := loadResource_touches res forceReadOnly e.fresh b calls
      opened old rfl
    have hiso : (e.record b ⟨some b, w, l⟩).Isolated ↔
        e.Isolated ∧ e.OwnHolder (.load b calls opened old) := by
      rw [record_isolated]
      exact and_congr_right fun _ => ⟨fun _ => trivial, fun _ => hown⟩
    rcases hres : loadResource (watched res) forceReadOnly e.fresh b calls opened old with ⟨h, v⟩
    rw [hres] at hh hv
    subst hh
    cases v with
    | none =>
      simp only [step, hres]
      exact ⟨⟨hr.loaded, fun _ _ => ⟨b, rfl⟩⟩, hiso⟩
    | some v =>
      simp only [step, hres]
      refine ⟨⟨?_, fun _ _ => ⟨b, rfl⟩⟩, hiso⟩
      intro u hu
      rcases List.mem_append.mp hu with hu | hu
      · exact hr.loaded u hu
      · obtain ⟨horigin, hio⟩ := hv v rfl
        rw [List.mem_singleton.mp hu, horigin]
        exact hio
  | io volume call =>
    cases hvol : e.volumes[volume]? with
    | none =>
      simp only [step, hvol]
      exact ⟨hr, (and_iff_left (by simp [OwnHolder, hvol])).symm⟩
    | some v =>
      have hmem := List.mem_of_getElem? hvol
      obtain ⟨writable, hio⟩ := hr.loaded v hmem
      obtain ⟨b, hb⟩ := hr.held v hmem
      obtain ⟨w, t, hrun⟩ := IoCall.run_touches res (h := e.fresh) hb v.origin writable call
      simp only [step, hvol, hio, hrun]
      refine ⟨⟨hr.loaded, fun _ _ => ⟨b, rfl⟩⟩, ?_⟩
      rw [record_isolated]
      refine and_congr_right fun _ => ?_
      simp [fresh, OwnHolder, hvol, hb]

/-- In a run every request reaches the resource of its volume when, and only when, each callback of a
volume comes while the last load was of that volume's resource. -/
theorem isolated_iff (res : ι → FSBlockDevice σ) (forceReadOnly : Bool) (w : σ)
    (events : List (Event ι)) :
    (events.foldl (step res forceReadOnly) (initial w)).Isolated ↔
      Along (step res forceReadOnly) OwnHolder (initial w) events := by
  have hr : Ready res (initial w : Extension ι σ) := by
    constructor <;> simp [initial]
  rw [foldl_iff_along step_isolated hr]
  exact and_iff_right (by simp [Isolated, initial])

/-- Disks of blocks of 512 bytes without a cache; the state holds the bytes of each. -/
def disks (i : Nat) : FSBlockDevice (Nat → Int → UInt8) where
  metadataRead := fun s off len => (s, .ok ((List.range len).map fun k => s i (off.toInt + k)))
  delayedMetadataWrite := fun s _ _ => (s, .error .other)
  read := fun s off len => (s, .ok ((List.range len).map fun k => s i (off.toInt + k)))
  write := fun s off bytes =>
    (fun j p => if j = i then (Region.cellAt bytes off.toInt p).getD (s j p) else s j p,
      .ok bytes.length)
  metadataFlush := none
  blockSize := 512
  blockCount := 8
  isWritable := true

/-- Disk 0 and disk 1 are loaded, and the volume of disk 0 writes one block. -/
def twoLoaded : List (Event Nat) :=
  [.load 0 [] true [], .load 1 [] true [], .io 0 (.write 0 (List.replicate 512 7))]

set_option maxRecDepth 4000 in
/-- The block is on disk 1. -/
theorem written_to_other :
    ¬ (twoLoaded.foldl (step disks false) (initial fun _ _ => 0)).Isolated ∧
    (twoLoaded.foldl (step disks false) (initial fun _ _ => 0)).holder.world 1 0 = 7 ∧
    (twoLoaded.foldl (step disks false) (initial fun _ _ => 0)).holder.world 0 0 = 0 := by
  refine ⟨fun h => ?_, by decide, by decide⟩
  exact absurd (h (0, 1) (by decide)) (by decide)

end Extension

end Ext
end Usbrw
