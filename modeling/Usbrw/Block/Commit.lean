import Usbrw.Block.ReadYourWrites

/-!
# Block.Commit

What the device holds after a `sync` that returned 0, over runs of `pread`, `pwrite` and `sync`.

* `Ledger`    — the device with the byte of the last `pwrite` that returned 0, for every address
  that one covered.
* `Commits`   — after a `sync` that returns 0 the device holds those bytes.
* `Ordered`   — no plain write goes under a dirty byte that says otherwise, and a `sync` that has
  nothing to call leaves no byte behind.
* `Slot.Due`  — the byte is on the device, or a dirty copy of it is on its way.
* `sync_commits` — a run whose steps are all ordered commits at every `sync`.

A flush comes later than the plain writes before it, so an older dirty byte overwrites a newer one
(`older_byte_wins`), and without `metadataFlush` a `sync` does nothing.
-/

namespace Usbrw
namespace Block

open Region Run

variable {σ : Type}

/-- `last p` is the byte the last `pwrite` that covered `p` and returned 0 stored there. -/
structure Ledger (σ : Type) where
  dev : NTFSBlockDevice σ
  last : Int → Option UInt8

def noted (last : Int → Option UInt8) (offset : Int64) (bytes : List UInt8) (rc : Int) :
    Int → Option UInt8 :=
  if rc = 0 then fun p => (cellAt bytes offset.toInt p).or (last p) else last

def advance (blockResource : Option (BlockResource σ)) (w : Ledger σ) : Op → Ledger σ
  | .pread offset len => { w with dev := (pread blockResource w.dev offset len).1 }
  | .pwrite offset bytes =>
    let r := pwrite blockResource w.dev offset bytes
    ⟨r.1, noted w.last offset bytes r.2⟩
  | .sync => { w with dev := (sync blockResource w.dev).1 }

/-- The device holds the byte of the last `pwrite` wherever there was one. -/
def OnDevice (v : View σ) (s : σ) (last : Int → Option UInt8) : Prop :=
  ∀ p b, last p = some b → v.device s p = b

def Commits (blockResource : Option (BlockResource σ)) (v : View σ) (w : Ledger σ) : Op → Prop
  | .sync =>
    let r := sync blockResource w.dev
    r.2 = 0 → OnDevice v r.1.resource w.last
  | _ => True

/-! ## When the order does not matter -/

/-- Every dirty byte of the range is the byte to be written. -/
def DirtyAgrees (v : View σ) (s : σ) (a : Int) (bytes : List UInt8) : Prop :=
  ∀ p b, cellAt bytes a p = some b → ∀ c, (v s p).cached = some c → c.dirty = true → c.byte = b

/-- No byte of the range is one that was stored and is on the device already, unless it stays the
same. -/
def SparesStored (v : View σ) (s : σ) (last : Int → Option UInt8) (a : Int) (bytes : List UInt8) :
    Prop :=
  ∀ p b, cellAt bytes a p = some b → ∀ b₀, last p = some b₀ →
    (∀ c, (v s p).cached = some c → c.dirty = false) → b = b₀

/-- Every dirty byte that was stored is on the device already. -/
def NothingPending (v : View σ) (s : σ) (last : Int → Option UInt8) : Prop :=
  ∀ p b, last p = some b → ∀ c, (v s p).cached = some c → c.dirty = true → v.device s p = b

section Conditions

variable (br : BlockResource σ) (v : View σ) (w : Ledger σ)

/-- A whole plain write contradicts no dirty byte, and a short one takes no stored byte. -/
def OrderedWrite (offset : Int64) (bytes : List UInt8) : Prop :=
  (bytes.length < metadataCutover ∧
    ∃ s, br.delayedMetadataWrite w.dev.resource offset bytes = (s, .ok ())) ∨
  ∀ s n, br.write (plainWriteState br w.dev offset bytes) offset bytes = (s, .ok n) →
    if n = bytes.length then DirtyAgrees v w.dev.resource offset.toInt bytes
    else SparesStored v w.dev.resource w.last offset.toInt (bytes.take n)

end Conditions

def Ordered (blockResource : Option (BlockResource σ)) (v : View σ) (w : Ledger σ) : Op → Prop
  | .pread _ _ => True
  | .pwrite offset bytes => ∀ br ∈ blockResource, OrderedWrite br v w offset bytes
  | .sync => ∀ br ∈ blockResource, br.metadataFlush = none →
    NothingPending v w.dev.resource w.last

/-! ## Bytes on their way to the device -/

namespace Slot

/-- The device will hold `b`: a dirty copy is of `b`, and without one the device has it. -/
structure Due (x : Slot) (b : UInt8) : Prop where
  dirty : ∀ c, x.cached = some c → c.dirty = true → c.byte = b
  clean : (∀ c, x.cached = some c → c.dirty = false) → x.device = b

variable {x y : Slot} {b : UInt8}

theorem Due.settle (h : x.Due b) (hs : Settle x y) : y.Due b := by
  cases hs with
  | keep => exact h
  | fill d =>
    have hd : d = b := h.clean (by simp)
    exact ⟨by simp, fun _ => hd⟩
  | drop d c =>
    have hd : d = b := h.clean (by simp)
    exact ⟨by simp, fun _ => hd⟩
  | writeBack d c =>
    have hc : c = b := h.dirty _ rfl rfl
    exact ⟨by simp, fun _ => hc⟩
  | evict d c =>
    have hc : c = b := h.dirty _ rfl rfl
    exact ⟨by simp, fun _ => hc⟩

theorem due_delayed (d b : UInt8) : (⟨d, some ⟨b, true⟩⟩ : Slot).Due b :=
  ⟨by simp, by simp⟩

/-- A byte stored on the device is due when no dirty copy contradicts it. -/
theorem due_stored (h : ∀ c, x.cached = some c → c.dirty = true → c.byte = b) :
    ({ x with device := b } : Slot).Due b :=
  ⟨h, fun _ => rfl⟩

/-- Where a dirty copy is on its way, what the device holds does not matter. -/
theorem Due.overwritten {d : UInt8} (h : x.Due b)
    (hd : (∀ c, x.cached = some c → c.dirty = false) → d = b) :
    ({ x with device := d } : Slot).Due b :=
  ⟨h.dirty, hd⟩

end Slot

def Pending (v : View σ) (s : σ) (last : Int → Option UInt8) : Prop :=
  ∀ p b, last p = some b → (v s p).Due b

section Invariant

variable {br : BlockResource σ} {v : View σ} {d : NTFSBlockDevice σ} {s s' : σ}
  {last : Int → Option UInt8} {offset : Int64}

theorem Pending.same (h : Pending v s last) (e : ∀ p, v s' p = v s p) : Pending v s' last := by
  intro p b hp
  rw [e p]
  exact h p b hp

theorem Pending.settle (h : Pending v s last) (e : ∀ p, (v s p).Settle (v s' p)) :
    Pending v s' last :=
  fun p b hp => (h p b hp).settle (e p)

/-! ## One call -/

theorem Pending.blockIORead (hR : Lawful br v) {len : Nat} (h : Pending v d.resource last) :
    Pending v (blockIORead br d offset len).1.resource last :=
  blockIORead_keeps hR (I := fun s => Pending v s last) (fun _ _ e h => h.settle e) h

theorem noted_of_cellAt {bytes : List UInt8} {p : Int} {b : UInt8}
    (h : cellAt bytes offset.toInt p = some b) : noted last offset bytes 0 p = some b := by
  simp [noted, h]

theorem noted_of_none {bytes : List UInt8} {p : Int} (h : cellAt bytes offset.toInt p = none) :
    noted last offset bytes 0 p = last p := by
  simp [noted, h]

theorem noted_failed {bytes : List UInt8} {rc : Int} (h : rc ≠ 0) :
    noted last offset bytes rc = last := if_neg h

theorem Pending.plainWrite (hR : Lawful br v) {bytes : List UInt8}
    (h : Pending v d.resource last)
    (hm : ∀ s n, br.write d.resource offset bytes = (s, .ok n) →
      if n = bytes.length then DirtyAgrees v d.resource offset.toInt bytes
      else SparesStored v d.resource last offset.toInt (bytes.take n)) :
    Pending v (plainWrite br d offset bytes).1.resource
      (noted last offset bytes (plainWrite br d offset bytes).2) := by
  simp only [Block.plainWrite]
  cases hw : br.write d.resource offset bytes with
  | mk s res =>
    cases res with
    | error t =>
      simp only [noted_failed t.rc_ne_zero]
      exact h.same (hR.write_throws hw)
    | ok n =>
      obtain ⟨_, hslot⟩ := hR.write_ok hw
      have hmn := hm s n hw
      by_cases hn : n = bytes.length
      · rw [if_pos hn] at hmn
        simp only [hn, List.take_length, if_true] at hslot ⊢
        intro p b hp
        rw [hslot p]
        cases hc : cellAt bytes offset.toInt p with
        | none =>
          rw [noted_of_none hc] at hp
          exact h p b hp
        | some b' =>
          rw [noted_of_cellAt hc] at hp
          cases hp
          exact Slot.due_stored (hmn p b hc)
      · rw [if_neg hn] at hmn
        simp only [if_neg hn, noted_failed (show EIO ≠ 0 by decide)]
        intro p b hp
        rw [hslot p]
        cases hc : cellAt (bytes.take n) offset.toInt p with
        | none => exact h p b hp
        | some b' => exact (h p b hp).overwritten (hmn p b' hc b hp)

theorem Pending.blockIOWrite (hR : Lawful br v) {bytes : List UInt8} {w : Ledger σ}
    (h : Pending v w.dev.resource w.last) (hm : OrderedWrite br v w offset bytes) :
    Pending v (blockIOWrite br w.dev offset bytes).1.resource
      (noted w.last offset bytes (blockIOWrite br w.dev offset bytes).2) := by
  by_cases hlt : bytes.length < metadataCutover
  · simp only [Block.blockIOWrite, if_pos hlt]
    cases hc : br.delayedMetadataWrite w.dev.resource offset bytes with
    | mk s res =>
      cases res with
      | ok u =>
        intro p b hp
        have hslot := hR.delayedMetadataWrite_ok hc p
        cases hcell : cellAt bytes offset.toInt p with
        | none =>
          rw [hcell] at hslot
          rw [noted_of_none hcell] at hp
          exact (h p b hp).settle hslot
        | some b' =>
          rw [hcell] at hslot
          rw [noted_of_cellAt hcell] at hp
          cases hp
          rw [hslot]
          exact Slot.due_delayed _ b
      | error t =>
        have hthrow := hR.delayedMetadataWrite_throws hc
        have hs : Pending v s w.last := h.same hthrow
        refine Pending.plainWrite hR (d := { w.dev with resource := s }) hs ?_
        intro s' n hw
        cases hm with
        | inl hcached =>
          obtain ⟨_, s₁, hok⟩ := hcached
          rw [hc] at hok
          cases hok
        | inr hplain =>
          have hwhen := hplain s' n (by simpa only [plainWriteState, if_pos hlt, hc] using hw)
          simpa only [DirtyAgrees, SparesStored, hthrow] using hwhen
  · simp only [Block.blockIOWrite, if_neg hlt]
    refine Pending.plainWrite hR h ?_
    intro s n hw
    cases hm with
    | inl hcached => exact absurd hcached.1 hlt
    | inr hplain => exact hplain s n (by simpa only [plainWriteState, if_neg hlt] using hw)

/-- A flush that went through brings every byte that is due to the device. -/
theorem flushed_onDevice (hR : Lawful br v) {flush : σ → σ × Except Thrown Unit}
    (hf : br.metadataFlush = some flush) (h : Pending v s last) (hr : flush s = (s', .ok ())) :
    OnDevice v s' last := by
  intro p b hp
  obtain ⟨hsettle, hclean⟩ := hR.metadataFlush_ok hf hr p
  exact ((h p b hp).settle hsettle).clean hclean

theorem Pending.onDevice (h : Pending v s last) (hn : NothingPending v s last) :
    OnDevice v s last := by
  intro p b hp
  by_cases hclean : ∀ c, (v s p).cached = some c → c.dirty = false
  · exact (h p b hp).clean hclean
  · simp only [not_forall, Bool.not_eq_false] at hclean
    obtain ⟨c, hc, hdirty⟩ := hclean
    exact hn p b hp c hc hdirty

end Invariant

/-! ## Runs -/

section Runs

variable {blockResource : Option (BlockResource σ)} {v : View σ}

theorem Pending.sync {w : Ledger σ} (hR : ∀ br ∈ blockResource, Lawful br v)
    (h : Pending v w.dev.resource w.last) :
    Pending v (sync blockResource w.dev).1.resource w.last := by
  cases hb : blockResource with
  | none => exact h
  | some br =>
    have hflush := h.settle (flushResource_settle (hR br hb) w.dev.resource)
    simp only [Block.sync]
    cases hf : flushResource br w.dev.resource with
    | mk s res =>
      rw [hf] at hflush
      cases res with
      | ok u => exact hflush
      | error t => exact hflush

theorem sync_onDevice {w : Ledger σ} (hR : ∀ br ∈ blockResource, Lawful br v)
    (h : Pending v w.dev.resource w.last) (hm : Ordered blockResource v w .sync) :
    Commits blockResource v w .sync := by
  intro h0
  cases hb : blockResource with
  | none =>
    rw [hb] at h0
    exact absurd h0 (show ENODEV ≠ 0 by decide)
  | some br =>
    rw [hb] at h0
    cases hf : br.metadataFlush with
    | none =>
      simp only [sync, flushResource, hf]
      exact h.onDevice (hm br hb hf)
    | some flush =>
      cases hr : flush w.dev.resource with
      | mk s res =>
        simp only [sync, flushResource, hf, hr] at h0 ⊢
        cases res with
        | ok u => exact flushed_onDevice (hR br hb) hf h hr
        | error t => exact absurd h0 (show EIO ≠ 0 by decide)

/-- One step: a `sync` commits, and what is stored stays on its way to the device. -/
theorem advance_commits (hR : ∀ br ∈ blockResource, Lawful br v) (w : Ledger σ) (op : Op)
    (h : Pending v w.dev.resource w.last) (hm : Ordered blockResource v w op) :
    Commits blockResource v w op ∧
      Pending v (advance blockResource w op).dev.resource (advance blockResource w op).last := by
  cases op with
  | sync => exact ⟨sync_onDevice hR h hm, h.sync hR⟩
  | pread offset len =>
    refine ⟨trivial, ?_⟩
    cases hb : blockResource with
    | none => exact h
    | some br => exact Pending.blockIORead (hR br hb) h
  | pwrite offset bytes =>
    refine ⟨trivial, ?_⟩
    cases hb : blockResource with
    | none => exact h
    | some br => exact Pending.blockIOWrite (hR br hb) h (hm br hb)

/-- In every run whose steps are all ordered, every `sync` that returns 0 is a commit point. The run
starts in any state of the resource. -/
theorem sync_commits (hR : ∀ br ∈ blockResource, Lawful br v) (d : NTFSBlockDevice σ)
    (ops : List Op)
    (hm : Along (advance blockResource) (Ordered blockResource v) ⟨d, fun _ => none⟩ ops) :
    Along (advance blockResource) (Commits blockResource v) ⟨d, fun _ => none⟩ ops := by
  have h0 : Pending v d.resource fun _ => none := by
    intro p b hp
    cases hp
  exact (along_of_inv (advance_commits hR) h0 hm).1

end Runs

/-! ## On the buffered disk -/

/-- A byte is written through the cache, synced, written again and synced. -/
theorem sync_commits_twice :
    Along (advance (some bufferedDisk)) (Commits (some bufferedDisk) slots)
      ⟨⟨zeros, false⟩, fun _ => none⟩ [.pwrite 0 [7], .sync, .pwrite 0 [8], .pread 0 1, .sync] := by
  have hcached : ∀ (w : Ledger (Int → Slot)) (b : UInt8),
      Ordered (some bufferedDisk) slots w (.pwrite 0 [b]) := by
    intro w b br hbr
    cases hbr
    exact .inl ⟨(by decide : 1 < metadataCutover), _, rfl⟩
  have hsync : ∀ w : Ledger (Int → Slot), Ordered (some bufferedDisk) slots w .sync := by
    intro w br hbr hnone
    cases hbr
    cases hnone
  exact sync_commits some_bufferedDisk_lawful _ _
    ⟨hcached _ 7, hsync _, hcached _ 8, trivial, hsync _, trivial⟩

/-- A disk without `metadataFlush`. -/
def unflushedDisk : BlockResource (Int → Slot) := { bufferedDisk with metadataFlush := none }

theorem unflushedDisk_lawful : Lawful unflushedDisk slots where
  metadataRead_ok := bufferedDisk_lawful.metadataRead_ok
  metadataRead_throws := bufferedDisk_lawful.metadataRead_throws
  delayedMetadataWrite_ok := bufferedDisk_lawful.delayedMetadataWrite_ok
  delayedMetadataWrite_throws := bufferedDisk_lawful.delayedMetadataWrite_throws
  read_ok := bufferedDisk_lawful.read_ok
  read_throws := bufferedDisk_lawful.read_throws
  write_ok := bufferedDisk_lawful.write_ok
  write_throws := bufferedDisk_lawful.write_throws
  metadataFlush_ok := fun hf => by cases hf
  metadataFlush_throws := fun hf => by cases hf

/-- On the buffered disk a long write stores its bytes on the device, under the cache. -/
theorem pwrite_bufferedDisk (d : NTFSBlockDevice (Int → Slot)) (offset : Int64)
    {bytes : List UInt8} (h : ¬ bytes.length < metadataCutover) :
    (pwrite (some bufferedDisk) d offset bytes).2 = 0 ∧
      ∀ p, ((pwrite (some bufferedDisk) d offset bytes).1.resource p).cached =
        (d.resource p).cached := by
  simp only [pwrite, blockIOWrite, if_neg h, plainWrite, bufferedDisk, if_true, true_and]
  intro p
  cases cellAt bytes offset.toInt p with
  | none => rfl
  | some b => rfl

/-- So a `sync` after it commits only if no dirty byte under it says otherwise. -/
theorem dirty_agrees_of_commits {w : Ledger (Int → Slot)} {offset : Int64} {bytes : List UInt8}
    {p : Int} {b b' : UInt8} (hlong : ¬ bytes.length < metadataCutover)
    (hcell : cellAt bytes offset.toInt p = some b)
    (hdirty : (w.dev.resource p).cached = some ⟨b', true⟩)
    (h : Commits (some bufferedDisk) slots (advance (some bufferedDisk) w (.pwrite offset bytes))
      .sync) : b' = b := by
  obtain ⟨hrc, hcached⟩ := pwrite_bufferedDisk w.dev offset hlong
  have hlast : noted w.last offset bytes (pwrite (some bufferedDisk) w.dev offset bytes).2 p =
      some b := by
    rw [hrc]
    exact noted_of_cellAt hcell
  have hdevice : ((pwrite (some bufferedDisk) w.dev offset bytes).1.resource p).flush.device = b :=
    h rfl p b hlast
  rw [Slot.flush, hcached p, hdirty] at hdevice
  exact hdevice

theorem cellAt_replicate {n : Nat} (h : 0 < n) (a : Int) (b : UInt8) :
    cellAt (List.replicate n b) a a = some b := by
  simp [cellAt, h]

/-- A small write, a large write over it and a `sync`: the flush puts the older byte over the newer
one. And without `metadataFlush` the `sync` after a small write leaves it in the cache. -/
theorem older_byte_wins :
    (Lawful bufferedDisk slots ∧
      ¬ Along (advance (some bufferedDisk)) (Commits (some bufferedDisk) slots)
        ⟨⟨zeros, false⟩, fun _ => none⟩
        [.pwrite 0 [7], .pwrite 0 (List.replicate 65536 9), .sync]) ∧
    (Lawful unflushedDisk slots ∧
      ¬ Along (advance (some unflushedDisk)) (Commits (some unflushedDisk) slots)
        ⟨⟨zeros, false⟩, fun _ => none⟩ [.pwrite 0 [7], .sync]) := by
  refine ⟨⟨bufferedDisk_lawful, ?_⟩, unflushedDisk_lawful, ?_⟩
  · rintro ⟨_, _, hsync, _⟩
    have hlong : ¬ (List.replicate 65536 (9 : UInt8)).length < metadataCutover := by
      rw [List.length_replicate]
      decide
    have h : (7 : UInt8) = 9 :=
      dirty_agrees_of_commits hlong (cellAt_replicate (by decide) 0 9) rfl hsync
    exact absurd h (by decide)
  · rintro ⟨_, hsync, _⟩
    exact absurd (hsync rfl 0 7 rfl) (by decide)

end Block
end Usbrw
