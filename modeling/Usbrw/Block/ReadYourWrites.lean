import Usbrw.Base.Run
import Usbrw.Block.Device
import Usbrw.Block.Reference

/-!
# Block.ReadYourWrites

What a `pread` delivers, over runs of `pread`, `pwrite` and `sync`.

* `Session`   — the device with the memory a client of it expects: `stored` takes the bytes of
  every `pwrite` that returned 0.
* `Delivers`  — a `pread` that returns 0 delivers the stored bytes.
* `Meets`     — no plain transfer goes past a cached byte that says otherwise.
* `Coherent`  — the invariant: every slot of the resource stands for its stored byte.

A plain transfer never looks at the cache, so `Delivers` fails after a small write that a large
read passes by (`small_write_large_read`). Where every step meets `Meets` it holds all along.
-/

namespace Usbrw
namespace Block

open Region Run

variable {σ : Type}

structure Session (σ : Type) where
  dev : NTFSBlockDevice σ
  stored : Int → UInt8

inductive Op where
  | pread (offset : Int64) (len : Nat)
  | pwrite (offset : Int64) (bytes : List UInt8)
  | sync

/-- The memory a client expects after a `pwrite` that returned `rc`. -/
def expected (stored : Int → UInt8) (offset : Int64) (bytes : List UInt8) (rc : Int) :
    Int → UInt8 :=
  if rc = 0 then store stored offset.toInt bytes else stored

def step (blockResource : Option (BlockResource σ)) (w : Session σ) : Op → Session σ
  | .pread offset len => { w with dev := (pread blockResource w.dev offset len).1 }
  | .pwrite offset bytes =>
    let r := pwrite blockResource w.dev offset bytes
    ⟨r.1, expected w.stored offset bytes r.2⟩
  | .sync => { w with dev := (sync blockResource w.dev).1 }

/-- A `pread` that returns 0 fills the buffer with the stored bytes. -/
def Delivers (blockResource : Option (BlockResource σ)) (w : Session σ) : Op → Prop
  | .pread offset len =>
    let r := pread blockResource w.dev offset len
    r.2.1 = 0 → r.2.2.length = len ∧ Carries w.stored offset.toInt r.2.2
  | _ => True

/-! ## When a plain transfer is harmless -/

/-- Every byte of the range the cache holds is the device's byte. -/
def Synced (v : View σ) (s : σ) (a : Int) (len : Nat) : Prop :=
  ∀ p, a ≤ p → p < a + len → ∀ c, (v s p).cached = some c → c.byte = (v s p).device

/-- Every byte of the range the cache holds is the byte to be written. -/
def CacheAgrees (v : View σ) (s : σ) (a : Int) (bytes : List UInt8) : Prop :=
  ∀ p b, cellAt bytes a p = some b → ∀ c, (v s p).cached = some c → c.byte = b

/-- Every byte of the range is on the device already, or is due to be written back there. -/
def Redundant (v : View σ) (s : σ) (a : Int) (bytes : List UInt8) : Prop :=
  ∀ p b, cellAt bytes a p = some b → (∀ c, (v s p).cached = some c → c.dirty = false) →
    (v s p).device = b

section Conditions

variable (br : BlockResource σ) (v : View σ) (d : NTFSBlockDevice σ) (offset : Int64)

/-- The small read is served by the cache. -/
def ReadCached (len : Nat) : Prop :=
  len < metadataCutover ∧ ∃ s bs, br.metadataRead d.resource offset len = (s, .ok bs)

/-- The small read throws, and the flush that follows reaches the device. -/
def ReadFlushed (len : Nat) : Prop :=
  len < metadataCutover ∧ d.cacheDirty = true ∧ ∃ s t flush s',
    br.metadataRead d.resource offset len = (s, .error t) ∧
      br.metadataFlush = some flush ∧ flush s = (s', .ok ())

/-- The device on which the plain read of a `pread` runs. -/
def plainReadState (len : Nat) : NTFSBlockDevice σ :=
  if len < metadataCutover then
    flushIfDirty br { d with resource := (br.metadataRead d.resource offset len).1 }
  else d

/-- The state in which the plain write of a `pwrite` runs. -/
def plainWriteState (bytes : List UInt8) : σ :=
  if bytes.length < metadataCutover then (br.delayedMetadataWrite d.resource offset bytes).1
  else d.resource

/-- A whole plain read passes no cached byte that differs from the device. -/
def MeetsRead (len : Nat) : Prop :=
  ReadCached br d offset len ∨ ReadFlushed br d offset len ∨
    ∀ s bs, br.read (plainReadState br d offset len).resource offset len = (s, .ok bs) →
      bs.length = len → Synced v d.resource offset.toInt len

/-- A whole plain write contradicts no cached byte, and a short one stores nothing new. -/
def MeetsWrite (bytes : List UInt8) : Prop :=
  (bytes.length < metadataCutover ∧
    ∃ s, br.delayedMetadataWrite d.resource offset bytes = (s, .ok ())) ∨
  ∀ s n, br.write (plainWriteState br d offset bytes) offset bytes = (s, .ok n) →
    if n = bytes.length then CacheAgrees v d.resource offset.toInt bytes
    else Redundant v d.resource offset.toInt (bytes.take n)

end Conditions

def Meets (blockResource : Option (BlockResource σ)) (v : View σ) (w : Session σ) : Op → Prop
  | .pread offset len => ∀ br ∈ blockResource, MeetsRead br v w.dev offset len
  | .pwrite offset bytes => ∀ br ∈ blockResource, MeetsWrite br v w.dev offset bytes
  | .sync => True

/-! ## Every slot stands for its stored byte -/

def Coherent (v : View σ) (s : σ) (stored : Int → UInt8) : Prop := ∀ p, (v s p).Holds (stored p)

section Coherence

variable {br : BlockResource σ} {v : View σ} {s s' : σ} {stored : Int → UInt8}

theorem Coherent.same (h : Coherent v s stored) (e : ∀ p, v s' p = v s p) :
    Coherent v s' stored := by
  intro p
  rw [e p]
  exact h p

theorem Coherent.settle (h : Coherent v s stored) (e : ∀ p, (v s p).Settle (v s' p)) :
    Coherent v s' stored :=
  fun p => (h p).settle (e p)

theorem Coherent.seen (h : Coherent v s stored) : v.seen s = stored :=
  funext fun p => (h p).seen

theorem flushResource_settle (hR : Lawful br v) (s : σ) (p : Int) :
    (v s p).Settle (v (flushResource br s).1 p) := by
  cases hf : br.metadataFlush with
  | none => simpa only [flushResource, hf] using .keep _
  | some flush =>
    simp only [flushResource, hf]
    cases hr : flush s with
    | mk s' res =>
      cases res with
      | ok u => exact (hR.metadataFlush_ok hf hr p).1
      | error t => rw [hR.metadataFlush_throws hf hr p]; exact .keep _

theorem flushIfDirty_settle (hR : Lawful br v) (d : NTFSBlockDevice σ) (p : Int) :
    (v d.resource p).Settle (v (flushIfDirty br d).resource p) := by
  unfold flushIfDirty
  split
  · exact flushResource_settle hR d.resource p
  · exact .keep _

end Coherence

/-! ## One `pread` -/

section Read

variable {br : BlockResource σ} {v : View σ} {d : NTFSBlockDevice σ} {stored : Int → UInt8}
  {offset : Int64} {len : Nat}

/-- What survives the cache's own steps survives a plain read. -/
theorem plainRead_keeps (hR : Lawful br v) {I : σ → Prop}
    (hI : ∀ s s', (∀ p, (v s p).Settle (v s' p)) → I s → I s') (h : I d.resource) :
    I (plainRead br d offset len).1.resource := by
  have hsame : ∀ s s', (∀ p, v s' p = v s p) → I s → I s' := fun s s' e =>
    hI s s' fun p => by rw [e p]; exact .keep _
  simp only [Block.plainRead]
  cases hr : br.read d.resource offset len with
  | mk s res =>
    cases res with
    | ok bs => exact hsame _ _ (hR.read_ok hr).2.2 h
    | error t => exact hsame _ _ (hR.read_throws hr) h

/-- And any other read. -/
theorem blockIORead_keeps (hR : Lawful br v) {I : σ → Prop}
    (hI : ∀ s s', (∀ p, (v s p).Settle (v s' p)) → I s → I s') (h : I d.resource) :
    I (blockIORead br d offset len).1.resource := by
  unfold Block.blockIORead
  split
  · cases hm : br.metadataRead d.resource offset len with
    | mk s res =>
      cases res with
      | ok bs => exact hI _ _ (hR.metadataRead_ok hm).2.2 h
      | error t =>
        have hs : I s := hI _ _ (fun p => by rw [hR.metadataRead_throws hm p]; exact .keep _) h
        exact plainRead_keeps hR hI (hI _ _ (flushIfDirty_settle hR { d with resource := s }) hs)
  · exact plainRead_keeps hR hI h

theorem Coherent.blockIORead (hR : Lawful br v) (h : Coherent v d.resource stored) :
    Coherent v (blockIORead br d offset len).1.resource stored :=
  blockIORead_keeps hR (I := fun s => Coherent v s stored) (fun _ _ e h => h.settle e) h

/-- A plain read delivers the stored bytes when the device has them. -/
theorem plainRead_delivers (hR : Lawful br v)
    (hdev : ∀ s bs, br.read d.resource offset len = (s, .ok bs) → bs.length = len →
      ∀ p, offset.toInt ≤ p → p < offset.toInt + len → (v d.resource p).device = stored p)
    (h0 : (plainRead br d offset len).2.1 = 0) :
    (plainRead br d offset len).2.2.length = len ∧
      Carries stored offset.toInt (plainRead br d offset len).2.2 := by
  simp only [Block.plainRead] at h0 ⊢
  cases hr : br.read d.resource offset len with
  | mk s res =>
    cases res with
    | error t =>
      simp only [hr] at h0
      exact absurd h0 t.rc_ne_zero
    | ok bs =>
      simp only [hr] at h0 ⊢
      have hlen : bs.length = len := by
        by_contra hne
        rw [if_neg hne] at h0
        cases h0
      refine ⟨hlen, (hR.read_ok hr).2.1.congr ?_⟩
      intro p h1 h2
      rw [hlen] at h2
      exact (hdev s bs hr hlen p h1 h2).symm

/-- After a flush that reached the device, nothing is dirty. -/
theorem clean_of_flush (hR : Lawful br v) {s s' : σ} {flush : σ → σ × Except Thrown Unit}
    (hf : br.metadataFlush = some flush) (hr : flush s = (s', .ok ())) :
    ∀ p c, (v (flushResource br s).1 p).cached = some c → c.dirty = false := by
  intro p c hc
  simp only [flushResource, hf, hr] at hc
  exact (hR.metadataFlush_ok hf hr p).2 c hc

theorem blockIORead_delivers (hR : Lawful br v) (h : Coherent v d.resource stored)
    (hm : MeetsRead br v d offset len) (h0 : (blockIORead br d offset len).2.1 = 0) :
    (blockIORead br d offset len).2.2.length = len ∧
      Carries stored offset.toInt (blockIORead br d offset len).2.2 := by
  by_cases hlt : len < metadataCutover
  · simp only [blockIORead, if_pos hlt] at h0 ⊢
    cases hc : br.metadataRead d.resource offset len with
    | mk s res =>
      cases res with
      | ok bs =>
        obtain ⟨hlen, hcar, _⟩ := hR.metadataRead_ok hc
        rw [h.seen] at hcar
        exact ⟨hlen, hcar⟩
      | error t =>
        simp only [hc] at h0
        have hthrow := hR.metadataRead_throws hc
        have hs : Coherent v s stored := h.same hthrow
        refine plainRead_delivers hR ?_ h0
        intro s' bs hr hlen p h1 h2
        have hsettle := flushIfDirty_settle hR { d with resource := s } p
        rcases hm with ⟨_, s₁, bs₁, hok⟩ | ⟨_, hdirty, s₁, t₁, flush, s₂, hth, hf, hfl⟩ | hplain
        · rw [hc] at hok; cases hok
        · rw [hc] at hth
          cases hth
          refine ((hs p).settle hsettle).device_of_clean ?_
          simp only [flushIfDirty, hdirty, if_true]
          exact clean_of_flush hR hf hfl p
        · have hsync : Synced v d.resource offset.toInt len :=
            hplain s' bs (by simpa only [plainReadState, if_pos hlt, hc] using hr) hlen
          have hdev : (v s p).device = stored p := by
            rw [hthrow p]
            exact (h p).device_iff.mpr (hsync p h1 h2)
          exact (hs p).settle_device hdev hsettle
  · simp only [blockIORead, if_neg hlt] at h0 ⊢
    refine plainRead_delivers hR ?_ h0
    intro s bs hr hlen p h1 h2
    rcases hm with ⟨hlt', _⟩ | ⟨hlt', _⟩ | hplain
    · exact absurd hlt' hlt
    · exact absurd hlt' hlt
    · have hsync := hplain s bs (by simpa only [plainReadState, if_neg hlt] using hr) hlen
      exact (h p).device_iff.mpr (hsync p h1 h2)

end Read

/-! ## One `pwrite` -/

section Write

variable {br : BlockResource σ} {v : View σ} {d : NTFSBlockDevice σ} {stored : Int → UInt8}
  {offset : Int64} {bytes : List UInt8}

theorem Coherent.plainWrite (hR : Lawful br v) (h : Coherent v d.resource stored)
    (hm : ∀ s n, br.write d.resource offset bytes = (s, .ok n) →
      if n = bytes.length then CacheAgrees v d.resource offset.toInt bytes
      else Redundant v d.resource offset.toInt (bytes.take n)) :
    Coherent v (plainWrite br d offset bytes).1.resource
      (expected stored offset bytes (plainWrite br d offset bytes).2) := by
  simp only [Block.plainWrite]
  cases hw : br.write d.resource offset bytes with
  | mk s res =>
    cases res with
    | error t =>
      simp only [expected, if_neg t.rc_ne_zero]
      exact h.same (hR.write_throws hw)
    | ok n =>
      obtain ⟨_, hslot⟩ := hR.write_ok hw
      have hmn := hm s n hw
      by_cases hn : n = bytes.length
      · rw [if_pos hn] at hmn
        simp only [hn, List.take_length, if_true, expected] at hslot ⊢
        intro p
        rw [hslot p]
        cases hc : cellAt bytes offset.toInt p with
        | none => rw [store_of_none hc]; exact h p
        | some b =>
          rw [store_of_cellAt hc]
          exact Slot.holds_overwritten (hmn p b hc)
      · rw [if_neg hn] at hmn
        simp only [if_neg hn, expected]
        rw [if_neg (show EIO ≠ 0 by decide)]
        intro p
        rw [hslot p]
        cases hc : cellAt (bytes.take n) offset.toInt p with
        | none => exact h p
        | some b => exact (h p).overwrite_same (hmn p b hc)

theorem Coherent.blockIOWrite (hR : Lawful br v) (h : Coherent v d.resource stored)
    (hm : MeetsWrite br v d offset bytes) :
    Coherent v (blockIOWrite br d offset bytes).1.resource
      (expected stored offset bytes (blockIOWrite br d offset bytes).2) := by
  by_cases hlt : bytes.length < metadataCutover
  · simp only [Block.blockIOWrite, if_pos hlt]
    cases hc : br.delayedMetadataWrite d.resource offset bytes with
    | mk s res =>
      cases res with
      | ok u =>
        have hslot := hR.delayedMetadataWrite_ok hc
        simp only [expected, if_true]
        intro p
        have hp := hslot p
        cases hcell : cellAt bytes offset.toInt p with
        | none =>
          rw [hcell] at hp
          rw [store_of_none hcell]
          exact (h p).settle hp
        | some b =>
          rw [hcell] at hp
          rw [store_of_cellAt hcell, hp]
          exact ⟨rfl, fun hd => Bool.noConfusion hd⟩
      | error t =>
        have hthrow := hR.delayedMetadataWrite_throws hc
        have hs : Coherent v s stored := h.same hthrow
        refine Coherent.plainWrite hR (d := { d with resource := s }) hs ?_
        intro s' n hw
        obtain ⟨_, s₁, hok⟩ | hplain := hm
        · rw [hc] at hok; cases hok
        · have hwhen := hplain s' n (by simpa only [plainWriteState, if_pos hlt, hc] using hw)
          simpa only [CacheAgrees, Redundant, hthrow] using hwhen
  · simp only [Block.blockIOWrite, if_neg hlt]
    refine Coherent.plainWrite hR h ?_
    intro s n hw
    obtain ⟨hlt', _⟩ | hplain := hm
    · exact absurd hlt' hlt
    · exact hplain s n (by simpa only [plainWriteState, if_neg hlt] using hw)

end Write

/-! ## Runs -/

section Runs

variable {blockResource : Option (BlockResource σ)} {v : View σ}

theorem Coherent.sync {d : NTFSBlockDevice σ} {stored : Int → UInt8}
    (hR : ∀ br ∈ blockResource, Lawful br v) (h : Coherent v d.resource stored) :
    Coherent v (sync blockResource d).1.resource stored := by
  cases hb : blockResource with
  | none => exact h
  | some br =>
    have hflush := h.settle (flushResource_settle (hR br hb) d.resource)
    simp only [Block.sync]
    cases hf : flushResource br d.resource with
    | mk s res =>
      rw [hf] at hflush
      cases res with
      | ok u => exact hflush
      | error t => exact hflush

/-- A sync that went through leaves no byte in the cache that differs from the device. -/
theorem synced_of_sync {br : BlockResource σ} {d : NTFSBlockDevice σ} {stored : Int → UInt8}
    {flush : σ → σ × Except Thrown Unit} (hR : Lawful br v) (hf : br.metadataFlush = some flush)
    (h : Coherent v d.resource stored) (h0 : (sync (some br) d).2 = 0) (a : Int) (len : Nat) :
    Synced v (sync (some br) d).1.resource a len := by
  have hsettle := h.settle (flushResource_settle hR d.resource)
  cases hr : flush d.resource with
  | mk s res =>
    cases res with
    | ok u =>
      have hclean := clean_of_flush hR hf hr
      simp only [Block.sync, flushResource, hf, hr] at hsettle hclean ⊢
      intro p _ _
      exact (hsettle p).device_iff.mp ((hsettle p).device_of_clean (hclean p))
    | error t =>
      simp only [Block.sync, flushResource, hf, hr] at h0
      exact absurd h0 (show EIO ≠ 0 by decide)

/-- One step: the operation delivers what it should and every slot still stands for its byte. -/
theorem step_delivers (hR : ∀ br ∈ blockResource, Lawful br v) (w : Session σ) (op : Op)
    (h : Coherent v w.dev.resource w.stored) (hm : Meets blockResource v w op) :
    Delivers blockResource w op ∧
      Coherent v (step blockResource w op).dev.resource (step blockResource w op).stored := by
  cases hb : blockResource with
  | none =>
    cases op with
    | pread offset len => exact ⟨fun h0 => absurd h0 (show ENODEV ≠ 0 by decide), h⟩
    | pwrite offset bytes => exact ⟨trivial, h⟩
    | sync => exact ⟨trivial, h⟩
  | some br =>
    have hbr := hR br hb
    rw [hb] at hm
    cases op with
    | pread offset len =>
      exact ⟨blockIORead_delivers hbr h (hm br rfl), Coherent.blockIORead hbr h⟩
    | pwrite offset bytes => exact ⟨trivial, Coherent.blockIOWrite hbr h (hm br rfl)⟩
    | sync => exact ⟨trivial, Coherent.sync (by rw [← hb]; exact hR) h⟩

end Runs

/-- A device no one has written to: the cache holds at most clean copies of the device's bytes. -/
def Unwritten (v : View σ) (s : σ) : Prop := ∀ p, (v s p).Holds (v s p).device

/-- The session that starts on the resource state `s`. -/
def start (v : View σ) (s : σ) : Session σ := ⟨⟨s, false⟩, v.device s⟩

/-- In every run whose steps all meet their condition, every `pread` delivers what was stored. -/
theorem read_your_writes {blockResource : Option (BlockResource σ)} {v : View σ}
    (hR : ∀ br ∈ blockResource, Lawful br v) {s : σ} (hs : Unwritten v s) (ops : List Op)
    (hm : Along (step blockResource) (Meets blockResource v) (start v s) ops) :
    Along (step blockResource) (Delivers blockResource) (start v s) ops := by
  have h0 : Coherent v (start v s).dev.resource (start v s).stored := hs
  exact (along_of_inv (step_delivers hR) h0 hm).1

section Reference

variable {d : NTFSBlockDevice (Int → Slot)} {offset : Int64} {len : Nat}

theorem some_bufferedDisk_lawful : ∀ br ∈ some bufferedDisk, Lawful br slots := by
  intro br hbr
  cases hbr
  exact bufferedDisk_lawful

/-- On the buffered disk a long read returns the device's bytes, whatever the cache holds. -/
theorem pread_bufferedDisk (h : ¬ len < metadataCutover) :
    pread (some bufferedDisk) d offset len =
      (d, 0, load (slots.device d.resource) offset.toInt len) := by
  simp only [pread, blockIORead, if_neg h, plainRead, bufferedDisk, length_load, if_true]

/-- So it delivers the stored bytes only when the device has them. -/
theorem device_of_delivers {w : Session (Int → Slot)} (h : ¬ len < metadataCutover)
    (hd : Delivers (some bufferedDisk) w (.pread offset len)) {p : Int} (h1 : offset.toInt ≤ p)
    (h2 : p < offset.toInt + len) : w.stored p = (w.dev.resource p).device := by
  simp only [Delivers, pread_bufferedDisk h, forall_const] at hd
  have hdev := carries_load (slots.device w.dev.resource) offset.toInt len
  obtain ⟨x, hx⟩ := cellAt_inside h1 (by rwa [← hd.1] at h2)
  rw [hd.2 p x hx, ← hdev p x hx]
  rfl

end Reference

/-- Bytes written through the cache, synced, and read back by a large and a small read. -/
theorem read_your_writes_synced :
    Along (step (some bufferedDisk)) (Delivers (some bufferedDisk)) (start slots zeros)
      [.pwrite 0 [7], .sync, .pread 0 65536, .pread 0 1] := by
  refine read_your_writes (v := slots) some_bufferedDisk_lawful ?_ _ ?_
  · intro p
    rfl
  · have hw : Meets (some bufferedDisk) slots (start slots zeros) (.pwrite 0 [7]) := by
      intro br hbr
      cases hbr
      exact Or.inl ⟨by decide, _, rfl⟩
    refine ⟨hw, trivial, ?_, ?_, trivial⟩
    · intro br hbr
      cases hbr
      have h0 : Coherent slots (start slots zeros).dev.resource (start slots zeros).stored :=
        fun p => rfl
      have h1 := (step_delivers some_bufferedDisk_lawful _ _ h0 hw).2
      exact Or.inr (Or.inr fun _ _ _ _ => synced_of_sync bufferedDisk_lawful rfl h1 rfl _ _)
    · intro br hbr
      cases hbr
      exact Or.inl ⟨by decide, _, _, rfl⟩

/-- A small write followed by a large read of the same byte. The write stays in the cache, the read
goes past it to the device. -/
theorem small_write_large_read :
    Lawful bufferedDisk slots ∧ Unwritten slots zeros ∧
      ¬ Along (step (some bufferedDisk)) (Delivers (some bufferedDisk)) (start slots zeros)
        [.pwrite 0 [7], .pread 0 65536] := by
  refine ⟨bufferedDisk_lawful, fun p => rfl, ?_⟩
  rintro ⟨_, hread, _⟩
  have h : (7 : UInt8) = 0 := device_of_delivers (p := 0) (by decide) hread (by decide) (by decide)
  exact absurd h (by decide)

end Block
end Usbrw
