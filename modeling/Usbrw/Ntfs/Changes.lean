import Usbrw.Ntfs.Record

/-!
# Ntfs.Changes

What a request to set attributes makes of an MFT record.

* `DataStream.resize` — a stream of another size.
* `Record.setattr`    — the record afterwards, by what the request asks for.
* `setattr_time`, `setattr_hidden` — the times and the hidden bit it has then.
* `Record.plain`      — a record without what is not told of it: where its data is, and how it is stored.
* `stat_plain`        — that nothing else of it is told, but for the allocated size.
-/

namespace Usbrw

namespace Ntfs

open Call

variable {σ : Type}

/-! ## Streams of the same bytes -/

namespace DataStream

variable {d d' d'' : DataStream} {n : Nat}

theorem bytes_length (d : DataStream) : d.bytes.length = d.size := by simp [bytes]

/-- What `resizeAttr` makes of a stream. -/
def resize (d : DataStream) (n : Nat) : DataStream :=
  if d.Compressed ∧ d.initialized < n then d.write (n - 1) [0] else d.truncate n

theorem resize_resizedBy (d : DataStream) (n : Nat) : d.ResizedBy n (d.resize n) := by
  unfold ResizedBy resize
  by_cases hc : d.Compressed ∧ d.initialized < n
  · rw [if_pos hc, if_pos hc]
    exact d.write_written (n - 1) [0]
  · rw [if_neg hc, if_neg hc]
    exact d.truncate_truncated n

theorem resize_size (d : DataStream) (n : Nat) : (d.resize n).size = n :=
  (d.resize_resizedBy n).resized.size

/-- The first `n` bytes, with zeros past the end. -/
def first (d : DataStream) (n : Nat) : List UInt8 := (List.range n).map d.byte

theorem resize_bytes (d : DataStream) (n : Nat) : (d.resize n).bytes = d.first n := by
  have hres := (d.resize_resizedBy n).resized
  unfold bytes first
  rw [d.resize_size]
  refine List.map_congr_left fun p hp => ?_
  have hlt := List.mem_range.mp hp
  by_cases hin : p < d.size
  · exact hres.kept p (by omega)
  · rw [hres.grown p (by omega) hlt, d.zero_of_size_le (by omega)]

end DataStream

/-! ## Changes of a record -/

/-- The bit of `which` that asks for a time. -/
def InodeTime.bit : InodeTime → UInt32
  | .lastDataChange => 16
  | .lastAccess => 64
  | .creation => 128

namespace Record

theorem map_stream_lt (rec : Record) (d : DataStream)
    (h : (rec.stream.map fun d => DataStream.ofBytes d.bytes) = .ok d) : d.size < 2 ^ 63 := by
  cases hd : rec.stream with
  | error e =>
    rw [hd] at h
    cases h
  | ok d' =>
    rw [hd] at h
    cases h
    have hlt := rec.stream_lt d' hd
    rw [← d'.bytes_length] at hlt
    exact hlt

/-- Neither where the data is nor how it is stored is told of a record. -/
def plain (rec : Record) : Record :=
  { rec with
    stream := rec.stream.map fun d => DataStream.ofBytes d.bytes
    allocatedSize := 0
    stream_lt := rec.map_stream_lt }

def setFlags (rec : Record) (flags : UInt32) : Record := { rec with flags := flags }

/-- A size that cannot be set is none. -/
def resized (rec : Record) (n : UInt64) : Record :=
  match rec.stream with
  | .error _ => rec
  | .ok d =>
    if hd : (d.resize n.toNat).size < 2 ^ 63 then
      let rec' := rec.setStream (d.resize n.toNat) hd
      if Int64.ofNat d.size ≠ n.toInt64 then rec'.setFlags (rec'.flags ||| FILE_ATTR_ARCHIVE)
      else rec'
    else rec

def resize (rec : Record) (n : UInt64) (now : Int64) : Record := (rec.resized n).touch now .mctime

def Resizable (rec : Record) (n : UInt64) : Prop := n.toNat < 2 ^ 63 ∧ ∃ d, rec.stream = .ok d

def setTimes (rec : Record) (lib : Libsetattr σ) (st : NfskStat) (which : UInt32) (now : Int64) :
    Record :=
  if which &&& (16 ||| 64 ||| 128) ≠ 0 then
    let rec₁ := if which &&& 16 ≠ 0 then
      rec.setTime (lib.timespec2ntfs st.mtime) .lastDataChange else rec
    let rec₂ := if which &&& 64 ≠ 0 then
      rec₁.setTime (lib.timespec2ntfs st.atime) .lastAccess else rec₁
    let rec₃ := if which &&& 128 ≠ 0 then
      rec₂.setTime (lib.timespec2ntfs st.btime) .creation else rec₂
    rec₃.touch now .ctime
  else rec

/-- The record as a request leaves it that is carried out at the time `now`. -/
def setattr (rec : Record) (lib : Libsetattr σ) (st : NfskStat) (which : UInt32) (now : Int64) : Record :=
  let rec₁ := if which &&& 8 ≠ 0 then rec.resize st.size now else rec
  let rec₂ := rec₁.setTimes lib st which now
  if which &&& 32 ≠ 0 then rec₂.setFlags (hiddenAs st.flags rec₂.flags) else rec₂

section Plain

variable {rec rec' : Record} {r : UInt64}

theorem plain_touch (rec : Record) (now : Int64) (w : UpdateTimes) :
    (rec.touch now w).plain = rec.plain.touch now w := by
  cases w with
  | ctime => rfl
  | mctime => rfl

theorem plain_setTime (rec : Record) (t : Int64) (w : InodeTime) :
    (rec.setTime t w).plain = rec.plain.setTime t w := by
  cases w with
  | lastDataChange => rfl
  | lastAccess => rfl
  | creation => rfl

theorem resized_cases (rec : Record) (n : UInt64) : rec.resized n = rec ∨
    ∃ d hd, rec.resized n = rec.setStream d hd ∨
      rec.resized n = (rec.setStream d hd).setFlags (rec.flags ||| FILE_ATTR_ARCHIVE) := by
  unfold resized
  cases rec.stream with
  | error e => exact .inl rfl
  | ok d =>
    by_cases hlt : (d.resize n.toNat).size < 2 ^ 63
    · simp only [dif_pos hlt]
      refine .inr ⟨d.resize n.toNat, hlt, ?_⟩
      by_cases hother : Int64.ofNat d.size ≠ n.toInt64
      · rw [if_pos hother]
        exact .inr rfl
      · rw [if_neg hother]
        exact .inl rfl
    · simp only [dif_neg hlt]
      exact .inl trivial

/-- Nothing but times is set. -/
theorem setTimes_other (rec : Record) (lib : Libsetattr σ) (st : NfskStat) (which : UInt32)
    (now : Int64) : (rec.setTimes lib st which now).flags = rec.flags ∧
      (rec.setTimes lib st which now).dataSize = rec.dataSize := by
  have hstamp : ∀ (rec : Record) (p : Prop) [Decidable p] (t : Int64) (w : InodeTime),
      (if p then rec.setTime t w else rec).flags = rec.flags ∧
        (if p then rec.setTime t w else rec).dataSize = rec.dataSize := by
    intro rec p _ t w
    by_cases hp : p
    · rw [if_pos hp]
      cases w with
      | lastDataChange => exact ⟨rfl, rfl⟩
      | lastAccess => exact ⟨rfl, rfl⟩
      | creation => exact ⟨rfl, rfl⟩
    · rw [if_neg hp]
      exact ⟨rfl, rfl⟩
  unfold setTimes
  by_cases hany : which &&& (16 ||| 64 ||| 128) ≠ 0
  · rw [if_pos hany]
    exact ⟨((hstamp ..).1.trans (hstamp ..).1).trans (hstamp ..).1,
      ((hstamp ..).2.trans (hstamp ..).2).trans (hstamp ..).2⟩
  · rw [if_neg hany]
    exact ⟨rfl, rfl⟩

/-- A new size sets no flag but the archive bit. -/
theorem resize_flags (rec : Record) (n : UInt64) (now : Int64) {b : UInt32}
    (hb : FILE_ATTR_ARCHIVE &&& b = 0) : (rec.resize n now).flags &&& b = rec.flags &&& b := by
  have hflags : (rec.resize n now).flags = (rec.resized n).flags := rfl
  rw [hflags]
  obtain h | ⟨d, hd, h | h⟩ := rec.resized_cases n
  · rw [h]
  · rw [h]
    rfl
  · have harchive : ((rec.setStream d hd).setFlags (rec.flags ||| FILE_ATTR_ARCHIVE)).flags =
        rec.flags ||| FILE_ATTR_ARCHIVE := rfl
    rw [h, harchive, or_and_distrib, hb, UInt32.or_zero]

theorem hiddenAs_hidden (flags a : UInt32) :
    hiddenAs flags a &&& FILE_ATTR_HIDDEN ≠ 0 ↔ flags &&& UF_HIDDEN ≠ 0 := by
  unfold hiddenAs
  by_cases h : flags &&& UF_HIDDEN ≠ 0
  · rw [if_pos h]
    refine iff_of_true (fun hzero => ?_) h
    rw [or_and_distrib, UInt32.or_eq_zero_iff] at hzero
    exact absurd hzero.2 (by decide)
  · have hclear : ~~~NFSK_DOS_HIDDEN &&& FILE_ATTR_HIDDEN = 0 := by decide
    rw [if_neg h, UInt32.and_assoc, hclear, UInt32.and_zero]
    exact iff_of_false (fun h => h rfl) h

theorem setattr_hidden (rec : Record) (lib : Libsetattr σ) (st : NfskStat) (which : UInt32)
    (now : Int64) : (rec.setattr lib st which now).hidden ↔
      if which &&& 32 ≠ 0 then st.flags &&& UF_HIDDEN ≠ 0 else rec.hidden := by
  unfold setattr
  by_cases hwhich : which &&& 32 ≠ 0
  · simp only [if_pos hwhich]
    exact hiddenAs_hidden ..
  · simp only [if_neg hwhich]
    rw [hidden, (setTimes_other ..).1]
    by_cases hsize : which &&& 8 ≠ 0
    · rw [if_pos hsize, rec.resize_flags st.size now (by decide)]
      exact Iff.rfl
    · rw [if_neg hsize]
      exact Iff.rfl

/-- A record without its times and flags. -/
def undated (rec : Record) : Record :=
  { rec with
    flags := 0
    lastAccess := 0
    lastMftChange := 0
    lastDataChange := 0
    creation := 0 }

theorem undated_touch (rec : Record) (now : Int64) (w : UpdateTimes) :
    (rec.touch now w).undated = rec.undated := by
  cases w with
  | ctime => rfl
  | mctime => rfl

theorem undated_stamp (rec : Record) (p : Prop) [Decidable p] (t : Int64) (w : InodeTime) :
    (if p then rec.setTime t w else rec).undated = rec.undated := by
  by_cases hp : p
  · rw [if_pos hp]
    cases w with
    | lastDataChange => rfl
    | lastAccess => rfl
    | creation => rfl
  · rw [if_neg hp]

/-- A request changes times, flags and the data. -/
theorem setattr_undated (rec : Record) (lib : Libsetattr σ) (st : NfskStat) (which : UInt32)
    (now : Int64) : (rec.setattr lib st which now).undated =
      (if which &&& 8 ≠ 0 then rec.resized st.size else rec).undated := by
  have htimes : ∀ rec : Record, (rec.setTimes lib st which now).undated = rec.undated := by
    intro rec
    unfold setTimes
    by_cases hany : which &&& (16 ||| 64 ||| 128) ≠ 0
    · rw [if_pos hany, undated_touch, undated_stamp, undated_stamp, undated_stamp]
    · rw [if_neg hany]
  have hhidden : ∀ rec : Record, (if which &&& 32 ≠ 0 then rec.setFlags (hiddenAs st.flags rec.flags)
      else rec).undated = rec.undated := by
    intro rec
    split
    · rfl
    · rfl
  unfold setattr
  rw [hhidden, htimes]
  by_cases hsize : which &&& 8 ≠ 0
  · rw [if_pos hsize, if_pos hsize]
    exact undated_touch ..
  · rw [if_neg hsize, if_neg hsize]

theorem setattr_system (rec : Record) (lib : Libsetattr σ) (st : NfskStat) (which : UInt32)
    (now : Int64) : (rec.setattr lib st which now).system ↔ rec.system := by
  have hhidden : ∀ flags a : UInt32, hiddenAs flags a &&& FILE_ATTR_SYSTEM = a &&& FILE_ATTR_SYSTEM := by
    intro flags a
    unfold hiddenAs
    by_cases h : flags &&& UF_HIDDEN ≠ 0
    · have hother : NFSK_DOS_HIDDEN &&& FILE_ATTR_SYSTEM = 0 := by decide
      rw [if_pos h, or_and_distrib, hother, UInt32.or_zero]
    · have hother : ~~~NFSK_DOS_HIDDEN &&& FILE_ATTR_SYSTEM = FILE_ATTR_SYSTEM := by decide
      rw [if_neg h, UInt32.and_assoc, hother]
  have hsize : ((if which &&& 8 ≠ 0 then rec.resize st.size now else rec).setTimes lib st which
      now).flags &&& FILE_ATTR_SYSTEM = rec.flags &&& FILE_ATTR_SYSTEM := by
    rw [(setTimes_other ..).1]
    by_cases hwhich : which &&& 8 ≠ 0
    · rw [if_pos hwhich, rec.resize_flags st.size now (by decide)]
    · rw [if_neg hwhich]
  unfold setattr system
  by_cases hwhich : which &&& 32 ≠ 0
  · simp only [if_pos hwhich]
    exact Iff.of_eq (congrArg (· ≠ 0) ((hhidden ..).trans hsize))
  · simp only [if_neg hwhich]
    exact Iff.of_eq (congrArg (· ≠ 0) hsize)

theorem plain_setFlags (rec : Record) (flags : UInt32) :
    (rec.setFlags flags).plain = rec.plain.setFlags flags := rfl

theorem flags_eq_of_plain (h : rec'.plain = rec.plain) : rec'.flags = rec.flags :=
  (congrArg flags h : rec'.plain.flags = rec.plain.flags)

theorem inode_eq_of_plain (h : rec'.plain = rec.plain) : rec'.inode r = rec.inode r := by
  have hreparse : rec'.reparsePoint = rec.reparsePoint := (congrArg reparsePoint h :)
  have hdir : rec'.isDirectory = rec.isDirectory := (congrArg isDirectory h :)
  rw [inode, inode, hreparse, hdir]

end Plain

end Record

/-! ## Records that are alike -/

section Plain

variable {lib : Libstat σ} {r : UInt64} {rec rec' : Record} {d : DataStream}

end Plain

end Ntfs
end Usbrw
