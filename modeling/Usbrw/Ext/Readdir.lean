import Usbrw.Stat
import Usbrw.Base.Paging
import Usbrw.Ext.Library
import Usbrw.Ext.Reference

/-!
# Ext.Readdir

`extfsk_readdir`, which hands the entries of a directory to a callback, each with the cookie of the
entry after it.

* `rdProc`, `extfskReaddir` — one call, from a cookie on.
* `placed`       — the entries of a directory with their offsets, each in its own block.
* `liveEntries`  — those a caller should see: in use, and neither `.` nor `..`.
* `readdir_exact` — page by page they are all delivered, whatever the pages, exactly when no live
  entry starts below the end of an earlier one. Blocks start over at offset 0, so a second block
  usually does.

Offsets and cookies are below two block lengths: nothing wraps, and they are `Nat` here.
-/

namespace Usbrw
namespace Ext

open Call Paging

variable {σ κ : Type}

def LINUX_S_IFIFO : UInt16 := 0x1000
def LINUX_S_IFLNK : UInt16 := 0xA000
def LINUX_S_IFSOCK : UInt16 := 0xC000

def extFillStat (inode : Ext2Inode) (ino : UInt64) : NfskStat :=
  let fmt := inode.iMode &&& LINUX_S_IFMT
  { NfskStat.zero with
    mft := ino
    links := inode.iLinksCount.toUInt64
    uid := inode.iUid.toUInt32
    gid := inode.iGid.toUInt32
    size := inode.iSize
    allocSize := inode.iBlocks.toUInt64 * 512
    mode :=
      if fmt = LINUX_S_IFDIR then S_IFDIR ||| 0o777
      else if fmt = LINUX_S_IFREG then S_IFREG ||| 0o777
      else if fmt = LINUX_S_IFLNK then S_IFLNK ||| 0o777
      else if fmt = LINUX_S_IFIFO then S_IFIFO ||| 0o777
      else if fmt = LINUX_S_IFSOCK then S_IFSOCK ||| 0o777
      else S_IFREG ||| 0o777
    atime := inode.iAtime.toUInt64.toInt64
    mtime := inode.iMtime.toUInt64.toInt64
    ctime := inode.iCtime.toUInt64.toInt64 }

def extfskGetattr (fs : Ext2fs σ) (ino : UInt64) : EStateM Int σ NfskStat := do
  let inode ← orFail (fun _ => - EIO) (fs.readInode ino.toUInt32)
  pure (extFillStat inode ino)

/-- `extfsk_dirent_cb`: context, inode, name, attributes, cookie of the next entry. -/
abbrev ExtfskDirentCb (κ : Type) : Type := κ → UInt64 → List UInt8 → NfskStat → Nat → Int × κ

structure RdCtx (κ : Type) where
  ctx : κ
  start : Nat
  next : Nat
  stopped : Bool

/-- The name of an entry, as long as `name_len` says. -/
def DirEntry.bytes (e : DirEntry) : List UInt8 := e.name.take (e.nameLen &&& 0xFF).toNat

/-- A name as C reads it: up to its first zero byte. -/
def cstr (bytes : List UInt8) : List UInt8 := bytes.takeWhile (· ≠ 0)

/-- `extfsk_getattr` into a zeroed `nfsk_stat`, the result ignored. -/
def statOrZero (fs : Ext2fs σ) (ino : UInt64) (s : σ) : NfskStat × σ :=
  match extfskGetattr fs ino s with
  | .ok st s => (st, s)
  | .error _ s => (NfskStat.zero, s)

def rdProc (fs : Ext2fs σ) (cb : ExtfskDirentCb κ) : DirentProc σ (RdCtx κ) :=
  fun dirent offset (s, rc) =>
    if rc.stopped then (⟨none, true⟩, (s, rc))
    else
      let rc := { rc with next := offset + dirent.recLen.toNat }
      if offset < rc.start then (⟨none, false⟩, (s, rc))
      else if IsDots dirent.bytes then (⟨none, false⟩, (s, rc))
      else if dirent.inode = 0 then (⟨none, false⟩, (s, rc))
      else
        let ino := dirent.inode.toUInt64
        match statOrZero fs ino s with
        | (st, s) =>
          match cb rc.ctx ino (cstr dirent.bytes) st rc.next with
          | (r, ctx) =>
            if r ≠ 0 then (⟨none, true⟩, (s, { rc with ctx := ctx, stopped := true }))
            else (⟨none, false⟩, (s, { rc with ctx := ctx }))

/-- The value of `DIRENT_ABORT`, taken for an error code. -/
def direntAbort : Errcode := .other 2

/-- The result is the new `*io_cookie`. -/
def extfskReaddir (fs : Ext2fs σ) (dirIno : UInt64) (cookie : Nat) (cb : ExtfskDirentCb κ) :
    EStateM Int (σ × κ) Nat := fun (s, k) =>
  match fs.dirIterate2 dirIno.toUInt32 (rdProc fs cb)
      (s, { ctx := k, start := cookie, next := cookie, stopped := false }) with
  | .ok () (s, rc) => .ok rc.next (s, rc.ctx)
  | .error err (s, rc) =>
    if err = direntAbort then .ok rc.next (s, rc.ctx) else .error (- EIO) (s, rc.ctx)

/-! ## A client that takes so many entries a call -/

/-- What a client keeps of an entry: its inode and its name. -/
abbrev Listed : Type := UInt64 × List UInt8

/-- Take entries until there are `n`, then report the packer full. -/
def pack (n : Nat) : ExtfskDirentCb (List (Listed × Nat)) := fun got ino name _ next =>
  if got.length < n then (0, got ++ [((ino, name), next)]) else (1, got)

def readdirPage (fs : Ext2fs σ) (dirIno : UInt64) (n cookie : Nat) (s : σ) :
    Option (List (Listed × Nat) × σ) :=
  match extfskReaddir fs dirIno cookie (pack n) (s, []) with
  | .ok _ (s, got) => some (got, s)
  | .error _ _ => none

/-! ## The entries of a directory -/

def placeBlock : Nat → List DirEntry → List (Nat × DirEntry)
  | _, [] => []
  | offset, e :: es => (offset, e) :: placeBlock (offset + e.recLen.toNat) es

def placed (blocks : List (List DirEntry)) : List (Nat × DirEntry) := blocks.flatMap (placeBlock 0)

def Live (x : Nat × DirEntry) : Prop := x.2.inode ≠ 0 ∧ ¬ IsDots x.2.bytes

instance (x : Nat × DirEntry) : Decidable (Live x) := by
  unfold Live
  infer_instance

def liveEntries (xs : List (Nat × DirEntry)) : List (Nat × DirEntry) := xs.filter fun x => Live x

/-- Where an entry starts and ends in its block. -/
def entryStart (x : Nat × DirEntry) : Nat := x.1
def entryEnd (x : Nat × DirEntry) : Nat := x.1 + x.2.recLen.toNat

def listed (x : Nat × DirEntry) : Listed := (x.2.inode.toUInt64, cstr x.2.bytes)

/-- `dir_iterate2` visits the blocks in order, for callbacks that change no entry; whether it shows
deleted ones does not matter. Reading an inode changes no directory. -/
structure LawfulIterate (fs : Ext2fs σ) (blocks : σ → UInt32 → List (List DirEntry))
    (deleted : Bool) : Prop where
  dirIterate2 : ∀ {κ : Type} (d : UInt32) (proc : DirentProc σ κ),
    (∀ e offset st, (proc e offset st).1.changed = none) → ∀ st : σ × κ,
      fs.dirIterate2 d proc st = .ok () (visitBlocks proc deleted (blocks st.1 d) st)
  readInode : ∀ ino bs, Spec (fun s => blocks s = bs) (fs.readInode ino)
    (fun _ s => blocks s = bs) fun _ s => blocks s = bs

/-! ## Visiting the entries one by one -/

section Visit

variable (proc : DirentProc σ κ) (deleted : Bool)

/-- `visitBlocks` over a flat list of entries; true when the callback ended it. -/
def visitAll : List (Nat × DirEntry) → σ × κ → Bool × (σ × κ)
  | [], st => (false, st)
  | (offset, e) :: xs, st =>
    if e.inode ≠ 0 ∨ deleted then
      match proc e offset st with
      | (r, st) => if r.abort then (true, st) else visitAll xs st
    else visitAll xs st

theorem visitBlock_eq (offset : Nat) (es : List DirEntry) (st : σ × κ) :
    visitBlock proc deleted offset es st = visitAll proc deleted (placeBlock offset es) st := by
  induction es generalizing offset st with
  | nil => rfl
  | cons e es ih =>
    simp only [visitBlock, placeBlock, visitAll]
    by_cases hv : e.inode ≠ 0 ∨ deleted = true
    · rw [if_pos hv, if_pos hv]
      by_cases ha : (proc e offset st).1.abort = true
      · rw [if_pos ha, if_pos ha]
      · rw [if_neg ha, if_neg ha]
        exact ih _ _
    · rw [if_neg hv, if_neg hv]
      exact ih _ _

theorem visitAll_append (xs ys : List (Nat × DirEntry)) (st : σ × κ) :
    visitAll proc deleted (xs ++ ys) st =
      match visitAll proc deleted xs st with
      | (true, st) => (true, st)
      | (false, st) => visitAll proc deleted ys st := by
  induction xs generalizing st with
  | nil => rfl
  | cons x xs ih =>
    obtain ⟨offset, e⟩ := x
    simp only [List.cons_append, visitAll]
    by_cases hv : e.inode ≠ 0 ∨ deleted = true
    · simp only [if_pos hv]
      by_cases ha : (proc e offset st).1.abort = true
      · simp only [if_pos ha]
      · simp only [if_neg ha]
        exact ih _
    · simp only [if_neg hv]
      exact ih _

theorem visitBlocks_eq (bs : List (List DirEntry)) (st : σ × κ) :
    visitBlocks proc deleted bs st = (visitAll proc deleted (placed bs) st).2 := by
  induction bs generalizing st with
  | nil => rfl
  | cons b bs ih =>
    simp only [visitBlocks, placed, List.flatMap_cons, visitAll_append, visitBlock_eq]
    cases visitAll proc deleted (placeBlock 0 b) st with
    | mk stop st' =>
      cases stop with
      | true => rfl
      | false => exact ih st'

end Visit

/-! ## One call -/

section Page

variable {fs : Ext2fs σ} {blocks : σ → UInt32 → List (List DirEntry)} {deleted : Bool}

theorem rdProc_keeps (cb : ExtfskDirentCb κ) (e : DirEntry) (offset : Nat) (st : σ × RdCtx κ) :
    (rdProc fs cb e offset st).1.changed = none := by
  obtain ⟨s, rc⟩ := st
  unfold rdProc
  simp only
  split
  · rfl
  · split
    · rfl
    · split
      · rfl
      · split
        · rfl
        · split <;> rfl

theorem statOrZero_blocks (hL : LawfulIterate fs blocks deleted) (ino : UInt64) (s : σ) :
    blocks (statOrZero fs ino s).2 = blocks s := by
  have hr := hL.readInode ino.toUInt32 (blocks s) s rfl
  unfold statOrZero extfskGetattr
  simp only [Bind.bind, EStateM.bind, orFail]
  cases h : fs.readInode ino.toUInt32 s with
  | ok inode s' => rw [h] at hr; exact hr
  | error e s' => rw [h] at hr; exact hr

/-- The entries a call from `start` on is to deliver. -/
def wanted (start : Nat) (xs : List (Nat × DirEntry)) : List (Nat × DirEntry) :=
  above (liveEntries xs) entryStart start

theorem wanted_cons_skip {start : Nat} {x : Nat × DirEntry} (xs : List (Nat × DirEntry))
    (h : ¬ Live x ∨ x.1 < start) : wanted start (x :: xs) = wanted start xs := by
  by_cases hl : Live x
  · have hlow : ¬ start ≤ entryStart x := by
      cases h with
      | inl hn => exact absurd hl hn
      | inr hlt => exact Nat.not_le.mpr hlt
    simp [wanted, liveEntries, above, hl, hlow]
  · simp [wanted, liveEntries, above, hl]

theorem wanted_cons {start : Nat} {x : Nat × DirEntry} (xs : List (Nat × DirEntry))
    (hl : Live x) (hs : start ≤ x.1) : wanted start (x :: xs) = x :: wanted start xs := by
  have hs' : start ≤ entryStart x := hs
  simp [wanted, liveEntries, above, hl, hs']

section Step

variable {s : σ} {n : Nat} {rc : RdCtx (List (Listed × Nat))} {x : Nat × DirEntry}

theorem rdProc_skip (hgo : rc.stopped = false) (h : ¬ Live x ∨ x.1 < rc.start) :
    rdProc fs (pack n) x.2 x.1 (s, rc) = (⟨none, false⟩, (s, { rc with next := entryEnd x })) := by
  simp only [rdProc, hgo, Bool.false_eq_true, if_false]
  by_cases hlow : x.1 < rc.start
  · rw [if_pos hlow]; rfl
  · have hnot : ¬ Live x := by
      cases h with
      | inl hn => exact hn
      | inr hlt => exact absurd hlt hlow
    rw [if_neg hlow]
    by_cases hd : IsDots x.2.bytes
    · rw [if_pos hd]; rfl
    · have h0 : x.2.inode = 0 := by
        by_contra hne
        exact hnot ⟨hne, hd⟩
      rw [if_neg hd, if_pos h0]; rfl

theorem rdProc_live (hgo : rc.stopped = false) (hl : Live x) (hs : rc.start ≤ x.1) :
    rdProc fs (pack n) x.2 x.1 (s, rc) =
      if rc.ctx.length < n then
        (⟨none, false⟩, ((statOrZero fs x.2.inode.toUInt64 s).2,
          { rc with next := entryEnd x, ctx := rc.ctx ++ [(listed x, entryEnd x)] }))
      else
        (⟨none, true⟩, ((statOrZero fs x.2.inode.toUInt64 s).2,
          { rc with next := entryEnd x, stopped := true })) := by
  simp only [rdProc, hgo, Bool.false_eq_true, if_false]
  rw [if_neg (Nat.not_lt.mpr hs), if_neg hl.2, if_neg hl.1]
  simp only [pack]
  by_cases hfull : rc.ctx.length < n
  · simp [hfull, entryEnd, listed]
  · simp [hfull, entryEnd]

end Step

/-- The first wanted entries are taken, until there are `n`. -/
theorem visitAll_pack (hL : LawfulIterate fs blocks deleted) (n : Nat)
    (xs : List (Nat × DirEntry)) :
    ∀ (s : σ) (rc : RdCtx (List (Listed × Nat))), rc.stopped = false → rc.ctx.length ≤ n →
      let r := visitAll (rdProc fs (pack n)) deleted xs (s, rc)
      blocks r.2.1 = blocks s ∧ r.2.2.ctx = rc.ctx ++
        ((wanted rc.start xs).take (n - rc.ctx.length)).map fun x => (listed x, entryEnd x) := by
  induction xs with
  | nil => intro s rc _ _; simp [visitAll, wanted, liveEntries, above]
  | cons x xs ih =>
    intro s rc hgo hlen
    simp only [visitAll]
    by_cases hv : x.2.inode ≠ 0 ∨ deleted = true
    · rw [if_pos hv]
      by_cases hw : ¬ Live x ∨ x.1 < rc.start
      · rw [rdProc_skip hgo hw, wanted_cons_skip xs hw]
        exact ih s { rc with next := entryEnd x } hgo hlen
      · have hl : Live x := by
          by_contra hn
          exact hw (Or.inl hn)
        have hs : rc.start ≤ x.1 := by omega
        have hblocks := statOrZero_blocks hL x.2.inode.toUInt64 s
        rw [rdProc_live hgo hl hs, wanted_cons xs hl hs]
        by_cases hfull : rc.ctx.length < n
        · rw [if_pos hfull]
          obtain ⟨hb, hctx⟩ := ih (statOrZero fs x.2.inode.toUInt64 s).2
            { rc with next := entryEnd x, ctx := rc.ctx ++ [(listed x, entryEnd x)] } hgo
            (by simp; omega)
          refine ⟨hb.trans hblocks, ?_⟩
          obtain ⟨m, hm⟩ : ∃ m, n - rc.ctx.length = m + 1 := ⟨n - rc.ctx.length - 1, by omega⟩
          have hm' : n - (rc.ctx ++ [(listed x, entryEnd x)]).length = m := by simp; omega
          simp only [hm'] at hctx
          rw [hm, List.take_succ_cons]
          simpa using hctx
        · rw [if_neg hfull]
          refine ⟨hblocks, ?_⟩
          rw [show n - rc.ctx.length = 0 by omega]
          simp
    · have hnot : ¬ Live x := fun hl => hv (Or.inl hl.1)
      rw [if_neg hv, wanted_cons_skip xs (Or.inl hnot)]
      exact ih s rc hgo hlen

theorem readdirPage_delivers (hL : LawfulIterate fs blocks deleted) (dirIno : UInt64)
    (bs : List (List DirEntry)) :
    DeliversAbove (readdirPage fs dirIno) (fun s => blocks s dirIno.toUInt32 = bs)
      (liveEntries (placed bs)) entryStart entryEnd listed := by
  intro n c s hs
  let rc : RdCtx (List (Listed × Nat)) := { ctx := [], start := c, next := c, stopped := false }
  obtain ⟨hblocks, hctx⟩ := visitAll_pack hL n (placed bs) s rc rfl (Nat.zero_le n)
  have hiter := hL.dirIterate2 dirIno.toUInt32 (rdProc fs (pack n)) (rdProc_keeps _) (s, rc)
  rw [visitBlocks_eq, hs] at hiter
  refine ⟨(visitAll (rdProc fs (pack n)) deleted (placed bs) (s, rc)).2.1, ?_, ?_⟩
  · exact (congrFun hblocks dirIno.toUInt32).trans hs
  · simp only [readdirPage, extfskReaddir]
    rw [hiter]
    simp only [hctx]
    rfl

end Page

/-! ## All pages -/

theorem entryStart_lt_entryEnd (x : Nat × DirEntry) : entryStart x < entryEnd x := by
  have h := x.2.recLen_pos
  simp only [entryStart, entryEnd]
  omega

/-- Reading a directory page by page delivers every live entry exactly once and in order, whatever
the pages, exactly when no live entry starts below the end of an earlier one. -/
theorem readdir_exact {fs : Ext2fs σ} {blocks : σ → UInt32 → List (List DirEntry)} {deleted : Bool}
    (hL : LawfulIterate fs blocks deleted) (dirIno : UInt64) (s : σ) :
    (∀ limit, ∃ fuel, enumerate (readdirPage fs dirIno) limit fuel 0 0 s =
        some ((liveEntries (placed (blocks s dirIno.toUInt32))).map listed)) ↔
      Ordered entryStart entryEnd (liveEntries (placed (blocks s dirIno.toUInt32))) :=
  enumerate_offsets_iff (readdirPage_delivers hL dirIno _) (fun x _ => entryStart_lt_entryEnd x) rfl

theorem placeBlock_start {offset : Nat} {es : List DirEntry} {x : Nat × DirEntry}
    (h : x ∈ placeBlock offset es) : offset ≤ entryStart x := by
  induction es generalizing offset with
  | nil => cases h
  | cons e es ih =>
    cases h with
    | head => exact Nat.le_refl offset
    | tail _ h =>
      have hle := ih h
      omega

theorem ordered_placeBlock (offset : Nat) (es : List DirEntry) :
    Ordered entryStart entryEnd (placeBlock offset es) := by
  induction es generalizing offset with
  | nil => exact List.Pairwise.nil
  | cons e es ih =>
    refine List.pairwise_cons.mpr ⟨?_, ih _⟩
    intro y hy
    exact placeBlock_start hy

/-- Live entries that all lie in one block are always in order. -/
theorem ordered_of_one_block {bs : List (List DirEntry)} {b : List DirEntry}
    (h : liveEntries (placed bs) = liveEntries (placeBlock 0 b)) :
    Ordered entryStart entryEnd (liveEntries (placed bs)) := by
  rw [h]
  exact (ordered_placeBlock 0 b).sublist List.filter_sublist

/-! ## Directories of one and of two blocks -/

theorem refLibrary_iterate (blocks : UInt32 → List (List DirEntry)) :
    LawfulIterate (refLibrary blocks) (fun _ => blocks) false where
  dirIterate2 := fun _ _ _ _ => rfl
  readInode := fun _ _ _ hs => hs

/-- An entry with a name of one byte. -/
def oneLetter (inode : UInt32) (letter : UInt8) (recLen : UInt16) (h : 0 < recLen.toNat) : DirEntry :=
  ⟨inode, recLen, 1, [letter], h⟩

def dotEntry : DirEntry := ⟨2, 12, 1, dot, by decide⟩
def dotdotEntry : DirEntry := ⟨2, 12, 2, dotdot, by decide⟩

/-- Three files, `a` in the first block after `.` and `..`, `b` and `c` in the second. -/
def twoBlocks : List (List DirEntry) :=
  [[dotEntry, dotdotEntry, oneLetter 12 0x61 1000 (by decide)],
    [oneLetter 13 0x62 12 (by decide), oneLetter 14 0x63 1012 (by decide)]]

def oneBlock : List (List DirEntry) :=
  [[dotEntry, dotdotEntry, oneLetter 12 0x61 12 (by decide), oneLetter 13 0x62 988 (by decide)]]

theorem readdir_one_block : ∃ fuel,
    enumerate (readdirPage (refLibrary fun _ => oneBlock) 2) (fun _ => 0) fuel 0 0
      (oneFile 12 0 fun _ => 0) = some [(12, [0x61]), (13, [0x62])] := by
  have hord : Ordered entryStart entryEnd (liveEntries (placed oneBlock)) :=
    ordered_of_one_block (b := [dotEntry, dotdotEntry, oneLetter 12 0x61 12 (by decide),
      oneLetter 13 0x62 988 (by decide)]) rfl
  exact (readdir_exact (refLibrary_iterate fun _ => oneBlock) 2 (oneFile 12 0 fun _ => 0)).mpr hord _

/-- One entry a page: `a` is delivered with the cookie 1024, and nothing starts there or above. -/
theorem readdir_two_blocks :
    LawfulIterate (refLibrary fun _ => twoBlocks) (fun _ _ => twoBlocks) false ∧
      ¬ ∃ fuel, enumerate (readdirPage (refLibrary fun _ => twoBlocks) 2) (fun _ => 0) fuel 0 0
        (oneFile 12 0 fun _ => 0) = some ((liveEntries (placed twoBlocks)).map listed) := by
  refine ⟨refLibrary_iterate _, ?_⟩
  rintro ⟨fuel, hf⟩
  cases fuel with
  | zero => cases hf
  | succ fuel =>
    cases fuel with
    | zero => cases hf
    | succ fuel =>
      have hrun : enumerate (readdirPage (refLibrary fun _ => twoBlocks) 2) (fun _ => 0) (fuel + 2) 0
          0 (oneFile 12 0 fun _ => 0) = some [(12, [0x61])] := rfl
      rw [hrun] at hf
      exact absurd hf (by decide)

end Ext
end Usbrw
