import Usbrw.Ext.Collide
import Usbrw.Ext.Items
import Usbrw.Ext.Untouched

/-!
# Ext.FoundAgain

What a client of `EXTVolume` gets of a file that it made and wrote, whatever else it did to the
volume before and after.

* `LawfulVisit`          — an iteration over a directory that changes nothing.
* `VolumeCall.Concerns`  — the call is about the name, its directory's contents, or the file.
* `perform_leftAlone`    — a call that is about none of them leaves them alone.
* `createItem_names`, `write_stores` — a new file has its name, and holds what is written.
* `found_again`          — and still does after a run of other calls.
-/

namespace Usbrw
namespace Ext

open Call Run Volume Region
open Ntfs (FSFileName ItemType)

variable {σ κ α : Type}

/-! ## Calls that only look -/

theorem final_thrown (x : EStateM Int σ α) (s : σ) : final (thrown x s) = final (x s) := by
  simp only [thrown, orFail]
  cases x s with
  | ok a s' => rfl
  | error e s' => rfl

theorem thrown_ok_iff {x : EStateM Int σ α} {s s' : σ} {a : α} :
    thrown x s = .ok a s' ↔ x s = .ok a s' :=
  orFail_ok_iff

section Looks

variable {fs : Ext2fsVolume σ} {V : View σ} {v : Volume}

theorem lookup_looks (hL : Lawful fs.toExt2fs V) (dirIno : UInt64) (name : List UInt8) :
    Keeps (V.Is v) (extfskLookup fs.toExt2fs dirIno name) :=
  Keeps.bind (Keeps.orFail (Spec.conseq (hL.lookup v _ name) (fun _ _ h => h.2) fun _ _ h => h.2) _)
    fun _ => Keeps.pure _

theorem readInode_looks (hL : Lawful fs.toExt2fs V) (ino : UInt32) :
    Keeps (V.Is v) (fs.readInode ino) :=
  (hL.readInode v ino).conseq_ok fun _ _ h => h.2

theorem getattr_looks (hL : Lawful fs.toExt2fs V) (ino : UInt64) :
    Keeps (V.Is v) (extfskGetattr fs.toExt2fs ino) :=
  Keeps.bind ((readInode_looks hL _).orFail _) fun _ => Keeps.pure _

theorem statInto_looks (hL : Lawful fs.toExt2fs V) (old : NfskStat) (ino : UInt64) :
    Keeps (V.Is v) (statInto fs old ino) := by
  intro s hs
  have hget := getattr_looks hL ino s hs
  unfold statInto
  cases hrun : extfskGetattr fs.toExt2fs ino s with
  | ok st s' =>
    rw [hrun] at hget
    exact hget
  | error e s' =>
    rw [hrun] at hget
    exact hget

theorem read_looks (hL : Lawful fs.toExt2fs V) (ino offset len : UInt64) :
    Keeps (V.Is v) (extfskRead fs.toExt2fs ino offset len) :=
  (extfskRead_spec hL v ino offset len).conseq_ok fun _ _ h => h.2

theorem readlink_looks (hL : Lawful fs.toExt2fs V) (ino buflen : UInt64) :
    Keeps (V.Is v) (extfskReadlink fs ino buflen) := by
  refine ((readInode_looks hL _).orFail _).bind fun inode => ?_
  refine Keeps.ite (fun _ => Keeps.throw _) fun _ => Keeps.ite (fun _ => Keeps.pure _) fun _ => ?_
  exact read_looks hL ino 0 (buflen - 1)

/-! An enumeration looks at the inode of every entry. -/

theorem statOrZero_looks (hL : Lawful fs.toExt2fs V) (ino : UInt64) (s : σ) :
    V.volume (statOrZero fs.toExt2fs ino s).2 = V.volume s := by
  have hget := getattr_looks hL ino s (rfl : V.Is (V.volume s) s)
  unfold statOrZero
  cases hrun : extfskGetattr fs.toExt2fs ino s with
  | ok st s' =>
    rw [hrun] at hget
    exact hget
  | error e s' =>
    rw [hrun] at hget
    exact hget

theorem rdProc_looks (hL : Lawful fs.toExt2fs V) (cb : ExtfskDirentCb κ) (e : DirEntry)
    (offset : Nat) (st : σ × RdCtx κ) : V.volume (rdProc fs.toExt2fs cb e offset st).2.1 = V.volume st.1 := by
  obtain ⟨s, rc⟩ := st
  unfold rdProc
  simp only
  split
  · rfl
  · split
    · rfl
    · split
      · rfl
      · split
        · rfl
        · split <;> exact statOrZero_looks hL _ s

theorem visitAll_looks {proc : DirentProc σ κ}
    (hproc : ∀ e offset st, V.volume (proc e offset st).2.1 = V.volume st.1) (deleted : Bool)
    (xs : List (Nat × DirEntry)) (st : σ × κ) :
    V.volume (visitAll proc deleted xs st).2.1 = V.volume st.1 := by
  induction xs generalizing st with
  | nil => rfl
  | cons x xs ih =>
    obtain ⟨offset, e⟩ := x
    simp only [visitAll]
    split
    · split
      · exact hproc e offset st
      · exact (ih _).trans (hproc e offset st)
    · exact ih st

/-- With a callback that changes no entry nor the volume, every entry is visited in order, and only
that; a failure may come at any entry. -/
structure LawfulVisit (fs : Ext2fs σ) (V : View σ) : Prop where
  dirIterate2 : ∀ {κ : Type} v d (proc : DirentProc σ κ) (st : σ × κ),
    (∀ e offset st, (proc e offset st).1.changed = none) →
    (∀ e offset st, V.volume (proc e offset st).2.1 = V.volume st.1) → V.Is v st.1 →
    Spec (· = st) (fs.dirIterate2 d proc)
      (fun _ st' => ∃ blocks, v.dir d = dirents blocks ∧ st' = visitBlocks proc false blocks st)
      fun _ st' => V.Is v st'.1

theorem visit_looks (hI : LawfulVisit fs.toExt2fs V) {d : UInt32} {proc : DirentProc σ κ}
    (hnone : ∀ e offset st, (proc e offset st).1.changed = none)
    (hproc : ∀ e offset st, V.volume (proc e offset st).2.1 = V.volume st.1) :
    Keeps (fun st => V.Is v st.1) (fs.dirIterate2 d proc) := by
  intro st hst
  refine Spec.conseq_ok (hI.dirIterate2 v d proc st hnone hproc hst) ?_ st rfl
  rintro _ _ ⟨blocks, _, rfl⟩
  rw [visitBlocks_eq]
  exact (visitAll_looks hproc false _ st).trans hst

theorem readdir_looks (hL : Lawful fs.toExt2fs V) (hI : LawfulVisit fs.toExt2fs V) (dirIno : UInt64)
    (cookie : Nat) (cb : ExtfskDirentCb κ) :
    Keeps (fun st => V.Is v st.1) (extfskReaddir fs.toExt2fs dirIno cookie cb) := by
  rintro ⟨s, k⟩ hs
  have hvisit : Keeps (fun st => V.Is v st.1)
      (fs.dirIterate2 dirIno.toUInt32 (rdProc fs.toExt2fs cb)) :=
    visit_looks hI (rdProc_keeps cb) (rdProc_looks hL cb)
  have hlast := hvisit (s, ⟨k, cookie, cookie, false⟩) hs
  unfold extfskReaddir
  cases hrun : fs.dirIterate2 dirIno.toUInt32 (rdProc fs.toExt2fs cb)
      (s, ⟨k, cookie, cookie, false⟩) with
  | ok _ st =>
    rw [hrun] at hlast
    simp only [hrun]
    exact hlast
  | error err st =>
    rw [hrun] at hlast
    simp only [hrun]
    by_cases herr : err = direntAbort
    · rw [if_pos herr]
      exact hlast
    · rw [if_neg herr]
      exact hlast

theorem keeps_thrown {I : σ → Prop} {x : EStateM Int σ α} (h : Keeps I x) : Keeps I (thrown x) :=
  h.orFail _

theorem attributesOf_looks (hL : Lawful fs.toExt2fs V) (item : FSItem) :
    Keeps (V.Is v) (attributesOf fs item) := by
  cases item with
  | ext it => exact (keeps_thrown (getattr_looks hL it.ino)).bind fun _ => Keeps.pure _
  | other => exact Keeps.throw _

theorem lookupItem_looks (hL : Lawful fs.toExt2fs V) (name : FSFileName) (directory : FSItem) :
    Keeps (V.Is v) (lookupItem fs name directory) := by
  unfold lookupItem
  split
  · exact (keeps_thrown (lookup_looks hL _ _)).bind fun _ => Keeps.pure _
  · exact Keeps.throw _

theorem enumerateDirectory_looks (hL : Lawful fs.toExt2fs V) (hI : LawfulVisit fs.toExt2fs V)
    (directory : FSItem) (cookie : Nat) (packer : Packer κ) :
    Keeps (fun st => V.Is v st.1) (enumerateDirectory fs directory cookie packer) := by
  cases directory with
  | ext dir =>
    exact (keeps_thrown (readdir_looks hL hI dir.ino cookie _)).bind fun _ => Keeps.pure _
  | other => exact Keeps.throw _

theorem readItem_looks (hL : Lawful fs.toExt2fs V) (item : FSItem) (offset length : UInt64)
    (room : Option UInt64) : Keeps (V.Is v) (read fs item offset length room) := by
  unfold read
  split
  · exact keeps_thrown (read_looks hL _ _ _)
  · exact Keeps.throw _

theorem readSymbolicLink_looks (hL : Lawful fs.toExt2fs V) (item : FSItem) :
    Keeps (V.Is v) (readSymbolicLink fs item) := by
  cases item with
  | ext it => exact (keeps_thrown (readlink_looks hL it.ino 4096)).bind fun _ => Keeps.pure _
  | other => exact Keeps.throw _

end Looks

/-! ## What a call is about -/

def FSItem.inode : FSItem → Option UInt32
  | .ext it => some it.ino.toUInt32
  | .other => none

/-- The entry that a directory and a name stand for. -/
def entryOf (directory : FSItem) (name : FSFileName) : Option (UInt32 × List UInt8) :=
  match directory.inode, name.string with
  | some d, some cname => some (d, cstr cname)
  | _, _ => none

/-- The call is to make, remove or move the entry, or to change the contents of its directory or of
the file. -/
def VolumeCall.Concerns (d : UInt32) (name : List UInt8) (x : UInt32) : VolumeCall → Prop
  | .attributes _ => False
  | .setAttributes size item => size ≠ none ∧ (item.inode = some d ∨ item.inode = some x)
  | .lookupItem _ _ => False
  | .enumerateDirectory _ _ _ => False
  | .createItem new _ directory _ _ _ =>
    entryOf directory new = some (d, name) ∨ directory.inode = some x
  | .createSymbolicLink new directory _ =>
    entryOf directory new = some (d, name) ∨ directory.inode = some x
  | .removeItem _ old directory => entryOf directory old = some (d, name)
  | .renameItem sourceDirectory old new destinationDirectory =>
    (entryOf sourceDirectory old = some (d, name) ∨
      entryOf destinationDirectory new = some (d, name)) ∨ destinationDirectory.inode = some x
  | .read _ _ _ _ => False
  | .write _ item _ => item.inode = some d ∨ item.inode = some x
  | .readSymbolicLink _ => False

instance (d : UInt32) (name : List UInt8) (x : UInt32) :
    (c : VolumeCall) → Decidable (c.Concerns d name x)
  | .attributes _ => inferInstanceAs (Decidable False)
  | .setAttributes _ _ => inferInstanceAs (Decidable (_ ∧ _))
  | .lookupItem _ _ => inferInstanceAs (Decidable False)
  | .enumerateDirectory _ _ _ => inferInstanceAs (Decidable False)
  | .createItem .. => inferInstanceAs (Decidable (_ ∨ _))
  | .createSymbolicLink .. => inferInstanceAs (Decidable (_ ∨ _))
  | .removeItem .. => inferInstanceAs (Decidable (_ = _))
  | .renameItem .. => inferInstanceAs (Decidable (_ ∨ _))
  | .read .. => inferInstanceAs (Decidable False)
  | .write .. => inferInstanceAs (Decidable (_ ∨ _))
  | .readSymbolicLink _ => inferInstanceAs (Decidable False)

section Perform

variable {fs : Ext2fsVolume σ} {V : View σ} {v v₀ : Volume} {blocksize d x : UInt32}
  {name : List UInt8} {s : σ} {writable : Bool}

theorem leftAlone_of_looks {y : EStateM Int σ α} (h : Keeps (V.Is (V.volume s)) y) :
    LeftAlone d name x (V.volume s) (V.volume (final (y s))) :=
  View.Is.leftAlone (Spec.final h rfl)

theorem setAttributes_leftAlone (hL : Lawful fs.toExt2fs V) (hC : Confined fs.toExt2fsNew V)
    {size : Option UInt64} {item : FSItem}
    (hc : ¬ (size ≠ none ∧ (item.inode = some d ∨ item.inode = some x))) :
    Keeps (V.LeftAlone d name x v₀) (setAttributes fs blocksize size item) := by
  cases item with
  | other => exact Keeps.throw _
  | ext it =>
    have hstat : ∀ old, Keeps (V.LeftAlone d name x v₀) (statInto fs old it.ino) := fun old =>
      keeps_leftAlone fun v => Spec.conseq (statInto_looks hL old it.ino)
        (fun _ _ hs => hs.leftAlone) fun _ _ hs => hs.leftAlone
    unfold setAttributes
    cases size with
    | none =>
      refine (hstat _).bind fun old => ?_
      exact (hstat old).bind fun _ => Keeps.pure _
    | some newsize =>
      have hd : d ≠ it.ino.toUInt32 := fun heq => hc ⟨nofun, .inl (congrArg some heq.symm)⟩
      have hx : x ≠ it.ino.toUInt32 := fun heq => hc ⟨nofun, .inr (congrArg some heq.symm)⟩
      have htruncate : Keeps (V.LeftAlone d name x v₀)
          (extfskTruncate fs.toExt2fs blocksize it.ino newsize) :=
        keeps_leftAlone fun v =>
          Spec.conseq (extfskTruncate_elsewhere hL hC blocksize it.ino newsize)
          (fun _ _ h => h.leftAlone hd hx) fun _ _ h => h.leftAlone hd hx
      refine (hstat _).bind fun old => ?_
      refine (keeps_thrown htruncate).bind fun _ => ?_
      exact (hstat old).bind fun _ => Keeps.pure _

theorem write_leftAlone (hL : Lawful fs.toExt2fs V) {contents : Option (List UInt8)} {item : FSItem}
    {offset : UInt64} (hc : ¬ (item.inode = some d ∨ item.inode = some x)) :
    Keeps (V.LeftAlone d name x v₀) (write fs writable contents item offset) := by
  unfold write
  refine Keeps.ite (fun _ => Keeps.throw _) fun _ => ?_
  split
  · rename_i it bytes
    have hd : d ≠ it.ino.toUInt32 := fun heq => hc (.inl (congrArg some heq.symm))
    have hx : x ≠ it.ino.toUInt32 := fun heq => hc (.inr (congrArg some heq.symm))
    exact keeps_thrown (keeps_leftAlone fun v =>
      Spec.conseq (extfskWrite_elsewhere hL it.ino offset bytes)
        (fun _ _ h => h.leftAlone hd hx) fun _ _ h => h.leftAlone hd hx)
  · exact Keeps.throw _

/-! Calls on names come down to what `serve_leftAlone` is about. -/

section Names

variable (hserve : ∀ {r : Request}, ¬ r.Mentions d name → ¬ r.Fills x →
  LeftAlone d name x (V.volume s) (V.volume (serve fs.toExt2fsNew s r)))

include hserve

theorem createItem_leftAlone {new : FSFileName} {type : ItemType} {directory : FSItem}
    {mode uid gid : UInt32}
    (hc : ¬ (entryOf directory new = some (d, name) ∨ directory.inode = some x)) :
    LeftAlone d name x (V.volume s)
      (V.volume (final (createItem fs new type directory mode uid gid s))) := by
  cases directory with
  | other => exact .refl _
  | ext dir =>
    obtain ⟨_ | cname⟩ := new
    · exact .refl _
    · have hentry : ¬ (d = dir.ino.toUInt32 ∧ cstr cname = name) := by
        rintro ⟨rfl, rfl⟩
        exact hc (.inl rfl)
      have hother : x ≠ dir.ino.toUInt32 := fun heq => hc (.inr (congrArg some heq.symm))
      simp only [createItem]
      rw [final_bind_pure, final_thrown, ← final_dropResult]
      exact hserve (r := .create dir.ino (cstr cname) _ mode uid gid) hentry hother

theorem createSymbolicLink_leftAlone {new contents : FSFileName} {directory : FSItem}
    (hc : ¬ (entryOf directory new = some (d, name) ∨ directory.inode = some x)) :
    LeftAlone d name x (V.volume s)
      (V.volume (final (createSymbolicLink fs new directory contents s))) := by
  cases directory with
  | other => exact .refl _
  | ext dir =>
    obtain ⟨_ | cname⟩ := new
    · exact .refl _
    · obtain ⟨_ | ctarget⟩ := contents
      · exact .refl _
      · have hentry : ¬ (d = dir.ino.toUInt32 ∧ cstr cname = name) := by
          rintro ⟨rfl, rfl⟩
          exact hc (.inl rfl)
        have hother : x ≠ dir.ino.toUInt32 := fun heq => hc (.inr (congrArg some heq.symm))
        simp only [createSymbolicLink]
        rw [final_bind_pure, final_thrown, ← final_dropResult]
        exact hserve (r := .symlink dir.ino (cstr cname) (cstr ctarget)) hentry hother

theorem removeItem_leftAlone {item directory : FSItem} {old : FSFileName}
    (hc : ¬ entryOf directory old = some (d, name)) :
    LeftAlone d name x (V.volume s) (V.volume (final (removeItem fs item old directory s))) := by
  obtain ⟨_ | cname⟩ := old
  · cases item <;> cases directory <;> exact .refl _
  · cases item with
    | other => exact .refl _
    | ext it =>
      cases directory with
      | other => exact .refl _
      | ext dir =>
        have hentry : ¬ (d = dir.ino.toUInt32 ∧ cstr cname = name) := by
          rintro ⟨rfl, rfl⟩
          exact hc rfl
        simp only [removeItem]
        rw [final_thrown]
        exact hserve (r := .unlink dir.ino (cstr cname) it.ino) hentry not_false

theorem renameItem_leftAlone {sourceDirectory destinationDirectory : FSItem} {old new : FSFileName}
    (hc : ¬ ((entryOf sourceDirectory old = some (d, name) ∨
      entryOf destinationDirectory new = some (d, name)) ∨ destinationDirectory.inode = some x)) :
    LeftAlone d name x (V.volume s)
      (V.volume (final (renameItem fs sourceDirectory old new destinationDirectory s))) := by
  cases sourceDirectory with
  | other => exact .refl _
  | ext srcDir =>
    cases destinationDirectory with
    | other => exact .refl _
    | ext dstDir =>
      obtain ⟨_ | cold⟩ := old
      · exact .refl _
      · obtain ⟨_ | cnew⟩ := new
        · exact .refl _
        · have hentry : ¬ ((d = srcDir.ino.toUInt32 ∧ cstr cold = name) ∨
              (d = dstDir.ino.toUInt32 ∧ cstr cnew = name)) := by
            rintro (⟨rfl, rfl⟩ | ⟨rfl, rfl⟩)
            · exact hc (.inl (.inl rfl))
            · exact hc (.inl (.inr rfl))
          have hother : x ≠ dstDir.ino.toUInt32 := fun heq => hc (.inr (congrArg some heq.symm))
          simp only [renameItem]
          rw [final_bind_pure, final_thrown]
          exact hserve (r := .rename srcDir.ino (cstr cold) dstDir.ino (cstr cnew)) hentry hother

end Names

theorem perform_leftAlone (hL : LawfulNew fs.toExt2fsNew V) (hE : LawfulEdit fs.toExt2fs V)
    (hC : Confined fs.toExt2fsNew V) (hI : LawfulVisit fs.toExt2fs V) (hdots : ¬ IsDots name)
    (hd : (V.volume s).inUse d = true) (hx : (V.volume s).inUse x = true) {c : VolumeCall}
    (hc : ¬ c.Concerns d name x) :
    LeftAlone d name x (V.volume s) (V.volume (perform fs blocksize writable s c)) := by
  have hserve : ∀ {r : Request}, ¬ r.Mentions d name → ¬ r.Fills x →
      LeftAlone d name x (V.volume s) (V.volume (serve fs.toExt2fsNew s r)) :=
    fun hm hf => serve_leftAlone hL hE hC hdots hd hx hm hf
  cases c with
  | attributes item => exact leftAlone_of_looks (attributesOf_looks hL.lawful item)
  | setAttributes size item =>
    exact Spec.final (setAttributes_leftAlone hL.lawful hC hc) (LeftAlone.refl _)
  | lookupItem new directory => exact leftAlone_of_looks (lookupItem_looks hL.lawful new directory)
  | enumerateDirectory directory cookie limit =>
    exact View.Is.leftAlone
      (Spec.final (enumerateDirectory_looks hL.lawful hI directory cookie (packUpTo limit)) rfl)
  | createItem new type directory mode uid gid => exact createItem_leftAlone hserve hc
  | createSymbolicLink new directory contents => exact createSymbolicLink_leftAlone hserve hc
  | removeItem item old directory => exact removeItem_leftAlone hserve hc
  | renameItem sourceDirectory old new destinationDirectory => exact renameItem_leftAlone hserve hc
  | read item offset length room =>
    exact leftAlone_of_looks (readItem_looks hL.lawful item offset length room)
  | write contents item offset =>
    exact Spec.final (write_leftAlone hL.lawful hc) (LeftAlone.refl _)
  | readSymbolicLink item => exact leftAlone_of_looks (readSymbolicLink_looks hL.lawful item)

end Perform

/-! ## A file that is made and written -/

/-- The file ends with `bytes`, which start at `o`. -/
structure EndsIn (v : Volume) (x : UInt32) (o : Nat) (bytes : List UInt8) : Prop where
  size : (v.node x).size.toNat = o + bytes.length
  stored : slice (v.data x) o bytes.length = bytes

theorem EndsIn.bytesAt {v : Volume} {x : UInt32} {o pos len : Nat} {bytes : List UInt8}
    (h : EndsIn v x o bytes) (hpos : o ≤ pos) :
    v.bytesAt x pos len = (bytes.drop (pos - o)).take len := by
  rw [Volume.bytesAt, h.size]
  by_cases hin : pos - o ≤ bytes.length
  · have hdrop : bytes.drop (pos - o) = slice (v.data x) pos (bytes.length - (pos - o)) := by
      conv_lhs => rw [← h.stored]
      rw [drop_slice hin, Nat.add_sub_cancel' hpos]
    rw [hdrop, List.take_eq_take_min, length_slice, take_slice (Nat.min_le_right _ _),
      show o + bytes.length - pos = bytes.length - (pos - o) by omega]
  · rw [List.drop_eq_nil_of_le (by omega), List.take_nil,
      show o + bytes.length - pos = 0 by omega, Nat.min_zero, slice_zero]

theorem SameFile.endsIn {v w : Volume} {d x : UInt32} {name bytes : List UInt8} {o : Nat}
    (h : SameFile d name x v w) (hv : EndsIn v x o bytes) : EndsIn w x o bytes :=
  ⟨by rw [h.size, hv.size], by rw [h.data, hv.stored]⟩

section Made

variable {fs : Ext2fsVolume σ} {V : View σ} {s s' : σ} {writable : Bool}

/-- A name that was free stands for the new file. -/
theorem createItem_names (hL : LawfulNew fs.toExt2fsNew V) {name given : FSFileName}
    {cname : List UInt8} (hname : name.string = some cname) {type : ItemType}
    (htype : type ≠ .directory) {dir : EXTItem} {item : FSItem} {mode uid gid : UInt32}
    (hfree : (V.volume s).named dir.ino.toUInt32 (cstr cname) = none)
    (hrun : createItem fs name type (.ext dir) mode uid gid s = .ok (item, given) s') :
    ∃ child, item = .ext ⟨child.toUInt64, dir.ino⟩ ∧
      (V.volume s').named dir.ino.toUInt32 (cstr cname) = some child := by
  simp only [createItem, hname, if_neg htype] at hrun
  obtain ⟨ino, t, hcreate, hret⟩ := bind_ok_iff.mp hrun
  cases hret
  have hcreate' := thrown_ok_iff.mp hcreate
  unfold extfskCreate at hcreate'
  by_cases hlen : 255 < (cstr cname).length
  · rw [if_pos hlen] at hcreate'
    cases hcreate'
  · rw [if_neg hlen, if_neg (by decide)] at hcreate'
    obtain ⟨child, rfl, hmade⟩ := (createFile_spec hL (V.volume s) _ _ _ uid gid).ok rfl hcreate'
    obtain ⟨w, hentered, hw⟩ := hmade.made
    obtain ⟨l₁, l₂, hdir, hnew⟩ := hentered.dir
    have hfound := named_new (e := ⟨child, cstr cname, EXT2_FT_REG_FILE⟩) hdir hfree
    refine ⟨child, rfl, ?_⟩
    rw [← hfound, hw]
    exact named_congr hnew _ _

theorem write_stores (hL : Lawful fs.toExt2fs V) {item : EXTItem} {contents : List UInt8}
    {offset : UInt64} {n : UInt32} (hoffset : offset.toNat < 2 ^ 32)
    (hlength : contents.length < 2 ^ 32)
    (hrun : write fs writable (some contents) (.ext item) offset s = .ok n s') :
    EndsIn (V.volume s') item.ino.toUInt32 offset.toNat contents ∧
      (V.volume s').dir = (V.volume s).dir := by
  unfold write at hrun
  by_cases hw : ¬ writable
  · rw [if_pos hw] at hrun
    cases hrun
  · rw [if_neg hw] at hrun
    obtain ⟨hn, hv⟩ := (extfskWrite_spec hL (V.volume s) item.ino offset contents).ok rfl
      (thrown_ok_iff.mp hrun)
    have hcount : n.toNat = contents.length := by
      rw [hn, UInt32.toNat_ofNat', Nat.mod_eq_of_lt hlength]
    have hlow : offset.toUInt32.toNat = offset.toNat := by
      rw [UInt64.toNat_toUInt32, Nat.mod_eq_of_lt hoffset]
    have hend : (offset + n.toUInt64).toNat = offset.toNat + contents.length := by
      rw [UInt64.toNat_add, UInt32.toNat_toUInt64, hcount, Nat.mod_eq_of_lt (by omega)]
    rw [hcount, List.take_length, hlow] at hv
    rw [hv.eq]
    refine ⟨⟨?_, ?_⟩, rfl⟩
    · simp [resize, hend]
    · simp only [resize_data, store_data, Function.update_self]
      exact slice_overwrite_self _ _ _

end Made

/-! ## Runs -/

section Runs

variable {fs : Ext2fsVolume σ} {V : View σ} {blocksize : UInt32} {writable : Bool}

/-- Calls about neither the name nor the file, while the directory and the file are in use. -/
structure Around (fs : Ext2fsVolume σ) (V : View σ) (blocksize : UInt32) (writable : Bool)
    (d : UInt32) (name : List UInt8) (x : UInt32) (s : σ) (calls : List VolumeCall) : Prop where
  along : Along (perform fs blocksize writable) (fun t c => ((V.volume t).inUse d = true ∧
    (V.volume t).inUse x = true) ∧ ¬ c.Concerns d name x) s calls
  dir : (V.volume (calls.foldl (perform fs blocksize writable) s)).inUse d = true
  file : (V.volume (calls.foldl (perform fs blocksize writable) s)).inUse x = true

theorem Around.sameFile {d x : UInt32} {name : List UInt8} {s : σ} {calls : List VolumeCall}
    (h : Around fs V blocksize writable d name x s calls) (hL : LawfulNew fs.toExt2fsNew V)
    (hE : LawfulEdit fs.toExt2fs V) (hC : Confined fs.toExt2fsNew V)
    (hI : LawfulVisit fs.toExt2fs V) (hdots : ¬ IsDots name) :
    SameFile d name x (V.volume s)
      (V.volume (calls.foldl (perform fs blocksize writable) s)) := by
  have hstep : ∀ t c, V.LeftAlone d name x (V.volume s) t →
      (((V.volume t).inUse d = true ∧ (V.volume t).inUse x = true) ∧ ¬ c.Concerns d name x) →
      True ∧ V.LeftAlone d name x (V.volume s) (perform fs blocksize writable t c) := by
    rintro t c ht ⟨⟨hd, hx⟩, hc⟩
    exact ⟨trivial, LeftAlone.trans ht (perform_leftAlone hL hE hC hI hdots hd hx hc)⟩
  have hsame := (along_of_inv (I := V.LeftAlone d name x (V.volume s)) hstep (LeftAlone.refl _)
    h.along).2
  exact (hsame h.dir h.file).2

/-- A client makes a file under a name that was free and writes it, with any calls in between and
afterwards, each of which may fail, that are not about the name nor the file. If it then finds the
name it gets the item it has made, the size that is reported is where its bytes end, and what it
reads of them is what it has written. -/
theorem found_again (hL : LawfulNew fs.toExt2fsNew V) (hE : LawfulEdit fs.toExt2fs V)
    (hC : Confined fs.toExt2fsNew V) (hI : LawfulVisit fs.toExt2fs V) {dir item : EXTItem}
    {found : FSItem} {name given given' : FSFileName} {cname contents : List UInt8}
    (hname : name.string = some cname) (hdots : ¬ IsDots (cstr cname)) {type : ItemType}
    (htype : type ≠ .directory) {mode uid gid n : UInt32} {offset : UInt64} {s s₁ s₂ s₃ : σ}
    {before after : List VolumeCall}
    (hfree : (V.volume s).named dir.ino.toUInt32 (cstr cname) = none)
    (hmade : createItem fs name type (.ext dir) mode uid gid s = .ok (.ext item, given) s₁)
    (hbefore : Around fs V blocksize writable dir.ino.toUInt32 (cstr cname) item.ino.toUInt32 s₁
      before)
    (hoffset : offset.toNat < 2 ^ 32) (hlength : contents.length < 2 ^ 32)
    (hwrite : write fs writable (some contents) (.ext item) offset
      (before.foldl (perform fs blocksize writable) s₁) = .ok n s₂)
    (hafter : Around fs V blocksize writable dir.ino.toUInt32 (cstr cname) item.ino.toUInt32 s₂
      after)
    (hfound : lookupItem fs name (.ext dir) (after.foldl (perform fs blocksize writable) s₂) =
      .ok (found, given') s₃) :
    found = .ext item ∧
      (∀ attrs s₄, attributesOf fs found s₃ = .ok attrs s₄ →
        attrs.size.toNat = offset.toNat + contents.length) ∧
      ∀ pos length room got s₄, offset ≤ pos → pos.toNat < 2 ^ 32 →
        (min length room).toNat < 2 ^ 32 →
        read fs found pos length (some room) s₃ = .ok got s₄ →
        got = (contents.drop (pos.toNat - offset.toNat)).take (min length room).toNat := by
  obtain ⟨child, hitem, hnamed⟩ := createItem_names hL hname htype hfree hmade
  cases hitem
  simp only [UInt32.toUInt32_toUInt64] at hbefore hafter
  have hfirst := hbefore.sameFile hL hE hC hI hdots
  have hlast := hafter.sameFile hL hE hC hI hdots
  obtain ⟨hends, hdir⟩ := write_stores hL.lawful hoffset hlength hwrite
  rw [UInt32.toUInt32_toUInt64] at hends
  have hstill : (V.volume (after.foldl (perform fs blocksize writable) s₂)).named dir.ino.toUInt32
      (cstr cname) = some child := by
    rw [hlast.named, named_congr hdir, hfirst.named, hnamed]
  -- the lookup finds the file, and looks only
  have hsame := (lookupItem_looks hL.lawful name (.ext dir)).ok rfl hfound
  have hthere : found = .ext ⟨child.toUInt64, dir.ino⟩ := by
    simp only [lookupItem, hname] at hfound
    obtain ⟨ino, t, hlookup, hret⟩ := bind_ok_iff.mp hfound
    cases hret
    obtain ⟨i, u, hlook, hpure⟩ := orFail_bind_ok_iff.mp (thrown_ok_iff.mp hlookup)
    cases hpure
    have hi := ((hL.lawful.lookup _ dir.ino.toUInt32 (cstr cname)).ok rfl hlook).1
    rw [hstill] at hi
    cases hi
    rfl
  have hend : EndsIn (V.volume s₃) child offset.toNat contents := by
    rw [hsame.eq]
    exact hlast.endsIn hends
  subst hthere
  refine ⟨rfl, fun attrs s₄ hattrs => ?_, fun pos length room got s₄ hpos hp hl hread => ?_⟩
  · obtain ⟨st, t, hget, hret⟩ := bind_ok_iff.mp hattrs
    cases hret
    obtain ⟨inode, u, hinode, hst⟩ := orFail_bind_ok_iff.mp (thrown_ok_iff.mp hget)
    cases hst
    have hnode := ((hL.lawful.readInode _ _).ok rfl hinode).1
    rw [UInt32.toUInt32_toUInt64] at hnode
    rw [← hend.size, ← hnode]
    rfl
  · have hgot := ((extfskRead_spec hL.lawful _ _ _ _).ok rfl (thrown_ok_iff.mp hread)).1
    rw [UInt32.toUInt32_toUInt64, UInt64.toNat_toUInt32, UInt64.toNat_toUInt32,
      Nat.mod_eq_of_lt hp, Nat.mod_eq_of_lt hl] at hgot
    rw [hgot]
    exact hend.bytesAt (UInt64.le_iff_toNat_le.mp hpos)

end Runs

/-! ## Beside two other files -/

theorem visitEdit_unchanged {proc : DirentProc σ κ}
    (hnone : ∀ e offset st, (proc e offset st).1.changed = none) {es : List DirEntry}
    (h : ∀ e ∈ es, e.inode ≠ 0) (offset : Nat) (st : σ × κ) :
    visitEdit proc offset es st = (es, (visitBlock proc false offset es st).2) := by
  induction es generalizing offset st with
  | nil => rfl
  | cons e es ih =>
    have hrest := fun st => ih (fun x hx => h x (by simp [hx])) (offset + e.recLen.toNat) st
    have hsame : (proc e offset st).1.changed.getD e = e := by rw [hnone]; rfl
    simp only [visitEdit, visitBlock, if_pos (Or.inl (h e (by simp)))]
    by_cases habort : (proc e offset st).1.abort = true
    · simp only [if_pos habort, hsame]
    · simp only [if_neg habort, hsame, hrest]

theorem visitBlocks_singleton (proc : DirentProc σ κ) (deleted : Bool) (es : List DirEntry)
    (st : σ × κ) : visitBlocks proc deleted [es] st = (visitBlock proc deleted 0 es st).2 := by
  simp only [visitBlocks]
  split
  · rename_i h
    rw [h]
  · rename_i h
    rw [h]

theorem setDir_self {v : Volume} {d : UInt32} : v.setDir d (v.dir d) = v := by
  rw [setDir, Function.update_eq_self]

/-- What it writes back is what was there. -/
theorem iterate_unchanged {d : UInt32} {proc : DirentProc RefState κ}
    (hnone : ∀ e offset st, (proc e offset st).1.changed = none)
    (hproc : ∀ e offset st, (proc e offset st).2.1.volume = st.1.volume) {st : RefState × κ}
    (h : ∀ e ∈ st.1.volume.dir d, e.Storable) :
    RefState.iterate d proc st =
      .ok () (visitBlocks proc false [(st.1.volume.dir d).map Dirent.onDisk] st) := by
  have hlive : ∀ e ∈ (st.1.volume.dir d).map Dirent.onDisk, e.inode ≠ 0 := by
    intro e he
    obtain ⟨x, hx, rfl⟩ := List.mem_map.mp he
    exact (h x hx).1
  have hsame : (visitBlock proc false 0 ((st.1.volume.dir d).map Dirent.onDisk) st).2.1.volume =
      st.1.volume := by
    rw [visitBlock_eq]
    exact visitAll_looks (V := RefState.view) hproc false _ st
  rw [visitBlocks_singleton]
  unfold RefState.iterate
  rw [if_pos h, visitEdit_unchanged hnone hlive]
  simp only [liveDirents_onDisk h]
  generalize visitBlock proc false 0 ((st.1.volume.dir d).map Dirent.onDisk) st = q at hsame ⊢
  rw [← hsame, setDir_self]

theorem refLibraryNew_visit : LawfulVisit refLibraryNew.toExt2fs RefState.view where
  dirIterate2 := by
    intro κ v d proc st hnone hproc hv st' hst
    subst hst
    have hvol : st'.1.volume = v := hv
    by_cases h : ∀ e ∈ st'.1.volume.dir d, e.Storable
    · rw [show refLibraryNew.dirIterate2 d proc st' = _ from iterate_unchanged hnone hproc h]
      refine ⟨[(st'.1.volume.dir d).map Dirent.onDisk], ?_, rfl⟩
      rw [← hvol, dirents, List.flatMap_singleton, liveDirents_onDisk h]
    · rw [show refLibraryNew.dirIterate2 d proc st' = .error (.other 0) st' from if_neg h]
      exact hv

def refVolume : Ext2fsVolume RefState where
  toExt2fsNew := refLibraryNew
  isFastSymlink i := LINUX_S_ISLNK i.iMode ∧ i.iSize ≠ 0 ∧ i.iSize < 60

def rootItem : FSItem := .ext ⟨2, 2⟩

/-- Before the new file is written the directory is listed and `b` gets another name. -/
def beforeF : List VolumeCall :=
  [.enumerateDirectory rootItem 0 9, .renameItem rootItem ⟨some nameB⟩ ⟨some [0x67]⟩ rootItem]

/-- Afterwards `a` is written and cut, what was `b` is removed, and a new `b` is made. -/
def afterF : List VolumeCall :=
  [.write (some [9, 9, 9, 9]) (.ext ⟨12, 2⟩) 1, .setAttributes (some 2) (.ext ⟨12, 2⟩),
    .removeItem (.ext ⟨13, 2⟩) ⟨some [0x67]⟩ rootItem,
    .createItem ⟨some nameB⟩ .file rootItem 0 0 0]

def madeF : RefState := final (createItem refVolume ⟨some nameF⟩ .file rootItem 0 0 0 twoFiles)

def writtenF : RefState :=
  final (write refVolume true (some [4, 5, 6]) (.ext ⟨14, 2⟩) 1
    (beforeF.foldl (perform refVolume 1024 true) madeF))

theorem found_again_beside :
    ∃ s, lookupItem refVolume ⟨some nameF⟩ rootItem
        (afterF.foldl (perform refVolume 1024 true) writtenF) = .ok (.ext ⟨14, 2⟩, ⟨some nameF⟩) s ∧
      ∀ got s', read refVolume (.ext ⟨14, 2⟩) 2 7 (some 9) s = .ok got s' → got = [5, 6] := by
  have hbefore : Around refVolume RefState.view 1024 true 2 nameF 14 madeF beforeF :=
    ⟨⟨⟨by decide, by decide⟩, ⟨by decide, by decide⟩, trivial⟩, by decide, by decide⟩
  have hafter : Around refVolume RefState.view 1024 true 2 nameF 14 writtenF afterF :=
    ⟨⟨⟨by decide, by decide⟩, ⟨by decide, by decide⟩, ⟨by decide, by decide⟩,
      ⟨by decide, by decide⟩, trivial⟩, by decide, by decide⟩
  have hmade : createItem refVolume ⟨some nameF⟩ .file rootItem 0 0 0 twoFiles =
      .ok (.ext ⟨14, 2⟩, ⟨some nameF⟩) madeF := rfl
  have hwrite : write refVolume true (some [4, 5, 6]) (.ext ⟨14, 2⟩) 1
      (beforeF.foldl (perform refVolume 1024 true) madeF) = .ok 3 writtenF := rfl
  have hlookup : lookupItem refVolume ⟨some nameF⟩ rootItem
      (afterF.foldl (perform refVolume 1024 true) writtenF) =
      .ok (.ext ⟨14, 2⟩, ⟨some nameF⟩) (afterF.foldl (perform refVolume 1024 true) writtenF) := rfl
  have hL : LawfulNew refVolume.toExt2fsNew RefState.view := refLibraryNew_lawful
  have hname : FSFileName.string ⟨some nameF⟩ = some nameF := rfl
  have hfound := found_again hL refLibraryNew_edit refLibraryNew_confined refLibraryNew_visit hname
    (by decide) (by decide) rfl hmade hbefore (by decide) (by decide) hwrite hafter hlookup
  exact ⟨_, hlookup, fun got s' hread =>
    hfound.2.2 2 7 9 got s' (by decide) (by decide) (by decide) hread⟩

end Ext
end Usbrw
