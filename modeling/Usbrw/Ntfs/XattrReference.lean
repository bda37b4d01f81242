import Mathlib.Data.List.AList
import Usbrw.Ntfs.Utf8
import Usbrw.Ntfs.Xattr

/-!
# Ntfs.XattrReference

A library that obeys the laws of `Ntfs.Xattr`: a list of streams with their contents, whose names
are of a length that the disk has room for. Names are converted as in `Ntfs.Utf8`, at most two bytes
are written at a time, and a stream that exists is not added.
-/

namespace Usbrw
namespace Ntfs

open Call

structure RefXattrs where
  streams : AList fun _ : Stream => List UInt8
  flags : UInt64 → UInt32
  short : ∀ k ∈ streams, k.2.length < 256

namespace RefXattrs

/-- A name that is too long stays out. -/
def put (s : RefXattrs) (k : Stream) (value : List UInt8) : RefXattrs :=
  if hk : k.2.length < 256 then
    { s with
      streams := s.streams.insert k value
      short := fun k' hk' =>
        ((AList.mem_insert s.streams).mp hk').elim (fun h => h ▸ hk) (s.short k') }
  else s

def drop (s : RefXattrs) (k : Stream) : RefXattrs :=
  { s with
    streams := s.streams.erase k
    short := fun k' hk' => s.short k' (AList.mem_erase.mp hk').2 }

def view : XattrView RefXattrs where
  streams s := fun k => s.streams.lookup k
  kinds s := fun r => some (s.flags r &&& xattrFlags)

theorem put_short {s : RefXattrs} {k : Stream} (hk : k.2.length < 256) (value : List UInt8) :
    (s.put k value).streams = s.streams.insert k value ∧ (s.put k value).flags = s.flags := by
  simp [put, hk]

theorem short_of_lookup {s : RefXattrs} {k : Stream} {v : List UInt8}
    (h : s.streams.lookup k = some v) : k.2.length < 256 :=
  s.short k (AList.lookup_isSome.mp (by rw [h]; rfl))

theorem put_is {S : Streams} {K : UInt64 → Option UInt32} {s : RefXattrs} (hs : view.Is S K s)
    {k : Stream} (hk : k.2.length < 256) (value : List UInt8) :
    view.Is (Function.update S k (some value)) K (s.put k value) := by
  obtain ⟨hstreams, hflags⟩ := put_short (s := s) hk value
  refine ⟨?_, by simpa only [view, hflags] using hs.kinds⟩
  rw [← hs.streams]
  funext k'
  simp only [view, hstreams]
  by_cases heq : k' = k
  · rw [heq, Function.update_self]
    exact AList.lookup_insert s.streams
  · rw [Function.update_of_ne heq]
    exact AList.lookup_insert_ne heq

theorem drop_is {S : Streams} {K : UInt64 → Option UInt32} {s : RefXattrs} (hs : view.Is S K s)
    (k : Stream) : view.Is (Function.update S k none) K (s.drop k) := by
  refine ⟨?_, hs.kinds⟩
  rw [← hs.streams]
  funext k'
  by_cases hk : k' = k
  · rw [hk, Function.update_self]
    exact AList.lookup_erase k s.streams
  · rw [Function.update_of_ne hk]
    exact AList.lookup_erase_ne hk

end RefXattrs

open RefXattrs

theorem EEXIST_pos : 0 < EEXIST := by decide

/-- All records are there, and none is a directory. Names in directories are not part of it. -/
def refLibxattr : Libxattr RefXattrs where
  mbstoucs := utf8Mbstoucs
  inodeOpen r := fun s => .ok ⟨r, false, false⟩ s
  inodeClose _ := fun s => .ok () s
  inodeLookupByName _ _ := fun s => .error ⟨ENOENT, ENOENT_pos⟩ s
  inodeUpdateTimes _ _ s := s
  checkEmptyDir _ := fun s => .ok () s
  link _ _ _ := fun s => .error ⟨EOPNOTSUPP, EOPNOTSUPP_pos⟩ s
  delete _ _ _ := fun s => .error ⟨EOPNOTSUPP, EOPNOTSUPP_pos⟩ s
  errno _ := 0
  ucstombs := utf8Ucstombs
  flags ni s := s.flags ni.mftNo
  setFlags ni f s := { s with flags := Function.update s.flags ni.mftNo f }
  attrOpen ni u := fun s =>
    match s.streams.lookup (ni.mftNo, u) with
    | some v => .ok ⟨ni, u, v.length⟩ s
    | none => .error ⟨ENOENT, ENOENT_pos⟩ s
  attrClose _ s := s
  attrAdd ni u := fun s =>
    match s.streams.lookup (ni.mftNo, u) with
    | some _ => .error ⟨EEXIST, EEXIST_pos⟩ s
    | none => .ok () (s.put (ni.mftNo, u) [])
  attrRm na := fun s => .ok () (s.drop (na.inode.mftNo, na.name))
  attrTruncate na n := fun s =>
    match s.streams.lookup (na.inode.mftNo, na.name) with
    | some v => .ok () (s.put (na.inode.mftNo, na.name) (v.take n))
    | none => .error ⟨ EIO, EIO_pos⟩ s
  attrPread na pos n := fun s =>
    match s.streams.lookup (na.inode.mftNo, na.name) with
    | some v => .ok ((v.drop pos).take n) s
    | none => .error ⟨ EIO, EIO_pos⟩ s
  attrPwrite na pos bytes := fun s =>
    match s.streams.lookup (na.inode.mftNo, na.name) with
    | some v => .ok (min 2 bytes.length)
        (s.put (na.inode.mftNo, na.name) (overwrite v pos (bytes.take (min 2 bytes.length))))
    | none => .error ⟨ EIO, EIO_pos⟩ s
  attrPclose _ := fun s => .ok () s
  attrGetSearchCtx ni := fun s =>
    .ok ⟨(s.streams.keys.filter fun k => k.1 = ni.mftNo).map Prod.snd, ⟨ENOENT, ENOENT_pos⟩⟩ s

theorem refLibxattr_lawful : LawfulXattr refLibxattr view where
  inodeOpen := by
    intro S K r s hs
    have hkind := congrFun hs.kinds r
    refine ⟨⟨rfl, ?_⟩, hs⟩
    rw [← hkind]
    rfl
  inodeClose := fun _ _ _ _ hs => hs
  inodeUpdateTimes := fun _ _ _ _ _ hs => hs
  flags := by
    intro S K ni s k hs hk
    have hkind := congrFun hs.kinds ni.mftNo
    rw [hk] at hkind
    exact Option.some.inj hkind
  setFlags := by
    intro S K ni f s hf hs
    refine ⟨hs.streams, ?_⟩
    rw [← hs.kinds]
    funext r
    by_cases hr : r = ni.mftNo
    · rw [hr]
      simp only [view, refLibxattr, Function.update_self]
      exact congrArg some hf
    · simp [view, refLibxattr, Function.update_of_ne hr]
  attrOpen := by
    intro S K ni u s hs
    have hstream := congrFun hs.streams (ni.mftNo, u)
    simp only [view] at hstream
    simp only [refLibxattr]
    cases hv : s.streams.lookup (ni.mftNo, u) with
    | some v => exact ⟨⟨v, by rw [← hstream, hv], rfl⟩, hs⟩
    | none => exact ⟨by rw [← hstream, hv], hs⟩
  attrClose := fun _ _ _ _ hs => hs
  attrAdd := by
    intro S K ni u hshort hnone s hs
    have hstream := congrFun hs.streams (ni.mftNo, u)
    simp only [view, hnone] at hstream
    simp only [refLibxattr, hstream]
    exact put_is hs hshort []
  addExisting := by
    intro S K ni u v hv s hs
    have hstream := congrFun hs.streams (ni.mftNo, u)
    simp only [view, hv] at hstream
    simp only [refLibxattr, hstream]
    exact hs
  attrRm := fun _ _ _ _ hs => drop_is hs _
  attrTruncate := by
    intro S K na v hv s hs
    have hstream := congrFun hs.streams (na.inode.mftNo, na.name)
    simp only [view, hv] at hstream
    simp only [refLibxattr, hstream]
    exact put_is hs (short_of_lookup hstream) _
  attrPread := by
    intro S K na v pos n hv s hs
    have hstream := congrFun hs.streams (na.inode.mftNo, na.name)
    simp only [view, hv] at hstream
    simp only [refLibxattr, hstream]
    exact ⟨trivial, hs⟩
  attrPwrite := by
    intro S K na v pos bytes hv _ hne s hs
    have hstream := congrFun hs.streams (na.inode.mftNo, na.name)
    have hpos := List.length_pos_of_ne_nil hne
    simp only [view, hv] at hstream
    simp only [refLibxattr, hstream]
    exact ⟨⟨by omega, by omega⟩, put_is hs (short_of_lookup hstream) _⟩
  attrPclose := fun _ _ _ _ hs => hs
  attrGetSearchCtx := by
    intro S K ni s hs
    refine ⟨⟨?_, fun u => ?_, rfl⟩, hs⟩
    · refine (s.streams.keys_nodup.filter _).map_on fun k hk k' hk' heq => ?_
      have h1 : k.1 = ni.mftNo := by simpa using (List.mem_filter.mp hk).2
      have h2 : k'.1 = ni.mftNo := by simpa using (List.mem_filter.mp hk').2
      exact Prod.ext (h1.trans h2.symm) heq
    · rw [← hs.streams]
      have hmem : (ni.mftNo, u) ∈ s.streams.keys ↔ (s.streams.lookup (ni.mftNo, u)).isSome :=
        AList.mem_keys.symm.trans AList.lookup_isSome.symm
      simp [view, ← hmem]

end Ntfs
end Usbrw
