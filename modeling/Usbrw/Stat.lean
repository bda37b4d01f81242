/-!
# Stat

`nfsk_stat`, the attributes both bridges report, and the Darwin mode bits they put into it.
-/

namespace Usbrw

structure NfskStat where
  mft : UInt64
  mode : UInt32
  uid : UInt32
  gid : UInt32
  size : UInt64
  allocSize : UInt64
  links : UInt64
  atime : Int64
  mtime : Int64
  ctime : Int64
  btime : Int64
  flags : UInt32
  deriving DecidableEq

/-- `nfsk_stat st = {0}`. -/
def NfskStat.zero : NfskStat := ⟨0, 0, 0, 0, 0, 0, 0, 0, 0, 0, 0, 0⟩

def S_IFIFO : UInt32 := 0x1000
def S_IFCHR : UInt32 := 0x2000
def S_IFDIR : UInt32 := 0x4000
def S_IFBLK : UInt32 := 0x6000
def S_IFREG : UInt32 := 0x8000
def S_IFLNK : UInt32 := 0xA000
def S_IFSOCK : UInt32 := 0xC000

end Usbrw
