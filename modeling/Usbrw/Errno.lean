/-!
# Errno

The Darwin `errno` values the bridge names. Every entry point returns 0 or a count on success and
a negated `errno` on failure, except where a callback is passed through unchanged.
-/

namespace Usbrw

def EPERM : Int := 1
def ENOENT : Int := 2
def EIO : Int := 5
def ENOMEM : Int := 12
def EFAULT : Int := 14
def EEXIST : Int := 17
def ENODEV : Int := 19
def ENOTDIR : Int := 20
def EINVAL : Int := 22
def ENOSPC : Int := 28
def EROFS : Int := 30
def ERANGE : Int := 34
def ENAMETOOLONG : Int := 63
def ENOTEMPTY : Int := 66
def EILSEQ : Int := 92
def ENOATTR : Int := 93
def EOPNOTSUPP : Int := 102

end Usbrw
