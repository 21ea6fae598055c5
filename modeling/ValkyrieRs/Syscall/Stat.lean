import ValkyrieRs.Syscall.Io

/-!
# File status and renaming

The structures of `fs.rs` and `libc`, their packed forms, and the handlers of `os/syscall/io.rs`
that take a directory descriptor besides `sys_openat`.
-/

namespace ValkyrieRs

open Proc

/-! ## Structures -/

/-- The `n` bytes at an offset of a structure in memory. -/
def leAt (bytes : List U8) (offset n : ℕ) : U64 := fromLeBytes ((bytes.drop offset).take n)

/-- `libc::stat`. -/
structure Stat where
  stDev : U64
  stIno : U64
  stNlink : U64
  stMode : U32
  stUid : U32
  stGid : U32
  stRdev : U64
  stSize : U64
  stBlksize : U64
  stBlocks : U64
  stAtime : U64
  stAtimeNsec : U64
  stMtime : U64
  stMtimeNsec : U64
  stCtime : U64
  stCtimeNsec : U64
deriving DecidableEq

/-- The structure that the host wrote. -/
def Stat.ofBytes (bytes : List U8) : Stat where
  stDev := leAt bytes 0 8
  stIno := leAt bytes 8 8
  stNlink := leAt bytes 16 8
  stMode := (leAt bytes 24 4).setWidth 32
  stUid := (leAt bytes 28 4).setWidth 32
  stGid := (leAt bytes 32 4).setWidth 32
  stRdev := leAt bytes 40 8
  stSize := leAt bytes 48 8
  stBlksize := leAt bytes 56 8
  stBlocks := leAt bytes 64 8
  stAtime := leAt bytes 72 8
  stAtimeNsec := leAt bytes 80 8
  stMtime := leAt bytes 88 8
  stMtimeNsec := leAt bytes 96 8
  stCtime := leAt bytes 104 8
  stCtimeNsec := leAt bytes 112 8

/-- The memory of the structure, with zeroed padding. -/
def Stat.toBytes (st : Stat) : List U8 :=
  toLeBytes 8 st.stDev ++ toLeBytes 8 st.stIno ++ toLeBytes 8 st.stNlink ++
  toLeBytes 4 st.stMode ++ toLeBytes 4 st.stUid ++ toLeBytes 4 st.stGid ++ toLeBytes 4 (0 : U32) ++
  toLeBytes 8 st.stRdev ++ toLeBytes 8 st.stSize ++ toLeBytes 8 st.stBlksize ++
  toLeBytes 8 st.stBlocks ++ toLeBytes 8 st.stAtime ++ toLeBytes 8 st.stAtimeNsec ++
  toLeBytes 8 st.stMtime ++ toLeBytes 8 st.stMtimeNsec ++ toLeBytes 8 st.stCtime ++
  toLeBytes 8 st.stCtimeNsec ++ List.replicate 24 0

/-- The memory of `stat64` of x86, which is packed. -/
def packLinuxX86Stat64Le (st : Stat) : List U8 :=
  toLeBytes 8 st.stDev ++ toLeBytes 4 (0 : U32) ++ toLeBytes 4 (st.stIno.setWidth 32) ++
  toLeBytes 4 st.stMode ++ toLeBytes 4 (st.stNlink.setWidth 32) ++ toLeBytes 4 st.stUid ++
  toLeBytes 4 st.stGid ++ toLeBytes 8 st.stRdev ++ toLeBytes 4 (0 : U32) ++
  toLeBytes 8 st.stSize ++ toLeBytes 4 (st.stBlksize.setWidth 32) ++ toLeBytes 8 st.stBlocks ++
  toLeBytes 4 (st.stAtime.setWidth 32) ++ toLeBytes 4 (st.stAtimeNsec.setWidth 32) ++
  toLeBytes 4 (st.stMtime.setWidth 32) ++ toLeBytes 4 (st.stMtimeNsec.setWidth 32) ++
  toLeBytes 4 (st.stCtime.setWidth 32) ++ toLeBytes 4 (st.stCtimeNsec.setWidth 32) ++
  toLeBytes 8 st.stIno

/-- `libc::statx_timestamp`. -/
structure StatxTimestamp where
  tvSec : U64
  tvNsec : U32
  reserved : U32
deriving DecidableEq

/-- `libc::statx`. -/
structure Statx where
  stxMask : U32
  stxBlksize : U32
  stxAttributes : U64
  stxNlink : U32
  stxUid : U32
  stxGid : U32
  stxMode : BitVec 16
  spare0 : BitVec 16
  stxIno : U64
  stxSize : U64
  stxBlocks : U64
  stxAttributesMask : U64
  stxAtime : StatxTimestamp
  stxBtime : StatxTimestamp
  stxCtime : StatxTimestamp
  stxMtime : StatxTimestamp
  stxRdevMajor : U32
  stxRdevMinor : U32
  stxDevMajor : U32
  stxDevMinor : U32
  stxMntId : U64
  spare2 : Vector U64 13
deriving DecidableEq

/-- The time that the host wrote. -/
def StatxTimestamp.ofBytes (bytes : List U8) (offset : ℕ) : StatxTimestamp where
  tvSec := leAt bytes offset 8
  tvNsec := (leAt bytes (offset + 8) 4).setWidth 32
  reserved := (leAt bytes (offset + 12) 4).setWidth 32

/-- The structure that the host wrote. -/
def Statx.ofBytes (bytes : List U8) : Statx where
  stxMask := (leAt bytes 0 4).setWidth 32
  stxBlksize := (leAt bytes 4 4).setWidth 32
  stxAttributes := leAt bytes 8 8
  stxNlink := (leAt bytes 16 4).setWidth 32
  stxUid := (leAt bytes 20 4).setWidth 32
  stxGid := (leAt bytes 24 4).setWidth 32
  stxMode := (leAt bytes 28 2).setWidth 16
  spare0 := (leAt bytes 30 2).setWidth 16
  stxIno := leAt bytes 32 8
  stxSize := leAt bytes 40 8
  stxBlocks := leAt bytes 48 8
  stxAttributesMask := leAt bytes 56 8
  stxAtime := .ofBytes bytes 64
  stxBtime := .ofBytes bytes 80
  stxCtime := .ofBytes bytes 96
  stxMtime := .ofBytes bytes 112
  stxRdevMajor := (leAt bytes 128 4).setWidth 32
  stxRdevMinor := (leAt bytes 132 4).setWidth 32
  stxDevMajor := (leAt bytes 136 4).setWidth 32
  stxDevMinor := (leAt bytes 140 4).setWidth 32
  stxMntId := leAt bytes 144 8
  spare2 := Vector.ofFn fun i => leAt bytes (152 + 8 * i) 8

/-- The memory of a time of `statx`. -/
def packTimestampLe (ts : StatxTimestamp) : List U8 :=
  toLeBytes 8 ts.tvSec ++ toLeBytes 4 ts.tvNsec ++ toLeBytes 4 ts.reserved

/-- The memory of `statx`. -/
def packStatxLe (st : Statx) : List U8 :=
  toLeBytes 4 st.stxMask ++ toLeBytes 4 st.stxBlksize ++ toLeBytes 8 st.stxAttributes ++
  toLeBytes 4 st.stxNlink ++ toLeBytes 4 st.stxUid ++ toLeBytes 4 st.stxGid ++
  toLeBytes 2 st.stxMode ++ toLeBytes 2 st.spare0 ++ toLeBytes 8 st.stxIno ++
  toLeBytes 8 st.stxSize ++ toLeBytes 8 st.stxBlocks ++ toLeBytes 8 st.stxAttributesMask ++
  [st.stxAtime, st.stxBtime, st.stxCtime, st.stxMtime].flatMap packTimestampLe ++
  toLeBytes 4 st.stxRdevMajor ++ toLeBytes 4 st.stxRdevMinor ++ toLeBytes 4 st.stxDevMajor ++
  toLeBytes 4 st.stxDevMinor ++ toLeBytes 8 st.stxMntId ++
  st.spare2.toList.flatMap fun x => toLeBytes 8 x

/-- `libc::statfs64`; `f_fsid` by its bytes. -/
structure Statfs64 where
  fType : U64
  fBsize : U64
  fBlocks : U64
  fBfree : U64
  fBavail : U64
  fFiles : U64
  fFfree : U64
  fFsid : Vector U8 8
  fNamelen : U64
  fFrsize : U64
  fFlags : U64
  fSpare : Vector U64 4
deriving DecidableEq

/-- The structure that the host wrote. -/
def Statfs64.ofBytes (bytes : List U8) : Statfs64 where
  fType := leAt bytes 0 8
  fBsize := leAt bytes 8 8
  fBlocks := leAt bytes 16 8
  fBfree := leAt bytes 24 8
  fBavail := leAt bytes 32 8
  fFiles := leAt bytes 40 8
  fFfree := leAt bytes 48 8
  fFsid := Vector.ofFn fun i => bytes.getD (56 + i) 0
  fNamelen := leAt bytes 64 8
  fFrsize := leAt bytes 72 8
  fFlags := leAt bytes 80 8
  fSpare := Vector.ofFn fun i => leAt bytes (88 + 8 * i) 8

/-- The memory of the structure. -/
def Statfs64.toBytes (st : Statfs64) : List U8 :=
  toLeBytes 8 st.fType ++ toLeBytes 8 st.fBsize ++ toLeBytes 8 st.fBlocks ++
  toLeBytes 8 st.fBfree ++ toLeBytes 8 st.fBavail ++ toLeBytes 8 st.fFiles ++
  toLeBytes 8 st.fFfree ++ st.fFsid.toList ++ toLeBytes 8 st.fNamelen ++ toLeBytes 8 st.fFrsize ++
  toLeBytes 8 st.fFlags ++ st.fSpare.toList.flatMap fun x => toLeBytes 8 x

/-- The memory of `statfs` of x86. -/
def packLinuxX86StatfsLe (st : Statfs64) : List U8 :=
  toLeBytes 4 st.fType ++ toLeBytes 4 st.fBsize ++ toLeBytes 4 st.fBlocks ++
  toLeBytes 4 st.fBfree ++ toLeBytes 4 st.fBavail ++ toLeBytes 4 st.fFiles ++
  toLeBytes 4 st.fFfree ++ st.fFsid.toList ++ toLeBytes 4 st.fNamelen ++ toLeBytes 4 st.fFrsize ++
  toLeBytes 4 st.fFlags ++ List.replicate 16 0

/-- The memory of `LinuxX86StatFs64`, which is packed. -/
def packLinuxX86Statfs64Le (st : Statfs64) : List U8 :=
  toLeBytes 4 st.fType ++ toLeBytes 4 st.fBsize ++ toLeBytes 8 st.fBlocks ++
  toLeBytes 8 st.fBfree ++ toLeBytes 8 st.fBavail ++ toLeBytes 8 st.fFiles ++
  toLeBytes 8 st.fFfree ++ st.fFsid.toList ++ toLeBytes 4 st.fNamelen ++ toLeBytes 4 st.fFrsize ++
  toLeBytes 4 st.fFlags ++ List.replicate 16 0

/-! ## Handlers -/

/-- `stat_at`; its error is the number that the `io::Error` carries. -/
def statAt (dirfd : U32) (fileName : List Char) (flags : U32) : VkM (Except U32 Stat) := do
  if fileName = [] ∧ flags &&& atEmptyPath ≠ 0 then
    let st ← hostCall fun h => h.fstatat dirfd [] flags
    return st.map Stat.ofBytes
  else
    match ← guestPathAt dirfd fileName with
    | none => return .error EBADF
    | some absPath =>
      if Char.ofNat 0 ∈ absPath then
        return .error EINVAL
      let st ← hostCall fun h => h.fstatat atFdcwd absPath flags
      return st.map Stat.ofBytes

/-- `stat_at`, stored in the host's form. -/
def sysNewfstatat (sctx : SubCtx) : VkM U64 := do
  let dirfd := sctx.arg0.setWidth 32
  let pathnamePtr := sctx.arg1
  let statbufPtr := sctx.arg2
  let flags := sctx.arg3.setWidth 32
  let fileName ← readGuestCstring pathnamePtr
  match ← statAt dirfd fileName flags with
  | .error _ => lastErrno
  | .ok st =>
    memWrite statbufPtr st.toBytes
    return 0

/-- `stat_at`, stored as `stat64` of x86. -/
def sysFstatat64 (sctx : SubCtx) : VkM U64 := do
  let dirfd := sctx.arg0.setWidth 32
  let pathnamePtr := sctx.arg1
  let statbufPtr := sctx.arg2
  let flags := sctx.arg3.setWidth 32
  let fileName ← readGuestCstring pathnamePtr
  match ← statAt dirfd fileName flags with
  | .error _ => lastErrno
  | .ok st =>
    memWrite statbufPtr (packLinuxX86Stat64Le st)
    return 0

/-- The status is stored in the host's form. -/
def writeGuestStatNative (statbufPtr : U64) (st : Stat) : VkM U64 := do
  memWrite statbufPtr st.toBytes
  return 0

/-- The status of a path in the host's form. -/
def sysStat (sctx : SubCtx) : VkM U64 := do
  let pathnamePtr := sctx.arg0
  let statbufPtr := sctx.arg1
  let fileName ← readGuestCstring pathnamePtr
  match ← statAt atFdcwd fileName 0 with
  | .error _ => lastErrno
  | .ok st => writeGuestStatNative statbufPtr st

/-- The status of a descriptor in the host's form. -/
def sysFstat (sctx : SubCtx) : VkM U64 := do
  let fd := sctx.arg0.setWidth 32
  let statbufPtr := sctx.arg1
  match ← hostCall fun h => h.fstat fd with
  | .error _ => lastErrno
  | .ok st => writeGuestStatNative statbufPtr (.ofBytes st)

/-- The status of a path as `stat64` of x86. -/
def sysStat64 (sctx : SubCtx) : VkM U64 := do
  let pathnamePtr := sctx.arg0
  let statbufPtr := sctx.arg1
  let fileName ← readGuestCstring pathnamePtr
  match ← statAt atFdcwd fileName 0 with
  | .error _ => lastErrno
  | .ok st =>
    memWrite statbufPtr (packLinuxX86Stat64Le st)
    return 0

/-- The status of a descriptor as `stat64` of x86. -/
def sysFstat64 (sctx : SubCtx) : VkM U64 := do
  let fd := sctx.arg0.setWidth 32
  let statbufPtr := sctx.arg1
  match ← hostCall fun h => h.fstat fd with
  | .error _ => lastErrno
  | .ok st =>
    memWrite statbufPtr (packLinuxX86Stat64Le (.ofBytes st))
    return 0

/-- `statfs_for_path`; its error is the number that the `io::Error` carries. -/
def statfsForPath (path : List Char) : VkM (Except U32 Statfs64) := do
  match ← guestPathAt atFdcwd path with
  | none => return .error EBADF
  | some absPath =>
    if Char.ofNat 0 ∈ absPath then
      return .error EINVAL
    let st ← hostCall fun h => h.statfs absPath
    return st.map Statfs64.ofBytes

/-- The file system of a path in the form of the guest. -/
def sysStatfs (sctx : SubCtx) : VkM U64 := do
  let pathPtr := sctx.arg0
  let statfsBufPtr := sctx.arg1
  let path ← readGuestCstring pathPtr
  match ← statfsForPath path with
  | .error _ => lastErrno
  | .ok st =>
    let vk ← get
    let bytes := match vk.cfg.arch with
      | .x86_64 => st.toBytes
      | .x86 => packLinuxX86StatfsLe st
    memWrite statfsBufPtr bytes
    return 0

/-- The file system of a path, when the buffer has room for it. -/
def sysStatfs64 (sctx : SubCtx) : VkM U64 := do
  let pathPtr := sctx.arg0
  let bufSize := sctx.arg1
  let statfsBufPtr := sctx.arg2
  let path ← readGuestCstring pathPtr
  match ← statfsForPath path with
  | .error _ => lastErrno
  | .ok st =>
    let vk ← get
    let bytes := match vk.cfg.arch with
      | .x86_64 => st.toBytes
      | .x86 => packLinuxX86Statfs64Le st
    if bufSize.toNat < bytes.length then
      return negErrno EINVAL
    memWrite statfsBufPtr bytes
    return 0

/-- The end of `sys_statx`. -/
def finishStatx (statxBufAddr : U64) (ret : Except U32 (List U8)) : VkM U64 :=
  match ret with
  | .error _ => lastErrno
  | .ok st => do
    memWrite statxBufAddr (packStatxLe (.ofBytes st))
    return 0

/-- The extended status of a path, or of a descriptor when the path is empty. -/
def sysStatx (sctx : SubCtx) : VkM U64 := do
  let dfd := sctx.arg0.setWidth 32
  let fileNameAddr := sctx.arg1
  let flags := sctx.arg2.setWidth 32
  let mask := sctx.arg3.setWidth 32
  let statxBufAddr := sctx.arg4
  let fileName ← readGuestCstring fileNameAddr
  if fileName = [] ∧ flags &&& atEmptyPath ≠ 0 then
    let ret ← hostCall fun h => h.statx dfd [] flags mask
    finishStatx statxBufAddr ret
  else
    match ← guestPathAt dfd fileName with
    | none => return negErrno EBADF
    | some absPath =>
      if Char.ofNat 0 ∈ absPath then
        return negErrno EINVAL
      let ret ← hostCall fun h => h.statx atFdcwd absPath flags mask
      finishStatx statxBufAddr ret

/-- Both paths are translated before the host renames. -/
def sysRenameat2 (sctx : SubCtx) : VkM U64 := do
  let oldDfd := sctx.arg0.setWidth 32
  let oldNameAddr := sctx.arg1
  let newDfd := sctx.arg2.setWidth 32
  let newNameAddr := sctx.arg3
  let flags := sctx.arg4.setWidth 32
  let oldName ← readGuestCstring oldNameAddr
  let newName ← readGuestCstring newNameAddr
  match ← guestPathAt oldDfd oldName with
  | none => return negErrno EBADF
  | some oldAbs =>
    match ← guestPathAt newDfd newName with
    | none => return negErrno EBADF
    | some newAbs =>
      if Char.ofNat 0 ∈ oldAbs then
        return negErrno EINVAL
      if Char.ofNat 0 ∈ newAbs then
        return negErrno EINVAL
      match ← hostCall fun h => h.renameat2 atFdcwd oldAbs atFdcwd newAbs flags with
      | .error _ => lastErrno
      | .ok ret => return ret.signExtend 64

/-- `sys_renameat2` without flags. -/
def sysRenameat (sctx : SubCtx) : VkM U64 :=
  sysRenameat2 { sctx with arg4 := 0, arg5 := 0 }

end ValkyrieRs
