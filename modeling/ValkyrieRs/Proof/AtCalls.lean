import ValkyrieRs.Proof.FileCalls
import ValkyrieRs.Proof.GuestPaths

/-!
# The calls with a directory descriptor

`sys_openat` hands the guest's directory descriptor to the host together with the translated path,
the other calls hand it the working directory.  The host ignores the descriptor for an absolute
path, so the calls act on one file exactly when the translated path is absolute or the descriptor
is no other directory than the working directory.
-/

namespace ValkyrieRs

open Proc

/-! ## What the host makes of a name -/

/-- The directories that the host's calls start from. -/
structure HostDirs (Dir : Type) where
  root : Dir
  cwd : Dir
  behind : U32 → Option Dir

namespace HostDirs

variable {Dir : Type} (dirs : HostDirs Dir)

/-- Where the host starts with a path and a directory descriptor. -/
def start (dirfd : U32) (path : List Char) : Option Dir :=
  if path.head? = some '/' then some dirs.root
  else if dirfd = atFdcwd then some dirs.cwd
  else dirs.behind dirfd

/-- The file that a call names; `inode` tells where a path leads from a directory. -/
def file (inode : Dir → List Char → Option ℕ) (name : U32 × List Char) : Option ℕ :=
  (dirs.start name.1 name.2).bind fun dir => inode dir name.2

end HostDirs

/-- The directory descriptors and paths that a call names files by. -/
def HostCall.names : HostCall → List (U32 × List Char)
  | .openat dirfd path _ _ => [(dirfd, path)]
  | .fstatat dirfd path _ => [(dirfd, path)]
  | .statx dirfd path _ _ => [(dirfd, path)]
  | .statfs path => [(atFdcwd, path)]
  | .getxattr path _ _ _ => [(atFdcwd, path)]
  | .unlink path => [(atFdcwd, path)]
  | .renameat2 olddirfd oldpath newdirfd newpath _ => [(olddirfd, oldpath), (newdirfd, newpath)]
  | _ => []

/-- The host calls made between two states that name files name those at the paths, taken from the
working directory. -/
def ActsOn {Dir : Type} (dirs : HostDirs Dir) (inode : Dir → List Char → Option ℕ)
    (vk vk' : Valkyrie) (paths : List (List Char)) : Prop :=
  ∀ call ∈ vk'.host.calls.drop vk.host.calls.length, call.names = [] ∨
    call.names.map (dirs.file inode) = paths.map fun path => dirs.file inode (atFdcwd, path)

/-! ## The host calls of the handlers -/

variable {vk vk' : Valkyrie} {dirfd : U32} {ptr : U64} {path hostPath : List Char}
  {r : Except ValkyrieError U64}

/-- No run changes the host. -/
abbrev KeepsHost {α : Type} (m : VkM α) : Prop := m.Within fun s t => t.host = s.host

theorem KeepsHost.host_eq {α : Type} {m : VkM α} {r : Except ValkyrieError α} (h : KeepsHost m)
    (run : m.Ends vk r vk') : vk'.host = vk.host :=
  h.keeps (I := fun s => s.host = vk.host) (fun _ _ same kept => same.trans kept) run rfl

theorem keepsHost_memWrite {addr : U64} {data : List U8} : KeepsHost (memWrite addr data) := by
  intro s r s' run
  rcases ends_memWrite.1 run with ⟨uc, -, -, rfl⟩ | ⟨e, -, -, rfl⟩
  · exact .single rfl
  · exact .refl

theorem keepsHost_lastErrno : KeepsHost lastErrno := within_get.bind fun _ => within_pure _

theorem keepsHost_store {addr : U64} {data : List U8} :
    KeepsHost (memWrite addr data >>= fun _ => pure (0 : U64)) :=
  keepsHost_memWrite.bind fun _ => within_pure _

theorem keepsHost_finishStatx {addr : U64} {ret : Except U32 (List U8)} :
    KeepsHost (finishStatx addr ret) := by
  cases ret with
  | error e => exact keepsHost_lastErrno
  | ok st => exact keepsHost_store

@[simp] theorem Host.calls_ask {α : Type} {h : Host} {call : HostCall} {result : HostAnswer → α} :
    (h.ask call result).2.calls = h.calls ++ [call] := by
  simp only [Host.ask]
  split_ifs <;> rfl

@[simp] theorem Host.calls_openat {h : Host} {path : List Char} {flags mode : U32} :
    (h.openat dirfd path flags mode).2.calls = h.calls ++ [.openat dirfd path flags mode] := by
  simp only [Host.openat]
  split_ifs <;> rfl

@[simp] theorem Host.calls_close {h : Host} {fd : U32} :
    (h.close fd).2.calls = h.calls ++ [.close fd] := by
  simp only [Host.close]
  cases (h.record (.close fd)).fds.lookup fd with
  | none => rfl
  | some d => dsimp only; split_ifs <;> rfl

/-- Opening makes its call, and may close the file replaced in the table. -/
theorem calls_opened {flags mode : U32} :
    ∃ closes : List U32, (vk.opened dirfd hostPath flags mode).2.host.calls =
      vk.host.calls ++ .openat dirfd hostPath flags mode :: closes.map HostCall.close := by
  have calls := @Host.calls_openat dirfd vk.host hostPath flags mode
  rw [Valkyrie.opened]
  generalize vk.host.openat dirfd hostPath flags mode = out at calls
  obtain ⟨ret, host⟩ := out
  cases ret with
  | error e => exact ⟨[], calls⟩
  | ok fd =>
    simp only [Valkyrie.insertFile, Valkyrie.withHost_fdTable, Valkyrie.withHost_host]
    cases vk.fdTable.lookup (fd.signExtend 64) with
    | none => exact ⟨[], calls⟩
    | some old =>
      refine ⟨[old.file], ?_⟩
      show (host.close old.file).2.calls = _
      rw [Host.calls_close, calls, List.append_assoc]
      rfl

/-- The host calls made between two states name no files or those given. -/
def Asks (vk vk' : Valkyrie) (names : List (U32 × List Char)) : Prop :=
  ∃ l, vk'.host.calls = vk.host.calls ++ l ∧ ∀ call ∈ l, call.names = [] ∨ call.names = names

theorem asks_of_host_eq {names : List (U32 × List Char)} (same : vk'.host = vk.host) :
    Asks vk vk' names := ⟨[], by rw [same, List.append_nil], nofun⟩

theorem asks_of_ask {α : Type} {call : HostCall} {result : HostAnswer → α}
    (same : vk'.host = (vk.host.ask call result).2) : Asks vk vk' call.names := by
  refine ⟨[call], same ▸ Host.calls_ask, fun c mem => ?_⟩
  rw [List.mem_singleton.1 mem]
  exact .inr rfl

theorem Asks.actsOn {Dir : Type} {dirs : HostDirs Dir} {inode : Dir → List Char → Option ℕ}
    {paths : List (List Char)} (h : Asks vk vk' (paths.map fun path => (atFdcwd, path))) :
    ActsOn dirs inode vk vk' paths := by
  obtain ⟨l, calls, asks⟩ := h
  intro call made
  rw [calls, List.drop_left] at made
  refine (asks call made).imp_right fun named => ?_
  rw [named, List.map_map]
  rfl

/-- `stat_at` asks the host about the translated path, unless the host cannot be asked. -/
theorem GuestNames.host_statAt {flags : U32} {r : Except ValkyrieError (Except U32 Stat)}
    (names : GuestNames vk dirfd ptr path hostPath) (nonempty : path ≠ [])
    (run : (statAt dirfd path flags).Ends vk r vk') :
    vk'.host = vk.host ∨ vk'.host = (vk.host.fstatat atFdcwd hostPath flags).2 := by
  rw [statAt, if_neg fun empty => nonempty empty.1, names.bind_path] at run
  by_cases nul : Char.ofNat 0 ∈ hostPath
  · simp only [nul, if_true] at run
    exact .inl (congrArg _ (ends_pure.1 run).2)
  · simp only [nul, if_false] at run
    exact .inr (congrArg _ (ends_pure.1 run).2)

/-- A call that asks for the status of a file, and stores it in a format of its own. -/
theorem GuestNames.asks_statAt {flags : U32} {finish : Except U32 Stat → VkM U64}
    {format : Stat → List U8} {addr : U64} (names : GuestNames vk dirfd ptr path hostPath)
    (nonempty : path ≠ []) (fails : ∀ e, finish (.error e) = lastErrno)
    (stores : ∀ st, finish (.ok st) = memWrite addr (format st) >>= fun _ => pure 0)
    (run : (statAt dirfd path flags >>= finish).Ends vk r vk') :
    Asks vk vk' [(atFdcwd, hostPath)] := by
  have keeps : ∀ x, KeepsHost (finish x) := by
    intro x
    cases x with
    | error e =>
      rw [fails]
      exact keepsHost_lastErrno
    | ok st =>
      rw [stores]
      exact keepsHost_store
  have host : vk'.host = vk.host ∨ vk'.host = (vk.host.fstatat atFdcwd hostPath flags).2 := by
    rcases ends_bind.1 run with ⟨e, first, -⟩ | ⟨x, t, first, rest⟩
    · exact names.host_statAt nonempty first
    · rw [(keeps x).host_eq rest]
      exact names.host_statAt nonempty first
  rcases host with same | asked
  · exact asks_of_host_eq same
  · exact asks_of_ask asked

theorem GuestNames.asks_newfstatat {sctx : SubCtx}
    (names : GuestNames vk (sctx.arg0.setWidth 32) sctx.arg1 path hostPath) (nonempty : path ≠ [])
    (run : (sysNewfstatat sctx).Ends vk r vk') : Asks vk vk' [(atFdcwd, hostPath)] := by
  rw [sysNewfstatat, names.bind_read] at run
  exact names.asks_statAt nonempty (fun _ => rfl) (fun _ => rfl) run

theorem GuestNames.asks_fstatat64 {sctx : SubCtx}
    (names : GuestNames vk (sctx.arg0.setWidth 32) sctx.arg1 path hostPath) (nonempty : path ≠ [])
    (run : (sysFstatat64 sctx).Ends vk r vk') : Asks vk vk' [(atFdcwd, hostPath)] := by
  rw [sysFstatat64, names.bind_read] at run
  exact names.asks_statAt nonempty (fun _ => rfl) (fun _ => rfl) run

theorem GuestNames.asks_statx {sctx : SubCtx}
    (names : GuestNames vk (sctx.arg0.setWidth 32) sctx.arg1 path hostPath) (nonempty : path ≠ [])
    (run : (sysStatx sctx).Ends vk r vk') : Asks vk vk' [(atFdcwd, hostPath)] := by
  rw [sysStatx, names.bind_read, if_neg fun empty => nonempty empty.1, names.bind_path] at run
  by_cases nul : Char.ofNat 0 ∈ hostPath
  · simp only [nul, if_true] at run
    exact asks_of_host_eq (congrArg _ (ends_pure.1 run).2)
  · simp only [nul, if_false] at run
    exact asks_of_ask (keepsHost_finishStatx.host_eq run)

theorem GuestNames.asks_renameat2 {sctx : SubCtx} {newPath newHostPath : List Char}
    (old : GuestNames vk (sctx.arg0.setWidth 32) sctx.arg1 path hostPath)
    (new : GuestNames vk (sctx.arg2.setWidth 32) sctx.arg3 newPath newHostPath)
    (run : (sysRenameat2 sctx).Ends vk r vk') :
    Asks vk vk' [(atFdcwd, hostPath), (atFdcwd, newHostPath)] := by
  rw [sysRenameat2, old.bind_read, new.bind_read, old.bind_path] at run
  dsimp only at run
  rw [new.bind_path] at run
  by_cases nul : Char.ofNat 0 ∈ hostPath
  · simp only [nul, if_true] at run
    exact asks_of_host_eq (congrArg _ (ends_pure.1 run).2)
  by_cases newNul : Char.ofNat 0 ∈ newHostPath
  · simp only [nul, newNul, if_true, if_false] at run
    exact asks_of_host_eq (congrArg _ (ends_pure.1 run).2)
  simp only [nul, newNul, if_false] at run
  rw [ends_bind_hostCall] at run
  generalize asked : vk.host.renameat2 atFdcwd hostPath atFdcwd newHostPath
    (sctx.arg4.setWidth 32) = out at run
  obtain ⟨ret, host⟩ := out
  have last : vk'.host = host := by
    cases ret with
    | error e => exact keepsHost_lastErrno.host_eq run
    | ok ret => exact congrArg _ (ends_pure.1 run).2
  exact asks_of_ask (last.trans (congrArg Prod.snd asked).symm)

/-! ## Agreement -/

/-- The calls made with the descriptor and the path at `ptr` act on the file at the host path. -/
structure AtCallsAgree {Dir : Type} (dirs : HostDirs Dir) (vk : Valkyrie) (dirfd : U32) (ptr : U64)
    (hostPath : List Char) : Prop where
  single : ∀ handler ∈ [sysOpenat, sysNewfstatat, sysFstatat64, sysStatx], ∀ inode sctx r vk',
    sctx.arg0.setWidth 32 = dirfd → sctx.arg1 = ptr →
    (handler sctx).Ends vk r vk' → ActsOn dirs inode vk vk' [hostPath]
  renameFrom : ∀ inode sctx r vk' newPath newHostPath,
    sctx.arg0.setWidth 32 = dirfd → sctx.arg1 = ptr →
    GuestNames vk (sctx.arg2.setWidth 32) sctx.arg3 newPath newHostPath →
    (sysRenameat2 sctx).Ends vk r vk' → ActsOn dirs inode vk vk' [hostPath, newHostPath]
  renameTo : ∀ inode sctx r vk' oldPath oldHostPath,
    sctx.arg2.setWidth 32 = dirfd → sctx.arg3 = ptr →
    GuestNames vk (sctx.arg0.setWidth 32) sctx.arg1 oldPath oldHostPath →
    (sysRenameat2 sctx).Ends vk r vk' → ActsOn dirs inode vk vk' [oldHostPath, hostPath]

/-- The directory that the guest path is taken from is recorded as an absolute host path. -/
def AbsoluteStart (vk : Valkyrie) (dirfd : U32) (path : List Char) : Prop :=
  if (trim path).head? = some '/' then vk.cfg.rootfs.head? = some '/'
  else ∃ df, vk.fdTable.lookup (dirfd.signExtend 64) = some df ∧ df.path.head? = some '/'

theorem head_push_trimSlashes {base path : List Char} :
    (push base (trimSlashes path)).head? = some '/' ↔ base.head? = some '/' := by
  rw [push, if_neg trimSlashes_relative]
  cases base with
  | nil => simpa using trimSlashes_relative
  | cons c base => split_ifs <;> simp

/-- The translated path is absolute as the directory is that it is taken from. -/
theorem GuestNames.absolute_iff (names : GuestNames vk dirfd ptr path hostPath)
    (descriptor : dirfd ≠ atFdcwd) : hostPath.head? = some '/' ↔ AbsoluteStart vk dirfd path := by
  have found := names.found
  simp only [getPathAt] at found
  rw [AbsoluteStart]
  split_ifs at found ⊢ with absolute
  · obtain rfl := Option.some_inj.1 (Option.some_inj.1 found)
    exact head_push_trimSlashes
  · obtain ⟨df, recorded, rfl⟩ := Option.map_eq_some_iff.1 (Option.some_inj.1 found)
    simp [recorded, head_push_trimSlashes]

theorem GuestNames.start_eq {Dir : Type} {dirs : HostDirs Dir}
    (names : GuestNames vk dirfd ptr path hostPath)
    (agree : dirfd = atFdcwd ∨ dirs.behind dirfd = some dirs.cwd ∨ AbsoluteStart vk dirfd path) :
    dirs.start dirfd hostPath = dirs.start atFdcwd hostPath := by
  unfold HostDirs.start
  by_cases absolute : hostPath.head? = some '/'
  · rw [if_pos absolute, if_pos absolute]
  by_cases cwd : dirfd = atFdcwd
  · rw [cwd]
  rw [if_neg absolute, if_neg absolute, if_neg cwd, if_pos rfl]
  rcases agree with same | same | start
  · exact (cwd same).elim
  · exact same
  · exact (absolute ((names.absolute_iff cwd).2 start)).elim

/-- Two directories are told apart by some file system. -/
theorem HostDirs.start_eq_of_file_eq {Dir : Type} {dirs : HostDirs Dir} {d : U32}
    (same : ∀ inode, dirs.file inode (dirfd, hostPath) = dirs.file inode (d, hostPath)) :
    dirs.start dirfd hostPath = dirs.start d hostPath := by
  classical
  cases here : dirs.start d hostPath with
  | none =>
    have := same fun _ _ => some 0
    rw [HostDirs.file, HostDirs.file, here] at this
    exact Option.eq_none_iff_forall_ne_some.2 (by simpa using Option.bind_eq_none_iff.1 this)
  | some dir =>
    have := same fun other _ => if other = dir then some 0 else none
    simp only [HostDirs.file, here, Option.bind_some, if_true, Option.bind_eq_some_iff] at this
    obtain ⟨other, there, met⟩ := this
    rw [there]
    by_contra ne
    simp [show other ≠ dir by simpa using ne] at met

theorem GuestNames.actsOn_openat {Dir : Type} {dirs : HostDirs Dir}
    {inode : Dir → List Char → Option ℕ} {flags mode : U32}
    (names : GuestNames vk dirfd ptr path hostPath)
    (same : Char.ofNat 0 ∈ hostPath ∨ dirs.start dirfd hostPath = dirs.start atFdcwd hostPath)
    (run : (openGuestPath dirfd ptr flags mode).Ends vk r vk') :
    ActsOn dirs inode vk vk' [hostPath] := by
  by_cases nul : Char.ofNat 0 ∈ hostPath
  · have still : vk'.host = vk.host := congrArg _ (names.ends_openGuestPath_nul nul |>.1 run).2
    intro call made
    simp [still] at made
  · have ended : vk' = _ := congrArg Prod.snd ((names.ends_openGuestPath nul).1 run)
    obtain ⟨closes, calls⟩ := @calls_opened vk dirfd hostPath flags mode
    intro call made
    rw [ended, calls, List.drop_left] at made
    cases made with
    | head =>
      refine .inr ?_
      show [dirs.file inode (dirfd, hostPath)] = [dirs.file inode (atFdcwd, hostPath)]
      rw [HostDirs.file, HostDirs.file, same.resolve_left nul]
    | tail _ close =>
      obtain ⟨fd, -, rfl⟩ := List.mem_map.1 close
      exact .inl rfl

/-- Opening shows which file the directory descriptor leads to. -/
theorem GuestNames.start_eq_of_actsOn {Dir : Type} {dirs : HostDirs Dir}
    (names : GuestNames vk dirfd ptr path hostPath) (noNul : Char.ofNat 0 ∉ hostPath)
    (acts : ∀ inode sctx r vk', sctx.arg0.setWidth 32 = dirfd → sctx.arg1 = ptr →
      (sysOpenat sctx).Ends vk r vk' → ActsOn dirs inode vk vk' [hostPath]) :
    dirs.start dirfd hostPath = dirs.start atFdcwd hostPath := by
  have width : (dirfd.setWidth 64).setWidth 32 = dirfd := BitVec.setWidth_setWidth_of_le _ (by decide)
  have run : (sysOpenat ⟨dirfd.setWidth 64, ptr, 0, 0, 0, 0⟩).Ends vk
      (vk.opened dirfd hostPath 0 0).1 (vk.opened dirfd hostPath 0 0).2 := by
    show (openGuestPath ((dirfd.setWidth 64).setWidth 32) ptr 0 0).Ends vk _ _
    rw [width]
    exact (names.ends_openGuestPath noNul).2 rfl
  obtain ⟨closes, calls⟩ := @calls_opened vk dirfd hostPath 0 0
  refine HostDirs.start_eq_of_file_eq fun inode => ?_
  have acted := acts inode _ _ _ width rfl run
  have opens := acted (.openat dirfd hostPath 0 0) (by rw [calls, List.drop_left]; exact .head _)
  simpa [HostCall.names] using opens

/-! ## A relative rootfs -/

/-- The path `a` at an address, a relative rootfs and its directory `etc` as descriptor 3. -/
def relativeRootfs : Valkyrie :=
  let vk := Valkyrie.ofMemory .x86_64 ⟨[⟨0x1000, 0x1000, .all, "[data]"⟩], 0, 0⟩
  { vk with
    cfg := ⟨.x86_64, .linux, "rootfs".toList, []⟩
    uc := { vk.uc with bytes := fun x => if x = 0x1000 then 0x61 else 0 }
    fdTable := (∅ : FdTable).insert 3 ⟨3, "rootfs/etc".toList, 0, 0⟩ }

theorem relativeRootfs_names :
    GuestNames relativeRootfs 3 0x1000 "a".toList "rootfs/etc/a".toList where
  read := by
    have bytes : (readCstringLoop 0x1000 maxPathLen).Ends relativeRootfs (.ok [0x61])
        relativeRootfs := rfl
    rw [readGuestCstring, bytes.bind_iff]
    have text : fromUtf8Lossy [0x61] = ['a'] := by
      rw [fromUtf8Lossy]
      simp [utf8Lead, utf8Tail, utf8Value, fromUtf8Lossy]
    exact ends_pure.2 ⟨by rw [text]; rfl, rfl⟩
  found := by decide

/-- A root, a working directory and one more directory, behind descriptor 3. -/
def threeDirs : HostDirs ℕ := ⟨0, 1, fun fd => if fd = 3 then some 2 else none⟩

/-- `openat` opens another file than the other calls find. -/
theorem openat_disagrees :
    GuestNames relativeRootfs 3 0x1000 "a".toList "rootfs/etc/a".toList ∧ "a".toList ≠ [] ∧
      ¬ AtCallsAgree threeDirs relativeRootfs 3 0x1000 "rootfs/etc/a".toList := by
  refine ⟨relativeRootfs_names, by decide, fun agree => ?_⟩
  have same := relativeRootfs_names.start_eq_of_actsOn (by decide) (agree.single sysOpenat (.head _))
  have apart : threeDirs.start 3 "rootfs/etc/a".toList ≠
      threeDirs.start atFdcwd "rootfs/etc/a".toList := by decide
  exact apart same

/-- The calls act on one file exactly when the path is not relative to a directory of its own. -/
theorem at_calls_agree_iff {Dir : Type} (dirs : HostDirs Dir) (vk : Valkyrie) (dirfd : U32)
    (ptr : U64) (path hostPath : List Char) (names : GuestNames vk dirfd ptr path hostPath)
    (nonempty : path ≠ []) :
    AtCallsAgree dirs vk dirfd ptr hostPath ↔
      dirfd = atFdcwd ∨ dirs.behind dirfd = some dirs.cwd ∨ AbsoluteStart vk dirfd path ∨
        Char.ofNat 0 ∈ hostPath := by
  constructor
  · intro agree
    by_cases cwd : dirfd = atFdcwd
    · exact .inl cwd
    by_cases nul : Char.ofNat 0 ∈ hostPath
    · exact .inr (.inr (.inr nul))
    by_cases absolute : hostPath.head? = some '/'
    · exact .inr (.inr (.inl ((names.absolute_iff cwd).1 absolute)))
    have same := names.start_eq_of_actsOn nul (agree.single sysOpenat (.head _))
    rw [HostDirs.start, HostDirs.start, if_neg absolute, if_neg absolute, if_neg cwd,
      if_pos rfl] at same
    exact .inr (.inl same)
  · intro agree
    have same : Char.ofNat 0 ∈ hostPath ∨
        dirs.start dirfd hostPath = dirs.start atFdcwd hostPath := by
      rcases agree with same | same | absolute | nul
      · exact .inr (names.start_eq (.inl same))
      · exact .inr (names.start_eq (.inr (.inl same)))
      · exact .inr (names.start_eq (.inr (.inr absolute)))
      · exact .inl nul
    refine ⟨fun handler mem inode sctx r vk' here there run => ?_, ?_, ?_⟩
    · subst here there
      simp only [List.mem_cons, List.not_mem_nil, or_false] at mem
      rcases mem with rfl | rfl | rfl | rfl
      · exact names.actsOn_openat same run
      · exact Asks.actsOn (names.asks_newfstatat nonempty run)
      · exact Asks.actsOn (names.asks_fstatat64 nonempty run)
      · exact Asks.actsOn (names.asks_statx nonempty run)
    · rintro inode sctx r vk' newPath newHostPath rfl rfl new run
      exact Asks.actsOn (names.asks_renameat2 new run)
    · rintro inode sctx r vk' oldPath oldHostPath rfl rfl old run
      exact Asks.actsOn (old.asks_renameat2 names run)

theorem at_calls_agree_iff_relativeRootfs :
    AtCallsAgree threeDirs relativeRootfs 3 0x1000 "rootfs/etc/a".toList ↔
      (3 : U32) = atFdcwd ∨ threeDirs.behind 3 = some threeDirs.cwd ∨
        AbsoluteStart relativeRootfs 3 "a".toList ∨ Char.ofNat 0 ∈ "rootfs/etc/a".toList :=
  at_calls_agree_iff threeDirs relativeRootfs 3 0x1000 _ _ relativeRootfs_names (by decide)

end ValkyrieRs
