import ValkyrieRs.Syscall.Stat

/-!
# What the file calls do

Inversion lemmas for the handlers that work on guest paths and descriptors: what a run of each
leaves in the table of descriptors and in the host.
-/

namespace ValkyrieRs

open Proc

variable {vk vk' : Valkyrie}

/-! ## Reading the guest's path -/

/-- The procedure changes nothing. -/
abbrev ReadsOnly {α : Type} (m : VkM α) : Prop := m.Within (· = ·)

theorem ReadsOnly.state_eq {α : Type} {m : VkM α} {r : Except ValkyrieError α} (h : ReadsOnly m)
    (run : m.Ends vk r vk') : vk' = vk :=
  h.keeps (I := (· = vk)) (fun _ _ same kept => same ▸ kept) run rfl

theorem readsOnly_memRead {addr : U64} {n : ℕ} : ReadsOnly (memRead addr n) := by
  intro s r s' run
  obtain ⟨-, -, rfl⟩ := ends_memRead.1 run
  exact .refl

theorem readsOnly_readCstringLoop (addr : U64) (n : ℕ) : ReadsOnly (readCstringLoop addr n) := by
  induction n generalizing addr with
  | zero => exact within_pure _
  | succ n ih =>
    refine readsOnly_memRead.bind fun byte => .ite (within_pure _) ?_
    exact (ih _).bind fun _ => within_pure _

theorem readsOnly_readGuestCstring (addr : U64) : ReadsOnly (readGuestCstring addr) :=
  (readsOnly_readCstringLoop addr _).bind fun _ => within_pure _

theorem ends_guestPathAt {dirfd : U32} {path : List Char}
    {r : Except ValkyrieError (Option (List Char))} :
    (guestPathAt dirfd path).Ends vk r vk' ↔
      ∃ p, getPathAt vk.cfg.rootfs vk.host.cwd vk.fdTable dirfd path = some p ∧ r = .ok p ∧
        vk' = vk := by
  rw [guestPathAt, ends_bind_get]
  exact ends_ofOption

/-- The host path of the guest path at an address. -/
structure GuestNames (vk : Valkyrie) (dirfd : U32) (ptr : U64) (path hostPath : List Char) :
    Prop where
  read : (readGuestCstring ptr).Ends vk (.ok path) vk
  found : getPathAt vk.cfg.rootfs vk.host.cwd vk.fdTable dirfd path = some (some hostPath)

section GuestNames

variable {dirfd : U32} {ptr : U64} {path hostPath : List Char} {α : Type}
  {r : Except ValkyrieError α}

theorem GuestNames.ends_guestPathAt (names : GuestNames vk dirfd ptr path hostPath) :
    (guestPathAt dirfd path).Ends vk (.ok (some hostPath)) vk :=
  ValkyrieRs.ends_guestPathAt.2 ⟨_, names.found, rfl, rfl⟩

theorem GuestNames.bind_read (names : GuestNames vk dirfd ptr path hostPath)
    {f : List Char → VkM α} :
    (readGuestCstring ptr >>= f).Ends vk r vk' ↔ (f path).Ends vk r vk' :=
  names.read.bind_iff

theorem GuestNames.bind_path (names : GuestNames vk dirfd ptr path hostPath)
    {f : Option (List Char) → VkM α} :
    (guestPathAt dirfd path >>= f).Ends vk r vk' ↔ (f (some hostPath)).Ends vk r vk' :=
  names.ends_guestPathAt.bind_iff

end GuestNames

/-! ## The table of descriptors -/

/-- A new entry; the file that it replaces is closed. -/
def Valkyrie.insertFile (vk : Valkyrie) (fd : U64) (vkf : VkFile) : Valkyrie :=
  { vk with
    fdTable := vk.fdTable.insert fd vkf
    host := match vk.fdTable.lookup fd with
      | none => vk.host
      | some old => (vk.host.close old.file).2 }

theorem ends_insertFile {fd : U64} {vkf : VkFile} {r : Except ValkyrieError Unit} :
    (insertFile fd vkf).Ends vk r vk' ↔ r = .ok () ∧ vk' = vk.insertFile fd vkf := by
  rw [insertFile, ends_bind_get, ends_bind_modify, Valkyrie.insertFile]
  cases vk.fdTable.lookup fd with
  | none => exact ends_pure
  | some old =>
    rw [ends_bind_hostCall]
    exact ends_pure

theorem ends_bind_insertFile {α : Type} {fd : U64} {vkf : VkFile} {f : Unit → VkM α}
    {r : Except ValkyrieError α} :
    (insertFile fd vkf >>= f).Ends vk r vk' ↔ (f ()).Ends (vk.insertFile fd vkf) r vk' :=
  (ends_insertFile.2 ⟨rfl, rfl⟩ : (insertFile fd vkf).Ends vk (.ok ()) _).bind_iff

/-- An entry less; its file is closed. -/
def Valkyrie.removeFile (vk : Valkyrie) (fd : U64) (vkf : VkFile) : Valkyrie :=
  { vk with
    fdTable := vk.fdTable.erase fd
    host := (vk.host.close vkf.file).2 }

/-- What the opening of a host path leaves. -/
def Valkyrie.opened (vk : Valkyrie) (dirfd : U32) (hostPath : List Char) (flags mode : U32) :
    Except ValkyrieError U64 × Valkyrie :=
  let (ret, host) := vk.host.openat dirfd hostPath flags mode
  match ret with
  | .error _ => (.ok (negErrno host.errno), vk.withHost host)
  | .ok fd => (.ok (fd.signExtend 64), (vk.withHost host).insertFile (fd.signExtend 64)
      ⟨fd, hostPath, flags.signExtend 64, mode.setWidth 64⟩)

theorem GuestNames.ends_openGuestPath {dirfd flags mode : U32} {ptr : U64}
    {path hostPath : List Char} {r : Except ValkyrieError U64}
    (names : GuestNames vk dirfd ptr path hostPath) (noNul : Char.ofNat 0 ∉ hostPath) :
    (openGuestPath dirfd ptr flags mode).Ends vk r vk' ↔
      (r, vk') = vk.opened dirfd hostPath flags mode := by
  rw [openGuestPath, names.bind_read, names.bind_path]
  show (if Char.ofNat 0 ∈ hostPath then _ else _ : VkM U64).Ends vk r vk' ↔ _
  rw [if_neg noNul, ends_bind_hostCall, Valkyrie.opened]
  generalize vk.host.openat dirfd hostPath flags mode = out
  obtain ⟨ret, host⟩ := out
  cases ret with
  | error e => simp
  | ok fd => simp [ends_bind_insertFile]

/-- A path that holds a zero character is refused. -/
theorem GuestNames.ends_openGuestPath_nul {dirfd flags mode : U32} {ptr : U64}
    {path hostPath : List Char} {r : Except ValkyrieError U64}
    (names : GuestNames vk dirfd ptr path hostPath) (nul : Char.ofNat 0 ∈ hostPath) :
    (openGuestPath dirfd ptr flags mode).Ends vk r vk' ↔ r = .ok (negErrno EINVAL) ∧ vk' = vk := by
  rw [openGuestPath, names.bind_read, names.bind_path]
  show (if Char.ofNat 0 ∈ hostPath then _ else _ : VkM U64).Ends vk r vk' ↔ _
  rw [if_pos nul]
  exact ends_pure

theorem ends_sysClose_std {sctx : SubCtx} {r : Except ValkyrieError U64} (std : sctx.arg0 ≤ 2) :
    (sysClose sctx).Ends vk r vk' ↔ r = .ok 0 ∧ vk' = vk := by
  simp only [sysClose, std, if_true]
  exact ends_pure

theorem ends_sysClose_tracked {sctx : SubCtx} {vkf : VkFile} {r : Except ValkyrieError U64}
    (other : ¬ sctx.arg0 ≤ 2) (tracked : vk.fdTable.lookup sctx.arg0 = some vkf) :
    (sysClose sctx).Ends vk r vk' ↔ r = .ok 0 ∧ vk' = vk.removeFile sctx.arg0 vkf := by
  simp only [sysClose, other, if_false]
  rw [ends_bind_get]
  simp only [tracked]
  rw [ends_bind_modify, ends_bind_hostCall]
  exact ends_pure

/-- An untracked number is closed on the host by its low 32 bits. -/
theorem sysClose_untracked {sctx : SubCtx} {r : Except ValkyrieError U64}
    (other : ¬ sctx.arg0 ≤ 2) (untracked : vk.fdTable.lookup sctx.arg0 = none)
    (run : (sysClose sctx).Ends vk r vk') :
    vk' = vk.withHost (vk.host.close (sctx.arg0.setWidth 32)).2 := by
  simp only [sysClose, other, if_false] at run
  rw [ends_bind_get] at run
  simp only [untracked] at run
  rw [ends_bind_hostCall] at run
  cases result : (vk.host.close (sctx.arg0.setWidth 32)).1 with
  | error e =>
    rw [result] at run
    exact (ends_lastErrno.1 run).2
  | ok u =>
    rw [result] at run
    exact (ends_pure.1 run).2

/-- What the duplication of a standard descriptor leaves. -/
def Valkyrie.dupHost (vk : Valkyrie) (fd : U32) : Except ValkyrieError U64 × Valkyrie :=
  let (ret, host) := vk.host.dup fd
  match ret with
  | .error _ => (.ok (negErrno host.errno), vk.withHost host)
  | .ok fd => (.ok (fd.signExtend 64), vk.withHost host)

/-- What the duplication of a tracked descriptor leaves. -/
def Valkyrie.duplicated (vk : Valkyrie) (vkf : VkFile) : Except ValkyrieError U64 × Valkyrie :=
  let (ret, host) := vk.host.dup vkf.file
  match ret with
  | .error _ => (.ok (negErrno host.errno), vk.withHost host)
  | .ok file => (.ok (file.signExtend 64),
      (vk.withHost host).insertFile (file.signExtend 64) { vkf with file })

section Dup

theorem toInt_le_two_iff {x : U32} (nonneg : ¬ x.toInt < 0) : x.toInt ≤ 2 ↔ x ≤ 2 := by
  rw [BitVec.toInt_eq_toNat_cond] at nonneg ⊢
  rw [BitVec.le_def]
  show _ ↔ x.toNat ≤ 2
  split_ifs at nonneg ⊢ <;> omega

variable {sctx : SubCtx} {r : Except ValkyrieError U64}

theorem ends_sysDup_std (nonneg : ¬ (sctx.arg0.setWidth 32 : U32).toInt < 0)
    (std : (sctx.arg0.setWidth 32 : U32).toInt ≤ 2) :
    (sysDup sctx).Ends vk r vk' ↔ (r, vk') = vk.dupHost (sctx.arg0.setWidth 32) := by
  simp only [sysDup, nonneg, std, if_true, if_false]
  rw [ends_bind_hostCall, Valkyrie.dupHost]
  generalize vk.host.dup (sctx.arg0.setWidth 32) = out
  obtain ⟨ret, host⟩ := out
  cases ret <;> simp

theorem ends_sysDup_tracked {vkf : VkFile} (nonneg : ¬ (sctx.arg0.setWidth 32 : U32).toInt < 0)
    (std : ¬ (sctx.arg0.setWidth 32 : U32).toInt ≤ 2)
    (tracked : vk.fdTable.lookup ((sctx.arg0.setWidth 32 : U32).signExtend 64) = some vkf) :
    (sysDup sctx).Ends vk r vk' ↔ (r, vk') = vk.duplicated vkf := by
  simp only [sysDup, nonneg, std, if_false]
  rw [ends_bind_get]
  simp only [tracked]
  rw [ends_bind_hostCall, Valkyrie.duplicated]
  generalize vk.host.dup vkf.file = out
  obtain ⟨ret, host⟩ := out
  cases ret with
  | error e => simp
  | ok file => simp [ends_bind_insertFile]

theorem ends_sysDup_none
    (untracked : (sctx.arg0.setWidth 32 : U32).toInt < 0 ∨
      ¬ (sctx.arg0.setWidth 32 : U32).toInt ≤ 2 ∧
      vk.fdTable.lookup ((sctx.arg0.setWidth 32 : U32).signExtend 64) = none) :
    (sysDup sctx).Ends vk r vk' ↔ r = .ok (negErrno EBADF) ∧ vk' = vk := by
  by_cases negative : (sctx.arg0.setWidth 32 : U32).toInt < 0
  · simp only [sysDup, negative, if_true]
    exact ends_pure
  · obtain ⟨other, absent⟩ := untracked.resolve_left negative
    simp only [sysDup, negative, other, if_false]
    rw [ends_bind_get]
    simp only [absent]
    exact ends_pure

/-- `sys_dup` refuses, duplicates a standard descriptor on the host or a tracked one. -/
theorem sysDup_cases (run : (sysDup sctx).Ends vk r vk') :
    r = .ok (negErrno EBADF) ∧ vk' = vk ∨
      (sctx.arg0.setWidth 32 : U32) ≤ 2 ∧ (r, vk') = vk.dupHost (sctx.arg0.setWidth 32) ∨
      ∃ vkf, vk.fdTable.lookup ((sctx.arg0.setWidth 32 : U32).signExtend 64) = some vkf ∧
        (r, vk') = vk.duplicated vkf := by
  by_cases negative : (sctx.arg0.setWidth 32 : U32).toInt < 0
  · exact .inl ((ends_sysDup_none (.inl negative)).1 run)
  by_cases std : (sctx.arg0.setWidth 32 : U32).toInt ≤ 2
  · exact .inr (.inl ⟨(toInt_le_two_iff negative).1 std, (ends_sysDup_std negative std).1 run⟩)
  cases tracked : vk.fdTable.lookup ((sctx.arg0.setWidth 32 : U32).signExtend 64) with
  | none => exact .inl ((ends_sysDup_none (.inr ⟨std, tracked⟩)).1 run)
  | some vkf =>
    exact .inr (.inr ⟨vkf, rfl, (ends_sysDup_tracked negative std tracked).1 run⟩)

end Dup

/-- The call ends with an error, or answers an error number. -/
def Refused (r : Except ValkyrieError U64) : Prop := ∀ v, r = .ok v → IsNegErrno v

theorem refused_negErrno {e : U32} (number : IsNegErrno (negErrno e)) :
    Refused (.ok (negErrno e)) := by
  rintro _ ⟨⟩
  exact number

/-- `sys_open` and `sys_openat` refuse and change nothing, or open a host path. -/
theorem openGuestPath_cases {dirfd flags mode : U32} {ptr : U64} {r : Except ValkyrieError U64}
    (run : (openGuestPath dirfd ptr flags mode).Ends vk r vk') :
    Refused r ∧ vk' = vk ∨ ∃ hostPath, (r, vk') = vk.opened dirfd hostPath flags mode := by
  have steps := run
  rw [openGuestPath] at steps
  rcases ends_bind.1 steps with ⟨e, read, rfl⟩ | ⟨path, t, read, rest⟩
  · exact .inl ⟨nofun, (readsOnly_readGuestCstring ptr).state_eq read⟩
  obtain rfl := (readsOnly_readGuestCstring ptr).state_eq read
  rcases ends_bind.1 rest with ⟨e, found, rfl⟩ | ⟨hostPath, t, found, last⟩
  · obtain ⟨_, -, -, rfl⟩ := ends_guestPathAt.1 found
    exact .inl ⟨nofun, rfl⟩
  obtain ⟨found', here, same, rfl⟩ := ends_guestPathAt.1 found
  obtain rfl : hostPath = found' := by simpa using same
  cases hostPath with
  | none =>
    obtain ⟨rfl, rfl⟩ := ends_pure.1 last
    exact .inl ⟨refused_negErrno (by decide), rfl⟩
  | some hostPath =>
    have names : GuestNames _ dirfd ptr path hostPath := ⟨read, here⟩
    by_cases nul : Char.ofNat 0 ∈ hostPath
    · obtain ⟨rfl, rfl⟩ := (names.ends_openGuestPath_nul nul).1 run
      exact .inl ⟨refused_negErrno (by decide), rfl⟩
    · exact .inr ⟨hostPath, (names.ends_openGuestPath nul).1 run⟩

theorem addFileEntry_cases {target : U64} {file : VkFile} {safe : Bool}
    {r : Except ValkyrieError Unit} (run : (addFileEntry target file safe).Ends vk r vk') :
    vk' = vk.withHost (vk.host.close file.file).2 ∨
      ¬ (safe ∧ (target ≤ 2 ∨ target ∈ vk.fdTable)) ∧ vk' = vk.insertFile target file := by
  rw [addFileEntry, ends_bind_get] at run
  split_ifs at run with refused
  · dsimp only at run
    rw [ends_bind_hostCall] at run
    rcases ends_bind.1 run with ⟨e, thrown, -⟩ | ⟨_, _, thrown, -⟩
    · exact .inl (ends_throw.1 thrown).2
    · exact absurd (ends_throw.1 thrown).1 nofun
  · exact .inr ⟨refused, (ends_insertFile.1 run).2⟩

theorem rmFileEntry_cases {target : U64} {r : Except ValkyrieError Unit}
    (run : (rmFileEntry target).Ends vk r vk') :
    vk' = vk ∨ ∃ vkf, vk.fdTable.lookup target = some vkf ∧ vk' = vk.removeFile target vkf := by
  rw [rmFileEntry] at run
  split_ifs at run with std
  · exact .inl (ends_throw.1 run).2
  · rw [ends_bind_get] at run
    cases tracked : vk.fdTable.lookup target with
    | none =>
      simp only [tracked] at run
      exact .inl (ends_throw.1 run).2
    | some vkf =>
      simp only [tracked] at run
      rw [ends_bind_modify, ends_bind_hostCall] at run
      exact .inr ⟨vkf, rfl, (ends_pure.1 run).2⟩

end ValkyrieRs
