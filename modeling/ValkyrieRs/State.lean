import ValkyrieRs.Lib.Proc
import ValkyrieRs.Fs
import ValkyrieRs.Memory

/-!
# The emulator

The state of one emulator together with the process-wide descriptor table and the host, and the
primitive operations that the system-call handlers are made of.
-/

namespace ValkyrieRs

/-- The configuration. -/
structure Config where
  arch : Arch
  os : OsType
  rootfs : List Char
  stdinData : List U8
deriving DecidableEq

/-- What is loaded. -/
inductive LoaderType where
  | raw
  | elf
deriving DecidableEq

/-- The fields of `ValkyrieConfig` that only the loaders and the start-up code read. -/
structure StartConfig where
  loader : LoaderType
  argv : List (List U8)
  baremetalCode : List U8
  elfFile : Option (List Char)
  entryPoint : U64
  exitPoint : U64
  codeRamSize : U64
  heapSize : U64
  stackSize : U64
  codeBaseAddress : U64
deriving DecidableEq

/-- The addresses of `VMemory` that only the loaders and the start-up code use. -/
structure MemAddrs where
  stackAddrStart : U64
  stackAddrExit : U64
  codeAddrStart : U64
  codeAddrExit : U64
  tlsAddrStart : U64
  tlsAddrExit : U64
deriving DecidableEq

/-- `execfn` by its bytes. -/
structure ElfAuxvInfo where
  phdr : U64
  phent : U64
  phnum : U64
  base : U64
  entry : U64
  execfn : List U8
deriving DecidableEq

/-- The users and groups of the guest. -/
structure LinuxCreds where
  uid : U32
  euid : U32
  gid : U32
  egid : U32
deriving DecidableEq

/-- A change of a register. -/
structure RegUpdate where
  reg : VRegister
  value : U64
deriving DecidableEq

/-- The program counter and the recorded changes of registers. -/
structure VRegs where
  arch : Arch
  pc : VRegister
  lastRegUpdate : List RegUpdate
deriving DecidableEq

/-- The architecture of the emulator. -/
structure VArch where
  arch : Arch
  regs : VRegs
deriving DecidableEq

/-- The emulator; `fdTable` is the process-wide `FD_TABLE`. -/
structure Valkyrie where
  cfg : Config
  start : StartConfig
  vstate : VState
  uc : Unicorn
  arch : VArch
  mem : VMemory
  addrs : MemAddrs
  exitTrapAddr : Option U64
  elfAuxv : Option ElfAuxvInfo
  exitStatus : Option U64
  crashed : Bool
  linuxCreds : LinuxCreds
  guestRtSigactions : AList fun _ : U32 => List U8
  guestRtSigmask : List U8
  guestPrctlName : Vector U8 16
  guestPdeathsig : U32
  guestDumpable : U32
  stdinOffset : ℕ
  fdTable : FdTable
  host : Host

namespace Valkyrie

/-- The engine is replaced. -/
@[simps] def withUc (vk : Valkyrie) (uc : Unicorn) : Valkyrie := { vk with uc }

/-- The region list and the engine are replaced. -/
@[simps] def withMem (vk : Valkyrie) (mem : VMemory) (uc : Unicorn) : Valkyrie :=
  { vk with mem, uc }

/-- The addresses that the loaders record are replaced. -/
@[simps] def withAddrs (vk : Valkyrie) (addrs : MemAddrs) : Valkyrie := { vk with addrs }

/-- The bounds of the heap are replaced. -/
@[simps] def withHeap (vk : Valkyrie) (heapAddrStart heapAddrExit : U64) : Valkyrie :=
  { vk with mem := { vk.mem with heapAddrStart, heapAddrExit } }

/-- The host is replaced. -/
@[simps] def withHost (vk : Valkyrie) (host : Host) : Valkyrie := { vk with host }

variable (vk : Valkyrie) (mem mem' : VMemory) (uc uc' : Unicorn) (host host' : Host)

@[simp] theorem withUc_withUc : (vk.withUc uc).withUc uc' = vk.withUc uc' := rfl
@[simp] theorem withUc_withMem : (vk.withUc uc).withMem mem uc' = vk.withMem mem uc' := rfl
@[simp] theorem withMem_withUc : (vk.withMem mem uc).withUc uc' = vk.withMem mem uc' := rfl
@[simp] theorem withMem_withMem : (vk.withMem mem uc).withMem mem' uc' = vk.withMem mem' uc' := rfl
@[simp] theorem withHost_withHost : (vk.withHost host).withHost host' = vk.withHost host' := rfl
@[simp] theorem withUc_withHost :
    (vk.withUc uc).withHost host = (vk.withHost host).withUc uc := rfl
@[simp] theorem withMem_withHost :
    (vk.withMem mem uc).withHost host = (vk.withHost host).withMem mem uc := rfl

end Valkyrie

/-- `VRegs::new`. -/
def VRegs.new (arch : Arch) : VRegs where
  arch
  pc := match arch with
    | .x86 => .x86 .eip
    | .x86_64 => .x86_64 .rip
  lastRegUpdate := []

/-- The field `sp`, which `VRegs::new` sets and nothing changes. -/
def VRegs.sp (regs : VRegs) : VRegister :=
  match regs.arch with
  | .x86 => .x86 .esp
  | .x86_64 => .x86_64 .rsp

/-- An engine in which the regions are mapped with their protections and zeroed bytes. -/
def Unicorn.ofRegions (regions : List VMemRegion) : Unicorn where
  pages p := (regions.find? fun r =>
    r.start.toNat ≤ p * 4096 ∧ p * 4096 < r.start.toNat + r.size.toNat).map (·.prot)
  bytes _ := 0
  reg _ := 0
  stopRequested := false

/-- A host with no open descriptor that refuses every call. -/
def Host.refusing : Host where
  answers _ := ⟨false, EIO, 0, 0, []⟩
  calls := []
  errno := 0
  cwd := none
  descriptions := []
  fds := ∅

/-- An emulator over a memory map, with nothing else set up. -/
def Valkyrie.ofMemory (arch : Arch) (mem : VMemory) : Valkyrie where
  cfg := ⟨arch, .linux, ['/'], []⟩
  start := ⟨.raw, [], [], none, 0, 0, 0, 0, 0, 0⟩
  vstate := .notSet
  uc := Unicorn.ofRegions mem.regions
  arch := ⟨arch, VRegs.new arch⟩
  mem
  addrs := ⟨0, 0, 0, 0, 0, 0⟩
  exitTrapAddr := none
  elfAuxv := none
  exitStatus := none
  crashed := false
  linuxCreds := ⟨0, 0, 0, 0⟩
  guestRtSigactions := ∅
  guestRtSigmask := []
  guestPrctlName := Vector.replicate 16 0
  guestPdeathsig := 0
  guestDumpable := 1
  stdinOffset := 0
  fdTable := ∅
  host := Host.refusing

/-- The arguments of a system call. -/
structure SubCtx where
  arg0 : U64
  arg1 : U64
  arg2 : U64
  arg3 : U64
  arg4 : U64
  arg5 : U64
deriving DecidableEq

/-- A function on `&mut Valkyrie` with a `Result`. -/
abbrev VkM := Proc Valkyrie ValkyrieError

open Proc

/-! ## Primitive operations -/

/-- `vec![0u8; n]`, a panic when the size does not fit an `isize`.  Here every smaller buffer is granted;
that the host has the memory is an assumption, which the results about calls that return state. -/
def hostAlloc (n : ℕ) : VkM Unit := if n < 2 ^ 63 then pure () else diverge

/-- `vk.mem.map(&mut vk.uc, ..)`. -/
def memMap (addr size : U64) (prot : Prot) (info : String) : VkM Unit := do
  let vk ← get
  let out ← ofExcept (vk.mem.map vk.uc addr size prot info)
  modify fun vk => vk.withMem out.1 out.2

/-- `vk.mem.write(&mut vk.uc, ..)`. -/
def memWrite (addr : U64) (data : List U8) : VkM Unit := do
  let vk ← get
  let uc ← ofExcept (VMemory.write vk.uc addr data)
  modify fun vk => vk.withUc uc

/-- `vk.mem.read(&mut vk.uc, ..)`. -/
def memRead (addr : U64) (size : ℕ) : VkM (List U8) := do
  hostAlloc size
  let vk ← get
  ofExcept (VMemory.read vk.uc addr size)

/-- A call of the engine that changes it when it succeeds. -/
def ucCall (call : Unicorn → Except UcError Unicorn) : VkM Unit := do
  let vk ← get
  match call vk.uc with
  | .error e => throw (.unicorn e)
  | .ok uc => modify fun vk => vk.withUc uc

/-- A call to the host. -/
def hostCall {α : Type} (call : Host → Except U32 α × Host) : VkM (Except U32 α) := do
  let vk ← get
  modify fun vk => vk.withHost (call vk.host).2
  pure (call vk.host).1

/-- The error of the last call of the host, negated. -/
def lastErrno : VkM U64 := do
  let vk ← get
  pure (negErrno vk.host.errno)

/-- One store of the guest. -/
inductive GuestStore : Valkyrie → Valkyrie → Prop where
  | mk {vk : Valkyrie} {uc : Unicorn} (addr : U64) (data : List U8)
    (ok : vk.uc.memWrite addr data = .ok uc) : GuestStore vk (vk.withUc uc)

/-! ## `arch/regs.rs` -/

/-- The register fits the architecture. -/
def VRegister.isOf : VRegister → Arch → Bool
  | .x86 _, .x86 => true
  | .x86_64 _, .x86_64 => true
  | _, _ => false

/-- A register's value as the architecture's width shows it. -/
def Arch.truncate : Arch → U64 → U64
  | .x86, v => (v.setWidth 32).setWidth 64
  | .x86_64, v => v

/-- The register is written and the write recorded, unless it is the program counter. -/
def Valkyrie.withReg (vk : Valkyrie) (reg : VRegister) (value : U64) : Valkyrie :=
  { vk with
    uc := vk.uc.regWrite reg (vk.arch.regs.arch.truncate value)
    arch.regs.lastRegUpdate :=
      if reg ≠ vk.arch.regs.pc then vk.arch.regs.lastRegUpdate ++ [⟨reg, value⟩]
      else vk.arch.regs.lastRegUpdate }

/-- `set_reg`. -/
def VRegs.setReg (reg : VRegister) (value : U64) : VkM Unit := do
  let vk ← get
  if reg.isOf vk.arch.regs.arch then
    modify fun vk => vk.withReg reg value
  else throw (.notImplemented "set_reg not implemented for this arch")

/-- `get_reg`. -/
def VRegs.getReg (reg : VRegister) : VkM U64 := do
  let vk ← get
  if reg.isOf vk.arch.regs.arch then pure (vk.arch.regs.arch.truncate (vk.uc.reg reg))
  else throw (.notImplemented "get_reg not implemented for this arch")

/-- The register that holds the result of a system call. -/
def Arch.resultReg : Arch → VRegister
  | .x86 => .x86 .eax
  | .x86_64 => .x86_64 .rax

/-- The stack pointer of the architecture. -/
def Arch.spReg : Arch → VRegister
  | .x86 => .x86 .esp
  | .x86_64 => .x86_64 .rsp

/-- The guest reads the value as an error number, at its word width. -/
def Arch.IsNegErrno : Arch → U64 → Prop
  | .x86, v => 2 ^ 32 - 4095 ≤ v.toNat ∧ v.toNat < 2 ^ 32
  | .x86_64, v => ValkyrieRs.IsNegErrno v

instance : (arch : Arch) → (v : U64) → Decidable (arch.IsNegErrno v)
  | .x86, _ => inferInstanceAs (Decidable (_ ∧ _))
  | .x86_64, v => inferInstanceAs (Decidable (ValkyrieRs.IsNegErrno v))

/-! ## Runs of the primitive operations -/

variable {vk vk' : Valkyrie} {addr size : U64} {prot : Prot} {info : String}

@[simp] theorem ends_hostAlloc {n : ℕ} {r : Except ValkyrieError Unit} :
    (hostAlloc n).Ends vk r vk' ↔ n < 2 ^ 63 ∧ r = .ok () ∧ vk' = vk := by
  unfold hostAlloc
  split_ifs with fits
  · rw [ends_pure, and_iff_right fits]
  · exact ⟨fun run => (ends_diverge run).elim, fun run => (fits run.1).elim⟩

theorem ends_memMap {r : Except ValkyrieError Unit} :
    (memMap addr size prot info).Ends vk r vk' ↔
      (∃ uc, vk.uc.memMap addr size prot = .ok uc ∧ r = .ok () ∧
        vk' = vk.withMem (vk.mem.addRegion ⟨addr, size, prot, info⟩) uc) ∨
      (∃ e, vk.mem.map vk.uc addr size prot info = .error e ∧ r = .error e ∧ vk' = vk) := by
  rw [memMap, ends_bind_get]
  simp only [ends_bind, ends_ofExcept]
  cases h : vk.mem.map vk.uc addr size prot info with
  | error e =>
    have refused : ∀ uc, vk.uc.memMap addr size prot ≠ .ok uc := fun uc accepted => by
      simp [VMemory.map_ok_iff.2 ⟨accepted, rfl⟩] at h
    simp [refused, and_comm]
  | ok out =>
    obtain ⟨mem, uc⟩ := out
    obtain ⟨accepted, rfl⟩ := VMemory.map_ok_iff.1 h
    simp [accepted]

theorem ends_memWrite {data : List U8} {r : Except ValkyrieError Unit} :
    (memWrite addr data).Ends vk r vk' ↔
      (∃ uc, VMemory.write vk.uc addr data = .ok uc ∧ r = .ok () ∧ vk' = vk.withUc uc) ∨
      (∃ e, VMemory.write vk.uc addr data = .error e ∧ r = .error e ∧ vk' = vk) := by
  rw [memWrite, ends_bind_get]
  simp only [ends_bind, ends_ofExcept]
  cases VMemory.write vk.uc addr data <;> simp [and_comm]

theorem ends_memRead {n : ℕ} {r : Except ValkyrieError (List U8)} :
    (memRead addr n).Ends vk r vk' ↔ n < 2 ^ 63 ∧ r = VMemory.read vk.uc addr n ∧ vk' = vk := by
  simp [memRead, ends_bind, ends_ofExcept, and_assoc, and_comm]

theorem ends_ucCall {call : Unicorn → Except UcError Unicorn} {r : Except ValkyrieError Unit} :
    (ucCall call).Ends vk r vk' ↔
      (∃ uc, call vk.uc = .ok uc ∧ r = .ok () ∧ vk' = vk.withUc uc) ∨
      (∃ e, call vk.uc = .error e ∧ r = .error (.unicorn e) ∧ vk' = vk) := by
  rw [ucCall, ends_bind_get]
  cases call vk.uc <;> simp

@[simp] theorem ends_hostCall {α : Type} {call : Host → Except U32 α × Host}
    {r : Except ValkyrieError (Except U32 α)} :
    (hostCall call).Ends vk r vk' ↔
      r = .ok (call vk.host).1 ∧ vk' = vk.withHost (call vk.host).2 := by
  simp [hostCall]

/-- A run that begins with a store. -/
theorem ends_bind_memWrite {α : Type} {data : List U8} {f : Unit → VkM α}
    {r : Except ValkyrieError α} :
    (memWrite addr data >>= f).Ends vk r vk' ↔
      (∃ uc, VMemory.write vk.uc addr data = .ok uc ∧ (f ()).Ends (vk.withUc uc) r vk') ∨
      (∃ e, VMemory.write vk.uc addr data = .error e ∧ r = .error e ∧ vk' = vk) := by
  simp only [ends_bind, ends_memWrite]
  cases VMemory.write vk.uc addr data <;> simp [and_comm, Unique.exists_iff]

/-- A run that begins with a read. -/
theorem ends_bind_memRead {α : Type} {n : ℕ} {f : List U8 → VkM α} {r : Except ValkyrieError α} :
    (memRead addr n >>= f).Ends vk r vk' ↔ n < 2 ^ 63 ∧
      ((∃ data, VMemory.read vk.uc addr n = .ok data ∧ (f data).Ends vk r vk') ∨
        ∃ e, VMemory.read vk.uc addr n = .error e ∧ r = .error e ∧ vk' = vk) := by
  simp only [ends_bind, ends_memRead]
  cases VMemory.read vk.uc addr n with
  | error e =>
    simp only [reduceCtorEq, false_and, exists_false, false_or, Except.error.injEq]
    constructor
    · rintro (⟨e', ⟨small, rfl, rfl⟩, rfl⟩ | ⟨_, _, ⟨_, ⟨⟩, _⟩, _⟩)
      exact ⟨small, _, rfl, rfl, rfl⟩
    · rintro ⟨small, e', rfl, rfl, rfl⟩
      exact .inl ⟨_, ⟨small, rfl, rfl⟩, rfl⟩
  | ok data =>
    simp only [reduceCtorEq, false_and, exists_false, or_false, Except.ok.injEq]
    constructor
    · rintro (⟨_, ⟨_, ⟨⟩, _⟩, _⟩ | ⟨_, _, ⟨small, rfl, rfl⟩, run⟩)
      exact ⟨small, _, rfl, run⟩
    · rintro ⟨small, _, rfl, run⟩
      exact .inr ⟨_, _, ⟨small, rfl, rfl⟩, run⟩

/-- A run that begins with a call to the host. -/
@[simp] theorem ends_bind_hostCall {α β : Type} {call : Host → Except U32 α × Host}
    {f : Except U32 α → VkM β} {r : Except ValkyrieError β} :
    (hostCall call >>= f).Ends vk r vk' ↔
      (f (call vk.host).1).Ends (vk.withHost (call vk.host).2) r vk' := Iff.rfl

/-- A run that begins with an allocation. -/
@[simp] theorem ends_bind_hostAlloc {α : Type} {n : ℕ} {f : Unit → VkM α}
    {r : Except ValkyrieError α} :
    (hostAlloc n >>= f).Ends vk r vk' ↔ n < 2 ^ 63 ∧ (f ()).Ends vk r vk' := by
  unfold hostAlloc
  split_ifs with fits
  · rw [ends_bind_pure, and_iff_right fits]
  · rw [ends_bind]
    constructor
    · rintro (⟨_, run, _⟩ | ⟨_, _, run, _⟩)
      · exact (ends_diverge run).elim
      · exact (ends_diverge run).elim
    · exact fun run => (fits run.1).elim

@[simp] theorem ends_lastErrno {r : Except ValkyrieError U64} :
    lastErrno.Ends vk r vk' ↔ r = .ok (negErrno vk.host.errno) ∧ vk' = vk := by
  simp [lastErrno]

section Registers

variable {reg : VRegister} {value : U64}

@[simp] theorem Valkyrie.withReg_mem : (vk.withReg reg value).mem = vk.mem := rfl
@[simp] theorem Valkyrie.withReg_pages : (vk.withReg reg value).uc.pages = vk.uc.pages := rfl
@[simp] theorem Valkyrie.withReg_bytes : (vk.withReg reg value).uc.bytes = vk.uc.bytes := rfl
@[simp] theorem Valkyrie.withReg_regs_arch :
    (vk.withReg reg value).arch.regs.arch = vk.arch.regs.arch := rfl

@[simp] theorem Valkyrie.withReg_reg : (vk.withReg reg value).uc.reg reg =
    vk.arch.regs.arch.truncate value := if_pos rfl

@[simp] theorem Arch.resultReg_isOf (arch : Arch) : arch.resultReg.isOf arch := by
  cases arch <;> rfl

theorem ends_setReg {r : Except ValkyrieError Unit} (fits : reg.isOf vk.arch.regs.arch) :
    (VRegs.setReg reg value).Ends vk r vk' ↔ r = .ok () ∧ vk' = vk.withReg reg value := by
  rw [VRegs.setReg, ends_bind_get, if_pos fits, ends_modify]

end Registers

end ValkyrieRs
