import Mathlib.Data.List.Basic
import ValkyrieRs.Lib.Effect
import ValkyrieRs.Syscall.Table

/-!
# Effects of the primitive operations

What a system call may do: change the components of the emulator that it owns, store into its output
buffers, and never end where it is allowed not to.  What it cannot see is the content of unmapped
pages, the log of register updates and the request to stop.
-/

namespace ValkyrieRs

open Proc

/-! ## The components -/

/-- The fields that no system call changes. -/
structure Settings where
  cfg : Config
  start : StartConfig
  addrs : MemAddrs
  exitTrapAddr : Option U64
  elfAuxv : Option ElfAuxvInfo
  linuxCreds : LinuxCreds
  arch : Arch
  regsArch : Arch
  pc : VRegister
  heapAddrStart : U64
  cwd : Option (List Char)
  answers : ℕ → HostAnswer

/-- The settings of the emulator. -/
def Valkyrie.settings (vk : Valkyrie) : Settings where
  cfg := vk.cfg
  start := vk.start
  addrs := vk.addrs
  exitTrapAddr := vk.exitTrapAddr
  elfAuxv := vk.elfAuxv
  linuxCreds := vk.linuxCreds
  arch := vk.arch.arch
  regsArch := vk.arch.regs.arch
  pc := vk.arch.regs.pc
  heapAddrStart := vk.mem.heapAddrStart
  cwd := vk.host.cwd
  answers := vk.host.answers

/-- The parts of the emulator that system calls change besides the bytes of the guest. -/
inductive Component where
  | pages | regions | heapBreak
  | register (r : VRegister)
  | regUpdates | stop
  | exitStatus | vstate | crashed
  | sigactions | sigmask | prctlName | pdeathsig | dumpable
  | stdinOffset | fdTable | hostFds | hostFiles
deriving DecidableEq

/-- The component is the same in both states. -/
def Component.Same (s t : Valkyrie) : Component → Prop
  | pages => t.uc.pages = s.uc.pages
  | regions => t.mem.regions = s.mem.regions
  | heapBreak => t.mem.heapAddrExit = s.mem.heapAddrExit
  | register r => t.uc.reg r = s.uc.reg r
  | regUpdates => t.arch.regs.lastRegUpdate = s.arch.regs.lastRegUpdate
  | stop => t.uc.stopRequested = s.uc.stopRequested
  | exitStatus => t.exitStatus = s.exitStatus
  | vstate => t.vstate = s.vstate
  | crashed => t.crashed = s.crashed
  | sigactions => t.guestRtSigactions = s.guestRtSigactions
  | sigmask => t.guestRtSigmask = s.guestRtSigmask
  | prctlName => t.guestPrctlName = s.guestPrctlName
  | pdeathsig => t.guestPdeathsig = s.guestPdeathsig
  | dumpable => t.guestDumpable = s.guestDumpable
  | stdinOffset => t.stdinOffset = s.stdinOffset
  | fdTable => t.fdTable = s.fdTable
  | hostFds => t.host.fds = s.host.fds
  | hostFiles => t.host.descriptions = s.host.descriptions

theorem Component.Same.refl (c : Component) (s : Valkyrie) : c.Same s s := by
  cases c <;> rfl

theorem Component.Same.trans {c : Component} {s t u : Valkyrie} (h : c.Same s t)
    (h' : c.Same t u) : c.Same s u := by
  cases c <;> exact Eq.trans h' h

/-! ## What is seen -/

/-- The engine without the content of unmapped pages and without the request to stop. -/
def Unicorn.seen (uc : Unicorn) : Unicorn :=
  { uc with
    bytes := fun x => if (uc.protAt x).isSome then uc.bytes x else 0
    stopRequested := false }

/-- What system calls can see of the emulator. -/
def Valkyrie.seen (vk : Valkyrie) : Valkyrie :=
  { vk with uc := vk.uc.seen, arch.regs.lastRegUpdate := [] }

namespace Unicorn

variable {uc uc' : Unicorn}

theorem seen_eq_iff : uc'.seen = uc.seen ↔ uc'.pages = uc.pages ∧ uc'.reg = uc.reg ∧
    ∀ x, (uc.protAt x).isSome → uc'.bytes x = uc.bytes x := by
  obtain ⟨pages, bytes, reg, stop⟩ := uc
  obtain ⟨pages', bytes', reg', stop'⟩ := uc'
  simp only [seen, Unicorn.mk.injEq, and_true, protAt]
  constructor
  · rintro ⟨rfl, same, rfl⟩
    refine ⟨rfl, rfl, fun x mapped => ?_⟩
    simpa only [mapped, if_true] using congrFun same x
  · rintro ⟨rfl, rfl, same⟩
    refine ⟨rfl, funext fun x => ?_, rfl⟩
    by_cases mapped : (pages' (x.toNat / 4096)).isSome
    · simp only [mapped, if_true, same x mapped]
    · simp only [mapped, if_false, Bool.false_eq_true]

theorem memRead_congr {addr : U64} {n : ℕ} (same : uc'.seen = uc.seen) :
    uc'.memRead addr n = uc.memRead addr n := by
  obtain ⟨pages, -, bytes⟩ := seen_eq_iff.1 same
  have span : uc'.spanMapped addr n = uc.spanMapped addr n := by simp only [spanMapped, pages]
  rw [memRead, memRead, span]
  split_ifs with unmapped
  · rfl
  · have mapped := (spanMapped_iff uc addr n).1 (by simpa using unmapped)
    refine congrArg Except.ok ((contents_eq_iff mapped.1 length_contents).2 fun x hx => ?_)
    rw [getD_contents hx, bytes x (mapped.2 x hx)]

theorem memWrite_congr {addr : U64} {data : List U8} {uc₁ : Unicorn} (same : uc'.seen = uc.seen)
    (ok : uc.memWrite addr data = .ok uc₁) :
    ∃ uc₂, uc'.memWrite addr data = .ok uc₂ ∧ uc₂.seen = uc₁.seen := by
  obtain ⟨pages, reg, bytes⟩ := seen_eq_iff.1 same
  have mapped := (memWrite_ok_iff.1 ⟨uc₁, ok⟩).of_pages pages
  obtain ⟨uc₂, ok'⟩ := memWrite_ok_iff.2 mapped
  obtain ⟨pages₁, reg₁, bytes₁⟩ := memWrite_effect ok
  obtain ⟨pages₂, reg₂, bytes₂⟩ := memWrite_effect ok'
  refine ⟨uc₂, ok', seen_eq_iff.2 ⟨by rw [pages₂, pages, pages₁], by rw [reg₂, reg, reg₁], ?_⟩⟩
  intro x hx
  rw [protAt, pages₁] at hx
  rw [bytes₂, bytes₁, bytes x hx]

/-- A call that asks only which pages are mapped, and changes them. -/
theorem memMap_congr {addr size : U64} {prot : Prot} {uc₁ : Unicorn} (same : uc'.seen = uc.seen)
    (ok : uc.memMap addr size prot = .ok uc₁) :
    ∃ uc₂, uc'.memMap addr size prot = .ok uc₂ ∧ uc₂.seen = uc₁.seen := by
  obtain ⟨pages, reg, bytes⟩ := seen_eq_iff.1 same
  have aligned := Mappable.of_memMap ok
  unfold memMap at ok ⊢
  simp only [pages]
  split_ifs at ok ⊢
  cases ok
  refine ⟨_, rfl, seen_eq_iff.2 ⟨rfl, reg, fun x hx => ?_⟩⟩
  simp only [protAt, page_mem_pageSpan aligned.addr_aligned aligned.size_aligned] at hx
  dsimp only
  split_ifs at hx ⊢ with inside
  · rfl
  · exact bytes x hx

theorem memUnmap_congr {addr size : U64} {uc₁ : Unicorn} (same : uc'.seen = uc.seen)
    (ok : uc.memUnmap addr size = .ok uc₁) :
    ∃ uc₂, uc'.memUnmap addr size = .ok uc₂ ∧ uc₂.seen = uc₁.seen := by
  obtain ⟨pages, reg, bytes⟩ := seen_eq_iff.1 same
  unfold memUnmap spanMapped at ok ⊢
  simp only [pages]
  split_ifs at ok ⊢
  · cases ok
    exact ⟨_, rfl, same⟩
  · cases ok
    refine ⟨_, rfl, seen_eq_iff.2 ⟨rfl, reg, fun x hx => bytes x ?_⟩⟩
    simp only [protAt] at hx ⊢
    split_ifs at hx
    · cases hx
    · exact hx

theorem memProtect_congr {addr size : U64} {prot : Prot} {uc₁ : Unicorn}
    (same : uc'.seen = uc.seen) (ok : uc.memProtect addr size prot = .ok uc₁) :
    ∃ uc₂, uc'.memProtect addr size prot = .ok uc₂ ∧ uc₂.seen = uc₁.seen := by
  obtain ⟨pages, reg, bytes⟩ := seen_eq_iff.1 same
  have mapped : ∀ x, (uc₁.protAt x).isSome → (uc.protAt x).isSome := by
    intro x hx
    rw [(memProtect_effect ok).1] at hx
    split_ifs at hx with inside
    · by_cases hs : size = 0
      · simp [hs] at inside
      · exact (Unmappable.of_memProtect ok hs).mapped.2 x inside
    · exact hx
  unfold memProtect spanMapped at ok ⊢
  simp only [pages]
  split_ifs at ok ⊢
  · cases ok
    exact ⟨_, rfl, same⟩
  · cases ok
    exact ⟨_, rfl, seen_eq_iff.2 ⟨rfl, reg, fun x hx => bytes x (mapped x hx)⟩⟩

end Unicorn

/-! ## Effects -/

/-- What a system call may do. -/
structure Effects where
  owned : List Component
  outputs : List (U64 × ℕ)
  hangs : Prop

/-- The two states differ in what the effects own and in the output buffers alone. -/
structure Effects.Changes (fx : Effects) (s t : Valkyrie) : Prop where
  settings : t.settings = s.settings
  same : ∀ c, c ∉ fx.owned → c.Same s t
  bytes : ∀ x, (∀ o ∈ fx.outputs, ¬ InRange o.1 o.2 x) → t.uc.bytes x = s.uc.bytes x

variable {fx : Effects} {st : Settings} {vk : Valkyrie}

theorem Effects.Changes.refl (fx : Effects) (s : Valkyrie) : fx.Changes s s :=
  ⟨rfl, fun c _ => .refl c s, fun _ _ => rfl⟩

theorem Effects.Changes.trans {s t u : Valkyrie} (h : fx.Changes s t) (h' : fx.Changes t u) :
    fx.Changes s u where
  settings := h'.settings.trans h.settings
  same c hc := (h.same c hc).trans (h'.same c hc)
  bytes x hx := (h'.bytes x hx).trans (h.bytes x hx)

/-- The effects as a contract, with the settings as they are. -/
def Effects.contract (fx : Effects) (st : Settings) : Contract Valkyrie Valkyrie where
  inv vk := vk.settings = st
  rel := fx.Changes
  refl := .refl fx
  trans := .trans
  hangs := fx.hangs
  seen := Valkyrie.seen

/-- The handler does no more than the effects say. -/
abbrev Does {α : Type} (fx : Effects) (st : Settings) (vk : Valkyrie) (m : VkM α) : Prop :=
  Obeys (fx.contract st) vk m

theorem Valkyrie.seen_uc {s t : Valkyrie} (same : t.seen = s.seen) : t.uc.seen = s.uc.seen :=
  congrArg Valkyrie.uc same

theorem Valkyrie.seen_mem {s t : Valkyrie} (same : t.seen = s.seen) : t.mem = s.mem := by
  show t.seen.mem = s.seen.mem
  rw [same]

theorem Valkyrie.seen_host {s t : Valkyrie} (same : t.seen = s.seen) : t.host = s.host := by
  show t.seen.host = s.seen.host
  rw [same]

theorem Valkyrie.seen_withMem {s t : Valkyrie} {mem : VMemory} {uc uc' : Unicorn}
    (same : t.seen = s.seen) (engine : uc'.seen = uc.seen) :
    (t.withMem mem uc').seen = (s.withMem mem uc).seen := by
  have whole : ∀ (vk : Valkyrie) (uc : Unicorn),
      (vk.withMem mem uc).seen = { vk.seen with mem, uc := uc.seen } := fun _ _ => rfl
  rw [whole, whole, same, engine]

theorem Valkyrie.seen_withUc {s t : Valkyrie} {uc uc' : Unicorn} (same : t.seen = s.seen)
    (engine : uc'.seen = uc.seen) : (t.withUc uc').seen = (s.withUc uc).seen := by
  have whole : ∀ (vk : Valkyrie) (uc : Unicorn),
      (vk.withUc uc).seen = { vk.seen with uc := uc.seen } := fun _ _ => rfl
  rw [whole, whole, same, engine]

theorem Valkyrie.seen_withHost {s t : Valkyrie} {h : Host} (same : t.seen = s.seen) :
    (t.withHost h).seen = (s.withHost h).seen :=
  congrArg (fun vk => vk.withHost h) same

section Primitives

variable {α β : Type} {addr size : U64} {data : List U8} {n : ℕ}

/-- A look at the state that what is not seen does not change. -/
theorem does_look {f : Valkyrie → VkM β} (blind : ∀ t, f t = f t.seen)
    (rest : vk.settings = st → Does fx st vk (f vk)) : Does fx st vk (get >>= f) :=
  obeys_look (fun t same => by rw [blind t, blind vk]; exact congrArg f same) rest

theorem does_hostAlloc (fits : fx.hangs ∨ n < 2 ^ 63) : Does fx st vk (hostAlloc n) := by
  unfold hostAlloc
  refine .ite (fun _ => obeys_pure _) fun large => obeys_diverge ?_
  exact fits.resolve_right large

theorem does_memRead (fits : fx.hangs ∨ n < 2 ^ 63) : Does fx st vk (memRead addr n) where
  ends inv := by
    refine fits.imp_right fun small => ?_
    exact ⟨_, vk, ends_memRead.2 ⟨small, rfl, rfl⟩⟩
  safe inv r s' run := by
    obtain ⟨-, -, rfl⟩ := ends_memRead.1 run
    exact ⟨.refl fx _, inv⟩
  blind inv r s' t run same := by
    obtain ⟨small, rfl, rfl⟩ := ends_memRead.1 run
    refine ⟨t, ends_memRead.2 ⟨small, ?_, rfl⟩, same⟩
    unfold VMemory.read
    rw [Unicorn.memRead_congr (Valkyrie.seen_uc same)]

/-- A store into an output buffer. -/
theorem does_memWrite (inside : ∃ n, (addr, n) ∈ fx.outputs ∧ data.length ≤ n) :
    Does fx st vk (memWrite addr data) where
  ends inv := by
    refine .inr ?_
    cases h : VMemory.write vk.uc addr data with
    | error e => exact ⟨_, _, ends_memWrite.2 (.inr ⟨e, h, rfl, rfl⟩)⟩
    | ok uc => exact ⟨_, _, ends_memWrite.2 (.inl ⟨uc, h, rfl, rfl⟩)⟩
  safe inv r s' run := by
    rcases ends_memWrite.1 run with ⟨uc, ok, -, rfl⟩ | ⟨e, -, -, rfl⟩
    · obtain ⟨-, ok⟩ := VMemory.write_ok_iff.1 ok
      obtain ⟨n, output, fits⟩ := inside
      have written := (Unicorn.memWrite_effect ok).2.2
      have stop : uc.stopRequested = vk.uc.stopRequested := by
        unfold Unicorn.memWrite at ok
        split_ifs at ok
        cases ok
        rfl
      refine ⟨⟨rfl, fun c _ => ?_, fun x outside => ?_⟩, inv⟩
      · cases c with
        | pages => exact (Unicorn.memWrite_effect ok).1
        | register r => exact congrFun (Unicorn.memWrite_effect ok).2.1 r
        | stop => exact stop
        | _ => rfl
      · refine (written x).trans (if_neg fun hx => outside _ output ?_)
        exact ⟨hx.1, hx.2.trans_le (Nat.add_le_add_left fits _)⟩
    · exact ⟨.refl fx _, inv⟩
  blind inv r s' t run same := by
    rcases ends_memWrite.1 run with ⟨uc, ok, rfl, rfl⟩ | ⟨e, failed, rfl, rfl⟩
    · obtain ⟨some, ok⟩ := VMemory.write_ok_iff.1 ok
      obtain ⟨uc', ok', engine⟩ := Unicorn.memWrite_congr (Valkyrie.seen_uc same) ok
      refine ⟨_, ends_memWrite.2 (.inl ⟨uc', VMemory.write_ok_iff.2 ⟨some, ok'⟩, rfl, rfl⟩), ?_⟩
      exact Valkyrie.seen_withUc same engine
    · refine ⟨t, ends_memWrite.2 (.inr ⟨e, ?_, rfl, rfl⟩), same⟩
      have pages := (Unicorn.seen_eq_iff.1 (Valkyrie.seen_uc same)).1
      unfold VMemory.write Unicorn.memWrite Unicorn.spanMapped at failed ⊢
      rw [pages]
      split_ifs at failed ⊢
      · exact failed
      · exact failed

/-- A new region, whose zeroed bytes are an output. -/
theorem does_memMap {prot : Prot} {info : String} (pages : .pages ∈ fx.owned)
    (regions : .regions ∈ fx.owned) (output : (addr, size.toNat) ∈ fx.outputs) :
    Does fx st vk (memMap addr size prot info) where
  ends inv := by
    refine .inr ?_
    cases h : vk.mem.map vk.uc addr size prot info with
    | error e => exact ⟨_, _, ends_memMap.2 (.inr ⟨e, h, rfl, rfl⟩)⟩
    | ok out =>
      obtain ⟨mem, uc⟩ := out
      exact ⟨_, _, ends_memMap.2 (.inl ⟨uc, (VMemory.map_ok_iff.1 h).1, rfl, rfl⟩)⟩
  safe inv r s' run := by
    rcases ends_memMap.1 run with ⟨uc, ok, -, rfl⟩ | ⟨e, -, -, rfl⟩
    · obtain ⟨-, bytes, reg⟩ := Unicorn.memMap_effect ok
      have stop : uc.stopRequested = vk.uc.stopRequested := by
        unfold Unicorn.memMap at ok
        split_ifs at ok
        cases ok
        rfl
      refine ⟨⟨rfl, fun c hc => ?_, fun x outside => ?_⟩, inv⟩
      · cases c with
        | pages => exact (hc pages).elim
        | regions => exact (hc regions).elim
        | register r => exact congrFun reg r
        | stop => exact stop
        | _ => rfl
      · exact (bytes x).trans (if_neg (outside _ output))
    · exact ⟨.refl fx _, inv⟩
  blind inv r s' t run same := by
    have mem := Valkyrie.seen_mem same
    rcases ends_memMap.1 run with ⟨uc, ok, rfl, rfl⟩ | ⟨e, failed, rfl, rfl⟩
    · obtain ⟨uc', ok', engine⟩ := Unicorn.memMap_congr (Valkyrie.seen_uc same) ok
      refine ⟨_, ends_memMap.2 (.inl ⟨uc', ok', rfl, rfl⟩), ?_⟩
      rw [mem]
      exact Valkyrie.seen_withMem same engine
    · refine ⟨t, ends_memMap.2 (.inr ⟨e, ?_, rfl, rfl⟩), same⟩
      have pages := (Unicorn.seen_eq_iff.1 (Valkyrie.seen_uc same)).1
      unfold VMemory.map Unicorn.memMap at failed ⊢
      rw [pages]
      split_ifs at failed ⊢ <;> exact failed

/-- A call of the engine that changes which pages are mapped, and how. -/
theorem does_ucCall {call : Unicorn → Except UcError Unicorn} (pages : .pages ∈ fx.owned)
    (effect : ∀ uc uc', call uc = .ok uc' →
      uc'.bytes = uc.bytes ∧ uc'.reg = uc.reg ∧ uc'.stopRequested = uc.stopRequested)
    (congr : ∀ uc uc' uc₁, uc'.seen = uc.seen → call uc = .ok uc₁ →
      ∃ uc₂, call uc' = .ok uc₂ ∧ uc₂.seen = uc₁.seen)
    (error : ∀ uc uc' e, uc'.seen = uc.seen → call uc = .error e → call uc' = .error e) :
    Does fx st vk (ucCall call) where
  ends inv := by
    refine .inr ?_
    cases h : call vk.uc with
    | error e => exact ⟨_, _, ends_ucCall.2 (.inr ⟨e, h, rfl, rfl⟩)⟩
    | ok uc => exact ⟨_, _, ends_ucCall.2 (.inl ⟨uc, h, rfl, rfl⟩)⟩
  safe inv r s' run := by
    rcases ends_ucCall.1 run with ⟨uc, ok, -, rfl⟩ | ⟨e, -, -, rfl⟩
    · obtain ⟨bytes, reg, stop⟩ := effect _ _ ok
      refine ⟨⟨rfl, fun c hc => ?_, fun x _ => congrFun bytes x⟩, inv⟩
      cases c with
      | pages => exact (hc pages).elim
      | register r => exact congrFun reg r
      | stop => exact stop
      | _ => rfl
    · exact ⟨.refl fx _, inv⟩
  blind inv r s' t run same := by
    rcases ends_ucCall.1 run with ⟨uc, ok, rfl, rfl⟩ | ⟨e, failed, rfl, rfl⟩
    · obtain ⟨uc', ok', engine⟩ := congr _ _ _ (Valkyrie.seen_uc same) ok
      exact ⟨_, ends_ucCall.2 (.inl ⟨uc', ok', rfl, rfl⟩), Valkyrie.seen_withUc same engine⟩
    · have failed' := error _ _ _ (Valkyrie.seen_uc same) failed
      exact ⟨t, ends_ucCall.2 (.inr ⟨e, failed', rfl, rfl⟩), same⟩

theorem does_memUnmap (pages : .pages ∈ fx.owned) :
    Does fx st vk (ucCall fun uc => uc.memUnmap addr size) := by
  refine does_ucCall pages (fun uc uc' ok => ?_) (fun _ _ _ => Unicorn.memUnmap_congr) ?_
  · refine ⟨(Unicorn.memUnmap_effect ok).2.1, (Unicorn.memUnmap_effect ok).2.2, ?_⟩
    unfold Unicorn.memUnmap at ok
    split_ifs at ok <;> cases ok <;> rfl
  · intro uc uc' e same failed
    have pages := (Unicorn.seen_eq_iff.1 same).1
    unfold Unicorn.memUnmap Unicorn.spanMapped at failed ⊢
    rw [pages]
    split_ifs at failed ⊢ <;> exact failed

theorem does_memProtect {prot : Prot} (pages : .pages ∈ fx.owned) :
    Does fx st vk (ucCall fun uc => uc.memProtect addr size prot) := by
  refine does_ucCall pages (fun uc uc' ok => ?_) (fun _ _ _ => Unicorn.memProtect_congr) ?_
  · refine ⟨(Unicorn.memProtect_effect ok).2.1, (Unicorn.memProtect_effect ok).2.2, ?_⟩
    unfold Unicorn.memProtect at ok
    split_ifs at ok <;> cases ok <;> rfl
  · intro uc uc' e same failed
    have pages := (Unicorn.seen_eq_iff.1 same).1
    unfold Unicorn.memProtect Unicorn.spanMapped at failed ⊢
    rw [pages]
    split_ifs at failed ⊢ <;> exact failed

/-- A change of the state that is no change of the bytes; `g` is its effect on what is seen. -/
theorem does_change {f : Valkyrie → Valkyrie} (g : Valkyrie → Valkyrie)
    (blind : ∀ vk, (f vk).seen = g vk.seen) (settings : ∀ vk, (f vk).settings = vk.settings)
    (bytes : ∀ vk, (f vk).uc.bytes = vk.uc.bytes)
    (same : ∀ c, c ∈ fx.owned ∨ ∀ vk, c.Same vk (f vk)) : Does fx st vk (modify f) := by
  refine obeys_modify (fun _ => ⟨settings vk, fun c hc => (same c).resolve_left hc vk,
    fun x _ => congrFun (bytes vk) x⟩) (fun inv => (settings vk).trans inv) fun t seen => ?_
  have view : t.seen = vk.seen := seen
  show (f t).seen = (f vk).seen
  rw [blind t, blind vk, view]

/-- A change of one component that is all seen. -/
theorem does_set {f : Valkyrie → Valkyrie} {c : Component} (owns : c ∈ fx.owned)
    (blind : ∀ vk, (f vk).seen = f vk.seen) (settings : ∀ vk, (f vk).settings = vk.settings)
    (bytes : ∀ vk, (f vk).uc.bytes = vk.uc.bytes)
    (others : ∀ d, d ≠ c → ∀ vk, d.Same vk (f vk)) : Does fx st vk (modify f) := by
  refine does_change f blind settings bytes fun d => ?_
  by_cases here : d = c
  · exact .inl (here ▸ owns)
  · exact .inr (others d here)

/-! ## The host -/

/-- The host keeps what the effects do not own. -/
structure Effects.Hosts (fx : Effects) (h h' : Host) : Prop where
  cwd : h'.cwd = h.cwd
  answers : h'.answers = h.answers
  fds : .hostFds ∈ fx.owned ∨ h'.fds = h.fds
  files : .hostFiles ∈ fx.owned ∨ h'.descriptions = h.descriptions

theorem Effects.Hosts.refl (fx : Effects) (h : Host) : fx.Hosts h h :=
  ⟨rfl, rfl, .inr rfl, .inr rfl⟩

theorem does_hostCall {call : Host → Except U32 α × Host} (host : ∀ h, fx.Hosts h (call h).2) :
    Does fx st vk (hostCall call) where
  ends _ := .inr ⟨_, _, ends_hostCall.2 ⟨rfl, rfl⟩⟩
  safe inv r s' run := by
    obtain ⟨-, rfl⟩ := ends_hostCall.1 run
    obtain ⟨cwd, answers, fds, files⟩ := host vk.host
    have settings : (vk.withHost (call vk.host).2).settings = vk.settings := by
      simp only [Valkyrie.settings, Valkyrie.withHost, cwd, answers]
    refine ⟨⟨settings, fun c hc => ?_, fun _ _ => rfl⟩, settings.trans inv⟩
    cases c with
    | hostFds => exact fds.resolve_left hc
    | hostFiles => exact files.resolve_left hc
    | _ => rfl
  blind inv r s' t run same := by
    obtain ⟨rfl, rfl⟩ := ends_hostCall.1 run
    have hosts := Valkyrie.seen_host same
    refine ⟨_, ends_hostCall.2 ⟨by rw [hosts], rfl⟩, ?_⟩
    rw [hosts]
    exact Valkyrie.seen_withHost same

theorem does_service {reply : Host → Except U32 α} : Does fx st vk (service reply) := by
  refine does_hostCall fun h => ?_
  obtain ⟨e, after⟩ : ∃ e, (h.serve reply).2 = h.fail e := Host.serve_snd
  rw [after]
  exact ⟨rfl, rfl, .inr rfl, .inr rfl⟩

theorem does_lastErrno : Does fx st vk lastErrno :=
  does_look (fun _ => rfl) fun _ => obeys_pure _

/-! ## Registers -/

theorem does_getReg {reg : VRegister} : Does fx st vk (VRegs.getReg reg) :=
  does_look (fun _ => rfl) fun _ => .ite (fun _ => obeys_pure _) fun _ => obeys_throw _

theorem does_setReg {reg : VRegister} {value : U64} (register : .register reg ∈ fx.owned)
    (updates : .regUpdates ∈ fx.owned) : Does fx st vk (VRegs.setReg reg value) := by
  refine does_look (fun _ => rfl) fun _ => .ite (fun _ => ?_) fun _ => obeys_throw _
  refine does_change (fun vk => { vk with
    uc := vk.uc.regWrite reg (vk.arch.regs.arch.truncate value) }) (fun _ => rfl) (fun _ => rfl)
    (fun _ => rfl) fun c => ?_
  cases c with
  | register r =>
    by_cases here : r = reg
    · exact .inl (here ▸ register)
    · exact .inr fun vk => if_neg here
  | regUpdates => exact .inl updates
  | _ => exact .inr fun _ => rfl

end Primitives

end ValkyrieRs
