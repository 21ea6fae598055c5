import ValkyrieRs.Fuzzing
import ValkyrieRs.Syscall.Io

/-!
# The guest's standard input

`sys_read` on descriptor 0 delivers the configured bytes in order, as long as there are any and each
call can allocate its buffer and store what it takes: the offset moves before the store, and an empty
input stands for the host's own standard input.
-/

namespace ValkyrieRs

open Proc

/-! ## Reading from descriptor 0 -/

/-- What is left of the input. -/
def Valkyrie.stdinLeft (vk : Valkyrie) : List U8 := vk.cfg.stdinData.drop vk.stdinOffset

/-- The bytes that the call would deliver. -/
def Valkyrie.due (vk : Valkyrie) (sctx : SubCtx) : List U8 :=
  vk.stdinLeft.take sctx.arg2.toNat

/-- The buffer of the call can hold them. -/
def CanStore (sctx : SubCtx) (vk : Valkyrie) : Prop :=
  vk.uc.Mapped sctx.arg1 (vk.due sctx).length

/-- The call can allocate its buffer, and the guest's buffer can hold what is due. -/
structure CanRead (sctx : SubCtx) (vk : Valkyrie) : Prop where
  allocates : sctx.arg2.toNat < 2 ^ 63
  store : CanStore sctx vk

/-- The bytes that a call has stored in the guest's memory: as many as it answers. -/
def stored (sctx : SubCtx) (vk' : Valkyrie) : Except ValkyrieError U64 → List U8
  | .ok n => if IsNegErrno n then [] else vk'.uc.contents sctx.arg1 n.toNat
  | .error _ => []

variable {vk vk' : Valkyrie} {sctx : SubCtx} {r : Except ValkyrieError U64}

/-- The state after the bytes have been taken. -/
def Valkyrie.advance (vk : Valkyrie) (n : ℕ) : Valkyrie :=
  { vk with stdinOffset := vk.stdinOffset + n }

/-- A call on descriptor 0 with bytes left. -/
theorem sysRead_stdin (stdin : sctx.arg0 = 0) (nonzero : sctx.arg2 ≠ 0)
    (left : vk.stdinLeft ≠ []) (can : CanRead sctx vk) :
    ∃ uc, vk.uc.memWrite sctx.arg1 (vk.due sctx) = .ok uc ∧
      (sysRead sctx).Ends vk (.ok (BitVec.ofNat 64 (vk.due sctx).length))
        ((vk.advance (vk.due sctx).length).withUc uc) := by
  have more : vk.stdinOffset < vk.cfg.stdinData.length := by
    by_contra past
    exact left (List.drop_eq_nil_of_le (not_lt.1 past))
  have taken : (readFd sctx.arg0 sctx.arg2.toNat).Ends vk (.ok (.ok (vk.due sctx)))
      (vk.advance (vk.due sctx).length) := by
    rw [readFd, ends_bind_get, if_pos stdin, if_pos more]
    exact ends_pure.2 ⟨rfl, rfl⟩
  have nonempty : vk.due sctx ≠ [] := by
    intro none_
    rcases List.take_eq_nil_iff.1 none_ with zero | empty
    · exact nonzero (BitVec.eq_of_toNat_eq zero)
    · exact left empty
  obtain ⟨uc, store⟩ := Unicorn.memWrite_ok_iff.2 can.store
  have written : VMemory.write vk.uc sctx.arg1 (vk.due sctx) = .ok uc :=
    VMemory.write_ok_iff.2 ⟨nonempty, store⟩
  refine ⟨uc, store, ?_⟩
  simp only [sysRead, nonzero, if_false]
  rw [ends_bind_hostAlloc]
  refine ⟨can.allocates, taken.bind ?_⟩
  dsimp only
  rw [if_pos nonempty]
  exact ends_bind_memWrite.2 (.inl ⟨uc, written, ends_pure.2 ⟨rfl, rfl⟩⟩)

/-- A call on descriptor 0 that asks for nothing, or finds nothing left of a non-empty input. -/
theorem sysRead_nothing (stdin : sctx.arg0 = 0) (nonempty : vk.cfg.stdinData ≠ [])
    (nothing : vk.due sctx = []) (can : CanRead sctx vk) : (sysRead sctx).Ends vk (.ok 0) vk := by
  by_cases zero : sctx.arg2 = 0
  · simp only [sysRead, zero, if_true]
    exact ends_pure.2 ⟨rfl, rfl⟩
  have past : ¬ vk.stdinOffset < vk.cfg.stdinData.length := by
    intro more
    rcases List.take_eq_nil_iff.1 nothing with count | empty
    · exact zero (BitVec.eq_of_toNat_eq count)
    · exact absurd (List.drop_eq_nil_iff.1 empty) (not_le.2 more)
  have taken : (readFd sctx.arg0 sctx.arg2.toNat).Ends vk (.ok (.ok [])) vk := by
    rw [readFd, ends_bind_get, if_pos stdin, if_neg past, if_neg nonempty]
    exact ends_pure.2 ⟨rfl, rfl⟩
  simp only [sysRead, zero, if_false]
  rw [ends_bind_hostAlloc]
  exact ⟨can.allocates, taken.bind (ends_pure.2 ⟨rfl, rfl⟩)⟩

/-! ## Sequences of reads -/

/-- The host's calls are those before and others that do not read its standard input. -/
def NoHostStdin (calls calls' : List HostCall) : Prop :=
  ∃ more, calls' = calls ++ more ∧ ∀ n, HostCall.readStdin n ∉ more

/-- Anything that does not concern the input. -/
structure KeepsStdin (vk vk' : Valkyrie) : Prop where
  data : vk'.cfg.stdinData = vk.cfg.stdinData
  offset : vk'.stdinOffset = vk.stdinOffset
  calls : NoHostStdin vk.host.calls vk'.host.calls

/-- Allowed reads from descriptor 0 with anything else of the guest in between; the bytes are what
they have stored, in order. -/
inductive StdinRun (allowed : SubCtx → Valkyrie → Prop) (start : Valkyrie) :
    List U8 → Valkyrie → Prop
  | start : StdinRun allowed start [] start
  | read {out : List U8} {vk vk' : Valkyrie} {sctx : SubCtx} {r : Except ValkyrieError U64} :
      StdinRun allowed start out vk → sctx.arg0 = 0 → allowed sctx vk →
      (sysRead sctx).Ends vk r vk' → StdinRun allowed start (out ++ stored sctx vk' r) vk'
  | other {out : List U8} {vk vk' : Valkyrie} :
      StdinRun allowed start out vk → KeepsStdin vk vk' → StdinRun allowed start out vk'

/-- The guest reads the input and nothing else, and every call comes back. -/
structure StdinExact (allowed : SubCtx → Valkyrie → Prop) (start : Valkyrie) (input : List U8) :
    Prop where
  returns : ∀ out vk sctx, StdinRun allowed start out vk → sctx.arg0 = 0 → allowed sctx vk →
    ∃ r vk', (sysRead sctx).Ends vk r vk'
  isPrefix : ∀ out vk, StdinRun allowed start out vk → out <+: input
  stores : ∀ out vk sctx r vk', StdinRun allowed start out vk → sctx.arg0 = 0 → allowed sctx vk →
    (sysRead sctx).Ends vk r vk' → sctx.arg2 ≠ 0 → CanStore sctx vk → stored sctx vk' r = [] →
    out = input
  consumes : ∀ out vk sctx r vk', StdinRun allowed start out vk → sctx.arg0 = 0 → allowed sctx vk →
    (sysRead sctx).Ends vk r vk' → ¬ CanStore sctx vk → vk'.stdinLeft = vk.stdinLeft
  host : ∀ out vk, StdinRun allowed start out vk → NoHostStdin start.host.calls vk.host.calls

/-- The invariant: what has been stored and what is left are the input. -/
structure StdinSound (start : Valkyrie) (input out : List U8) (vk : Valkyrie) : Prop where
  data : vk.cfg.stdinData = input
  split : out ++ vk.stdinLeft = input
  calls : NoHostStdin start.host.calls vk.host.calls

theorem NoHostStdin.refl (calls : List HostCall) : NoHostStdin calls calls :=
  ⟨[], (List.append_nil calls).symm, nofun⟩

theorem NoHostStdin.trans {c₁ c₂ c₃ : List HostCall} (h : NoHostStdin c₁ c₂)
    (h' : NoHostStdin c₂ c₃) : NoHostStdin c₁ c₃ := by
  obtain ⟨more, rfl, no⟩ := h
  obtain ⟨more', rfl, no'⟩ := h'
  refine ⟨more ++ more', List.append_assoc .., fun n => ?_⟩
  rw [List.mem_append]
  exact fun bad => bad.elim (no n) (no' n)

variable {start : Valkyrie} {input out : List U8}

theorem StdinSound.other (h : StdinSound start input out vk) (keeps : KeepsStdin vk vk') :
    StdinSound start input out vk' where
  data := keeps.data.trans h.data
  split := by
    rw [Valkyrie.stdinLeft, keeps.data, keeps.offset]
    exact h.split
  calls := h.calls.trans keeps.calls

theorem drop_length_take {α : Type} (l : List α) (n : ℕ) :
    l.drop (l.take n).length = l.drop n := by
  rw [List.length_take]
  rcases Nat.le_total n l.length with le | ge
  · rw [Nat.min_eq_left le]
  · rw [Nat.min_eq_right ge, List.drop_length, List.drop_eq_nil_of_le ge]

/-- What is left after the bytes due have been taken. -/
theorem stdinLeft_advance : vk.stdinLeft = vk.due sctx ++
    (vk.advance (vk.due sctx).length).stdinLeft := by
  have left : (vk.advance (vk.due sctx).length).stdinLeft =
      vk.stdinLeft.drop (vk.due sctx).length := by
    simp only [Valkyrie.stdinLeft, Valkyrie.advance, List.drop_drop]
  rw [left, Valkyrie.due, drop_length_take, List.take_append_drop]

/-- One read that can allocate its buffer and store what it takes. -/
theorem StdinSound.read (h : StdinSound start input out vk) (nonempty : input ≠ [])
    (stdin : sctx.arg0 = 0) (can : CanRead sctx vk) : ∃ r vk', (sysRead sctx).Ends vk r vk' ∧
      StdinSound start input (out ++ stored sctx vk' r) vk' ∧ stored sctx vk' r = vk.due sctx := by
  by_cases nothing : vk.due sctx = []
  · refine ⟨_, _, sysRead_nothing stdin (h.data ▸ nonempty) nothing can, ?_⟩
    have none_ : stored sctx vk (.ok 0) = [] := rfl
    rw [none_, List.append_nil, nothing]
    exact ⟨h, rfl⟩
  have nonzero : sctx.arg2 ≠ 0 := by
    intro zero
    apply nothing
    rw [Valkyrie.due, zero]
    rfl
  have left : vk.stdinLeft ≠ [] := by
    intro empty
    apply nothing
    rw [Valkyrie.due, empty, List.take_nil]
  obtain ⟨uc, store, run⟩ := sysRead_stdin stdin nonzero left can
  have short : (vk.due sctx).length < 2 ^ 63 :=
    lt_of_le_of_lt (List.length_take_le sctx.arg2.toNat vk.stdinLeft) can.allocates
  have number : (BitVec.ofNat 64 (vk.due sctx).length).toNat = (vk.due sctx).length := by
    rw [BitVec.toNat_ofNat]
    omega
  have bytes : stored sctx ((vk.advance (vk.due sctx).length).withUc uc)
      (.ok (BitVec.ofNat 64 (vk.due sctx).length)) = vk.due sctx := by
    have notErrno : ¬ IsNegErrno (BitVec.ofNat 64 (vk.due sctx).length) := by
      rw [IsNegErrno, number]
      omega
    rw [stored, if_neg notErrno, number]
    exact Unicorn.contents_of_memWrite store
  refine ⟨_, _, run, ⟨h.data, ?_, h.calls⟩, bytes⟩
  rw [bytes, List.append_assoc]
  show out ++ (vk.due sctx ++ (vk.advance (vk.due sctx).length).stdinLeft) = input
  rw [← stdinLeft_advance]
  exact h.split

theorem StdinSound.of_run (nonempty : input ≠ []) (begins : StdinSound start input [] start)
    (run : StdinRun CanRead start out vk) : StdinSound start input out vk := by
  induction run with
  | start => exact begins
  | read _ stdin can last ih =>
    obtain ⟨r, t, run, sound, -⟩ := ih.read nonempty stdin can
    obtain ⟨rfl, rfl⟩ := last.unique run
    exact sound
  | other _ keeps ih => exact ih.other keeps

/-- An emulator without memory on a host that refuses everything. -/
def noMemory : Valkyrie := Valkyrie.ofMemory .x86_64 ⟨[], 0, 0⟩

/-- A snapshot of nothing. -/
def noSnapshot : EmulatorSnapshot where
  context _ := 0
  regions := []
  writableRegions := []
  linuxCreds := ⟨0, 0, 0, 0⟩
  guestRtSigactions := ∅
  guestRtSigmask := []
  guestPrctlName := Vector.replicate 16 0
  guestPdeathsig := 0
  guestDumpable := 1

/-- `noMemory` prepared for an input. -/
def prepared (input : List U8) : Valkyrie :=
  (((noMemory.withMem { noMemory.mem with regions := [] } noMemory.uc).withSnapshot
    noSnapshot).setStdinBytes input).resetExecutionState

theorem ends_prepareInput_noMemory (input : List U8) :
    (prepareInput noSnapshot input).Ends noMemory (.ok ()) (prepared input) := rfl

/-- An emulator with a page of memory. -/
def inputPage : Valkyrie :=
  Valkyrie.ofMemory .x86_64 ⟨[⟨0x1000, 0x1000, ⟨true, true, true⟩, "[stack]"⟩], 0, 0⟩

/-- A snapshot of one page. -/
def pageSnapshot : EmulatorSnapshot :=
  { noSnapshot with regions := [⟨0x1000, 0x1000, ⟨true, true, true⟩, "[stack]"⟩] }

/-- A read of one byte to address 0. -/
def readOne : SubCtx := ⟨0, 0, 1, 0, 0, 0⟩

/-- A read of `2 ^ 63` bytes to the page. -/
def readHuge : SubCtx := ⟨0, 0x1000, 0x8000000000000000, 0, 0, 0⟩

theorem canStore_readHuge : ∃ start, (prepareInput pageSnapshot [7]).Ends inputPage (.ok ()) start ∧
    CanStore readHuge start := by
  have page : (0x1000 : U64).toNat / 4096 = 1 := by decide
  have begins : ∃ start, (prepareInput pageSnapshot [7]).Ends inputPage (.ok ()) start ∧
      start.stdinLeft = [7] ∧ (start.uc.pages 1).isSome := ⟨_, rfl, rfl, rfl⟩
  obtain ⟨start, begins, left, mapped⟩ := begins
  have count : readHuge.arg2.toNat = 2 ^ 63 := rfl
  have due : start.due readHuge = [7] := by
    rw [Valkyrie.due, left, count]
    exact List.take_of_length_le (by decide)
  refine ⟨start, begins, ?_⟩
  rw [CanStore, due]
  refine ⟨by decide, fun x inside => ?_⟩
  have here : x = 0x1000 := by
    have low := inside.1
    have high := inside.2
    have first : readHuge.arg1.toNat = 0x1000 := rfl
    rw [first] at low high
    rw [List.length_singleton] at high
    bv_omega
  rw [here, Unicorn.protAt, page]
  exact mapped

/-- An empty input reads the host's standard input, a store that fails loses bytes, and a count that
cannot be allocated ends the emulator although the guest's buffer could hold what is due. -/
theorem stdin_not_exact :
    (∃ start, (prepareInput noSnapshot []).Ends noMemory (.ok ()) start ∧
      ¬ StdinExact (fun _ _ => True) start []) ∧
    (∃ start, (prepareInput noSnapshot [7]).Ends noMemory (.ok ()) start ∧
      ¬ StdinExact (fun _ _ => True) start [7]) ∧
    ∃ start, (prepareInput pageSnapshot [7]).Ends inputPage (.ok ()) start ∧
      ¬ StdinExact CanStore start [7] := by
  refine ⟨⟨_, ends_prepareInput_noMemory [], fun exact_ => ?_⟩,
    ⟨_, ends_prepareInput_noMemory [7], fun exact_ => ?_⟩, ?_⟩
  · have run : (sysRead readOne).Ends (prepared []) (.ok (negErrno EIO))
        ((prepared []).withHost ((prepared []).host.readStdin 1).2) := rfl
    obtain ⟨more, calls, no⟩ := exact_.host _ _ (.read .start rfl trivial run)
    have here : more = [.readStdin 1] := calls.symm
    exact no 1 (here ▸ List.mem_singleton.2 rfl)
  · have run : (sysRead readOne).Ends (prepared [7])
        (.error (.unicornGeneralError "mem_write failed")) ((prepared [7]).advance 1) := rfl
    have cannot : ¬ CanStore readOne (prepared [7]) := fun can => absurd (can.2 0 (by decide)) nofun
    have kept := exact_.consumes [] _ readOne _ _ .start rfl trivial run cannot
    exact absurd kept (by decide)
  · obtain ⟨start, begins, can⟩ := canStore_readHuge
    refine ⟨start, begins, fun exact_ => ?_⟩
    obtain ⟨r, vk', run⟩ := exact_.returns [] start readHuge .start rfl can
    have count : readHuge.arg2.toNat = 2 ^ 63 := rfl
    have nonzero : readHuge.arg2 ≠ 0 := fun zero => by simp [zero] at count
    simp only [sysRead, nonzero, if_false] at run
    exact absurd (ends_bind_hostAlloc.1 run).1 (by omega)

/-- After the preparation of a non-empty input, in every run of reads that can allocate their buffers
and store what they take, the guest reads the input and nothing else. -/
theorem stdin_exact_of_run (snapshot : EmulatorSnapshot) (vk start : Valkyrie) (input : List U8)
    (begins : (prepareInput snapshot input).Ends vk (.ok ()) start) (nonempty : input ≠ []) :
    StdinExact CanRead start input := by
  have data : start.cfg.stdinData = input ∧ start.stdinOffset = 0 := by
    rcases ends_bind.1 begins with ⟨e, -, ⟨⟩⟩ | ⟨_, t, -, rest⟩
    rw [(ends_modify.1 rest).2]
    exact ⟨rfl, rfl⟩
  have sound : StdinSound start input [] start := by
    refine ⟨data.1, ?_, .refl _⟩
    rw [Valkyrie.stdinLeft, data.1, data.2, List.drop_zero, List.nil_append]
  constructor
  · intro out vk sctx run stdin can
    obtain ⟨r, vk', ends, -⟩ := (sound.of_run nonempty run).read nonempty stdin can
    exact ⟨r, vk', ends⟩
  · exact fun out vk run => ⟨_, (sound.of_run nonempty run).split⟩
  · intro out vk sctx r vk' run stdin can last nonzero _ nothing
    have before := sound.of_run nonempty run
    obtain ⟨r', t, ends, -, bytes⟩ := before.read nonempty stdin can
    obtain ⟨rfl, rfl⟩ := last.unique ends
    rw [bytes] at nothing
    have empty : vk.stdinLeft = [] := by
      refine (List.take_eq_nil_iff.1 nothing).resolve_left fun zero => nonzero ?_
      exact BitVec.eq_of_toNat_eq zero
    have split := before.split
    rwa [empty, List.append_nil] at split
  · exact fun out vk sctx r vk' _ _ can _ cannot => (cannot can.store).elim
  · exact fun out vk run => (sound.of_run nonempty run).calls

theorem stdin_exact_of_run_page : ∃ start,
    (prepareInput pageSnapshot [7, 8]).Ends inputPage (.ok ()) start ∧
      StdinExact CanRead start [7, 8] ∧ ∃ vk', (sysRead ⟨0, 0x1000, 1, 0, 0, 0⟩).Ends start (.ok 1)
        vk' ∧ stored ⟨0, 0x1000, 1, 0, 0, 0⟩ vk' (.ok 1) = [7] := by
  have begins : ∃ start, (prepareInput pageSnapshot [7, 8]).Ends inputPage (.ok ()) start ∧
    ∃ vk', (sysRead ⟨0, 0x1000, 1, 0, 0, 0⟩).Ends start (.ok 1) vk' ∧
      stored ⟨0, 0x1000, 1, 0, 0, 0⟩ vk' (.ok 1) = [7] := ⟨_, rfl, _, rfl, rfl⟩
  obtain ⟨start, begins, read⟩ := begins
  exact ⟨start, begins, stdin_exact_of_run _ _ start [7, 8] begins (by decide), read⟩

end ValkyrieRs
