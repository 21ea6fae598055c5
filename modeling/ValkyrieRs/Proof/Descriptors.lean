import ValkyrieRs.Proof.FileCalls

/-!
# The table of descriptors

Each entry of the table owns the host descriptor of its own number, as long as no untracked number
is closed whose low 32 bits are those of a tracked or standard descriptor, and files are added
under their own numbers only.
-/

namespace ValkyrieRs

open Proc

/-! ## Integrity -/

/-- The entry owns the open host descriptor of its number, alone. -/
structure Owned (vk : Valkyrie) (k : U64) (f : VkFile) : Prop where
  number : f.file.signExtend 64 = k
  isOpen : vk.host.IsOpen f.file
  alone : ∀ k' f', vk.fdTable.lookup k' = some f' → f'.file = f.file → k' = k

/-- `sys_close` closes the host descriptor of the entry and removes the entry, nothing else. -/
def ClosesExactly (vk : Valkyrie) (k : U64) (f : VkFile) : Prop :=
  ∀ sctx r vk', sctx.arg0 = k → (sysClose sctx).Ends vk r vk' →
    r = .ok 0 ∧ vk'.fdTable = vk.fdTable.erase k ∧
      ∀ x, vk'.host.IsOpen x ↔ x ≠ f.file ∧ vk.host.IsOpen x

/-- Every open file is recorded under its own number. -/
def TableIntegrity (vk : Valkyrie) : Prop :=
  ∀ k f, vk.fdTable.lookup k = some f → Owned vk k f ∧ ClosesExactly vk k f

/-- The invariant: the standard descriptors are open and not in the table. -/
structure TableSound (vk : Valkyrie) : Prop where
  number : ∀ k f, vk.fdTable.lookup k = some f → f.file.signExtend 64 = k
  other : ∀ k f, vk.fdTable.lookup k = some f → 2 < f.file
  isOpen : ∀ k f, vk.fdTable.lookup k = some f → vk.host.IsOpen f.file
  std : ∀ fd ≤ 2, vk.host.IsOpen fd

/-- No entry has the host descriptor. -/
def Unowned (vk : Valkyrie) (fd : U32) : Prop := ∀ k f, vk.fdTable.lookup k = some f → f.file ≠ fd

variable {vk vk' : Valkyrie} {k : U64} {f : VkFile} {fd : U32}

theorem two_lt_signExtend {x : U32} (h : 2 < x) : ¬ x.signExtend 64 ≤ 2 := by
  intro le
  have back := congrArg BitVec.toNat (setWidth_signExtend x)
  rw [BitVec.toNat_setWidth] at back
  bv_omega

theorem TableSound.not_std (h : TableSound vk) (found : vk.fdTable.lookup k = some f) :
    ¬ k ≤ 2 := h.number k f found ▸ two_lt_signExtend (h.other k f found)

theorem TableSound.integrity (h : TableSound vk) : TableIntegrity vk := by
  intro k f found
  refine ⟨⟨h.number k f found, h.isOpen k f found, fun k' f' found' same => ?_⟩, ?_⟩
  · rw [← h.number k f found, ← h.number k' f' found', same]
  · rintro sctx r vk' rfl run
    obtain ⟨rfl, rfl⟩ := (ends_sysClose_tracked (h.not_std found) found).1 run
    exact ⟨rfl, rfl, fun x => Host.isOpen_close⟩

/-- The keys of the table are the numbers of its files. -/
theorem TableSound.unowned_iff (h : TableSound vk) :
    Unowned vk fd ↔ vk.fdTable.lookup (fd.signExtend 64) = none := by
  constructor
  · intro unowned
    cases found : vk.fdTable.lookup (fd.signExtend 64) with
    | none => rfl
    | some f => exact (unowned _ f found (signExtend_inj (h.number _ f found))).elim
  · rintro absent k f found rfl
    rw [h.number k f found, found] at absent
    cases absent

theorem TableSound.unowned_of_closed (h : TableSound vk) (closed : ¬ vk.host.IsOpen fd) :
    Unowned vk fd := by
  rintro k f found rfl
  exact closed (h.isOpen k f found)

/-! ## What keeps it -/

/-- The host opens more descriptors. -/
theorem TableSound.withHost {host : Host} (h : TableSound vk)
    (opens : ∀ x, vk.host.IsOpen x → host.IsOpen x) : TableSound (vk.withHost host) where
  number := h.number
  other := h.other
  isOpen k f found := opens _ (h.isOpen k f found)
  std fd le := opens _ (h.std fd le)

/-- The host closes a descriptor that no entry has. -/
theorem TableSound.closeUnowned (h : TableSound vk) (unowned : Unowned vk fd) (other : 2 < fd) :
    TableSound (vk.withHost (vk.host.close fd).2) where
  number := h.number
  other := h.other
  isOpen k f found := Host.isOpen_close.2 ⟨unowned k f found, h.isOpen k f found⟩
  std x le := Host.isOpen_close.2 ⟨by rintro rfl; exact absurd le (by bv_omega), h.std x le⟩

/-- An open descriptor that no entry has becomes an entry under its number. -/
theorem TableSound.insertFile (h : TableSound vk) (unowned : Unowned vk f.file)
    (isOpen : vk.host.IsOpen f.file) (other : 2 < f.file) :
    TableSound (vk.insertFile (f.file.signExtend 64) f) := by
  have absent := h.unowned_iff.1 unowned
  have table : (vk.insertFile (f.file.signExtend 64) f).fdTable =
      vk.fdTable.insert (f.file.signExtend 64) f := rfl
  have host : (vk.insertFile (f.file.signExtend 64) f).host = vk.host := by
    simp [Valkyrie.insertFile, absent]
  have cases_ : ∀ k g, (vk.fdTable.insert (f.file.signExtend 64) f).lookup k = some g →
      k = f.file.signExtend 64 ∧ g = f ∨ vk.fdTable.lookup k = some g := by
    intro k g found
    by_cases same : k = f.file.signExtend 64
    · rw [same, AList.lookup_insert] at found
      exact .inl ⟨same, (Option.some_inj.1 found).symm⟩
    · rw [AList.lookup_insert_ne same] at found
      exact .inr found
  constructor
  · intro k g found
    rcases cases_ k g found with ⟨rfl, rfl⟩ | old
    · rfl
    · exact h.number k g old
  · intro k g found
    rcases cases_ k g found with ⟨rfl, rfl⟩ | old
    · exact other
    · exact h.other k g old
  · intro k g found
    rw [host]
    rcases cases_ k g found with ⟨rfl, rfl⟩ | old
    · exact isOpen
    · exact h.isOpen k g old
  · rw [host]
    exact h.std

/-- An entry is removed and its file closed. -/
theorem TableSound.removeFile (h : TableSound vk) (found : vk.fdTable.lookup k = some f) :
    TableSound (vk.removeFile k f) := by
  have still : ∀ k' g, (vk.fdTable.erase k).lookup k' = some g →
      k' ≠ k ∧ vk.fdTable.lookup k' = some g := by
    intro k' g found'
    by_cases same : k' = k
    · rw [same, AList.lookup_erase] at found'
      cases found'
    · rw [AList.lookup_erase_ne same] at found'
      exact ⟨same, found'⟩
  refine ⟨fun k' g found' => h.number k' g (still k' g found').2,
    fun k' g found' => h.other k' g (still k' g found').2, fun k' g found' => ?_, fun fd le => ?_⟩
  · obtain ⟨ne, old⟩ := still k' g found'
    refine Host.isOpen_close.2 ⟨fun same => ne ?_, h.isOpen k' g old⟩
    rw [← h.number k' g old, ← h.number k f found, same]
  · have other := h.other k f found
    exact Host.isOpen_close.2 ⟨by rintro rfl; exact absurd le (by bv_omega), h.std fd le⟩

/-! ## Sequences of calls -/

/-- The calls that work on the table. -/
inductive TableCall where
  | «open» (sctx : SubCtx)
  | openat (sctx : SubCtx)
  | dup (sctx : SubCtx)
  | close (sctx : SubCtx)
  | addFileEntry (targetFd : U64) (file : VkFile) (safe : Bool)
  | rmFileEntry (targetFd : U64)

/-- What the call does. -/
def TableCall.Does : TableCall → Valkyrie → Valkyrie → Prop
  | .open sctx, vk, vk' => ∃ r, (sysOpen sctx).Ends vk r vk'
  | .openat sctx, vk, vk' => ∃ r, (sysOpenat sctx).Ends vk r vk'
  | .dup sctx, vk, vk' => ∃ r, (sysDup sctx).Ends vk r vk'
  | .close sctx, vk, vk' => ∃ r, (sysClose sctx).Ends vk r vk'
  | .addFileEntry targetFd file safe, vk, vk' =>
    ∃ r, (ValkyrieRs.addFileEntry targetFd file safe).Ends vk r vk'
  | .rmFileEntry targetFd, vk, vk' => ∃ r, (ValkyrieRs.rmFileEntry targetFd).Ends vk r vk'

/-- An untracked number has not the low 32 bits of a tracked or a standard descriptor; a file that
is added comes open and unowned, and under its own number unless the safe check refuses it. -/
def TableCall.Proper : TableCall → Valkyrie → Prop
  | .close sctx, vk => sctx.arg0 ≤ 2 ∨ sctx.arg0 ∈ vk.fdTable ∨
      (sctx.arg0.setWidth 32).signExtend 64 ∉ vk.fdTable ∧ 2 < sctx.arg0.setWidth 32
  | .addFileEntry targetFd file safe, vk => 2 < file.file ∧ vk.host.IsOpen file.file ∧
      file.file.signExtend 64 ∉ vk.fdTable ∧
      (targetFd = file.file.signExtend 64 ∨ safe ∧ (targetFd ≤ 2 ∨ targetFd ∈ vk.fdTable))
  | _, _ => True

/-- The host hands out a number that is not open. -/
def FreshAnswer (host : Host) : Prop := host.answer.ok → ¬ host.IsOpen host.answer.fd

/-- An allowed call, or anything that the guest does to its own memory and registers. -/
inductive TableStep (allowed : TableCall → Valkyrie → Prop) : Valkyrie → Valkyrie → Prop
  | call {vk vk' : Valkyrie} (c : TableCall) :
      FreshAnswer vk.host → allowed c vk → c.Does vk vk' → TableStep allowed vk vk'
  | guest {vk : Valkyrie} (uc : Unicorn) : TableStep allowed vk (vk.withUc uc)

theorem lookup_eq_none_of_notMem {table : FdTable} (absent : k ∉ table) :
    table.lookup k = none := AList.lookup_eq_none.2 absent

theorem TableSound.opened {dirfd flags mode : U32} {hostPath : List Char} (h : TableSound vk)
    (fresh : FreshAnswer vk.host) : TableSound (vk.opened dirfd hostPath flags mode).2 := by
  have calls := @Host.openat_cases vk.host dirfd hostPath flags mode
  rw [Valkyrie.opened]
  generalize vk.host.openat dirfd hostPath flags mode = out at calls
  obtain ⟨ret, host⟩ := out
  rcases calls with ⟨e, rfl, opens⟩ | ⟨ok, rfl, opens⟩
  · exact h.withHost fun x isOpen => (opens x).2 isOpen
  · have more := h.withHost fun x isOpen => (opens x).2 (.inr isOpen)
    have other : 2 < vk.host.answer.fd := by
      by_contra std
      exact fresh ok (h.std _ (by bv_omega))
    exact more.insertFile (f := ⟨_, hostPath, _, _⟩) (h.unowned_of_closed (fresh ok))
      ((opens _).2 (.inl rfl)) other

theorem TableSound.duplicated (h : TableSound vk) (fresh : FreshAnswer vk.host) (f : VkFile) :
    TableSound (vk.duplicated f).2 := by
  have calls := @Host.dup_cases vk.host f.file
  rw [Valkyrie.duplicated]
  generalize vk.host.dup f.file = out at calls
  obtain ⟨ret, host⟩ := out
  rcases calls with ⟨e, rfl, opens⟩ | ⟨ok, rfl, opens⟩
  · exact h.withHost fun x isOpen => (opens x).2 isOpen
  · have more := h.withHost fun x isOpen => (opens x).2 (.inr isOpen)
    have other : 2 < vk.host.answer.fd := by
      by_contra std
      exact fresh ok (h.std _ (by bv_omega))
    exact more.insertFile (f := { f with file := vk.host.answer.fd })
      (h.unowned_of_closed (fresh ok)) ((opens _).2 (.inl rfl)) other

theorem TableSound.dupHost (h : TableSound vk) (fd : U32) : TableSound (vk.dupHost fd).2 := by
  have calls := @Host.dup_cases vk.host fd
  rw [Valkyrie.dupHost]
  generalize vk.host.dup fd = out at calls
  obtain ⟨ret, host⟩ := out
  rcases calls with ⟨e, rfl, opens⟩ | ⟨ok, rfl, opens⟩
  · exact h.withHost fun x isOpen => (opens x).2 isOpen
  · exact h.withHost fun x isOpen => (opens x).2 (.inr isOpen)

theorem TableSound.close (h : TableSound vk) {sctx : SubCtx}
    (proper : (TableCall.close sctx).Proper vk) {r : Except ValkyrieError U64}
    (run : (sysClose sctx).Ends vk r vk') : TableSound vk' := by
  by_cases std : sctx.arg0 ≤ 2
  · rw [((ends_sysClose_std std).1 run).2]
    exact h
  cases found : vk.fdTable.lookup sctx.arg0 with
  | some f =>
    rw [((ends_sysClose_tracked std found).1 run).2]
    exact h.removeFile found
  | none =>
    rw [sysClose_untracked std found run]
    rcases proper with low | tracked | ⟨apart, other⟩
    · exact (std low).elim
    · exact absurd tracked (AList.lookup_eq_none.1 found)
    · exact h.closeUnowned (h.unowned_iff.2 (lookup_eq_none_of_notMem apart)) other

theorem TableSound.addFileEntry (h : TableSound vk) {targetFd : U64} {file : VkFile} {safe : Bool}
    (proper : (TableCall.addFileEntry targetFd file safe).Proper vk)
    {r : Except ValkyrieError Unit}
    (run : (ValkyrieRs.addFileEntry targetFd file safe).Ends vk r vk') : TableSound vk' := by
  obtain ⟨other, isOpen, absent, own⟩ := proper
  have unowned := h.unowned_iff.2 (lookup_eq_none_of_notMem absent)
  rcases addFileEntry_cases run with rfl | ⟨taken, rfl⟩
  · exact h.closeUnowned unowned other
  · rw [own.resolve_right taken]
    exact h.insertFile unowned isOpen other

theorem TableSound.step (h : TableSound vk) (step : TableStep TableCall.Proper vk vk') :
    TableSound vk' := by
  cases step with
  | guest uc => exact ⟨h.number, h.other, h.isOpen, h.std⟩
  | call c fresh proper does =>
    cases c with
    | «open» sctx =>
      obtain ⟨r, run⟩ := does
      rcases openGuestPath_cases run with ⟨-, rfl⟩ | ⟨hostPath, ended⟩
      · exact h
      · rw [show vk' = _ from congrArg Prod.snd ended]
        exact h.opened fresh
    | openat sctx =>
      obtain ⟨r, run⟩ := does
      rcases openGuestPath_cases run with ⟨-, rfl⟩ | ⟨hostPath, ended⟩
      · exact h
      · rw [show vk' = _ from congrArg Prod.snd ended]
        exact h.opened fresh
    | dup sctx =>
      obtain ⟨r, run⟩ := does
      rcases sysDup_cases run with ⟨-, rfl⟩ | ⟨-, ended⟩ | ⟨f, -, ended⟩
      · exact h
      · rw [show vk' = _ from congrArg Prod.snd ended]
        exact h.dupHost _
      · rw [show vk' = _ from congrArg Prod.snd ended]
        exact h.duplicated fresh f
    | close sctx =>
      obtain ⟨r, run⟩ := does
      exact h.close proper run
    | addFileEntry targetFd file safe =>
      obtain ⟨r, run⟩ := does
      exact h.addFileEntry proper run
    | rmFileEntry targetFd =>
      obtain ⟨r, run⟩ := does
      rcases rmFileEntry_cases run with rfl | ⟨f, found, rfl⟩
      · exact h
      · exact h.removeFile found

/-! ## Every run -/

/-- An empty table, on a host with the descriptors 3 and 4 and the standard ones open. -/
def emptyTable : Valkyrie :=
  { Valkyrie.ofMemory .x86_64 ⟨[], 0, 0⟩ with
    host := { Host.refusing with
      fds := (((((∅ : AList fun _ : U32 => ℕ).insert 0 0).insert 1 0).insert 2 0).insert 3 0).insert
        4 0 } }

/-- A file under the number 3. -/
def fileThree : VkFile := ⟨3, "/srv/rootfs/etc/passwd".toList, 0, 0⟩

/-- `emptyTable` with the file as its entry 3. -/
def oneEntry : Valkyrie := emptyTable.insertFile 3 fileThree

theorem emptyTable_std : ∀ fd ≤ 2, emptyTable.host.IsOpen fd := by
  intro fd le
  have number : fd = 0 ∨ fd = 1 ∨ fd = 2 := by bv_omega
  rcases number with rfl | rfl | rfl
  · decide
  · decide
  · decide

theorem freshAnswer_refusing {host : Host} (refuses : host.answers = Host.refusing.answers) :
    FreshAnswer host := by
  intro ok
  rw [Host.answer, refuses] at ok
  cases ok

theorem oneEntry_reached {allowed : TableCall → Valkyrie → Prop}
    (adds : allowed (.addFileEntry 3 fileThree true) emptyTable) :
    TableStep allowed emptyTable oneEntry :=
  .call (.addFileEntry 3 fileThree true) (freshAnswer_refusing rfl) adds ⟨.ok (), rfl⟩

/-- Closing the number `2 ^ 32 + 3` leaves the entry 3 without its host descriptor. -/
theorem close_leaves_stale_entry :
    ¬ ∀ vk', Relation.ReflTransGen (TableStep fun _ _ => True) emptyTable vk' →
      TableIntegrity vk' := by
  intro kept
  let closed := oneEntry.withHost (oneEntry.host.close 3).2
  have closes : TableStep (fun _ _ => True) oneEntry closed :=
    .call (.close ⟨0x100000003, 0, 0, 0, 0, 0⟩) (freshAnswer_refusing rfl) trivial ⟨_, rfl⟩
  have owned := (kept closed (.tail (.single (oneEntry_reached trivial)) closes) 3 fileThree rfl).1
  have notOpen : ¬ closed.host.IsOpen 3 := by decide
  exact notOpen owned.isOpen

/-- After every run of proper calls from an empty table, each entry owns the open host descriptor
of its number and `sys_close` closes exactly it. -/
theorem table_integrity_of_run (vk vk' : Valkyrie) (empty : vk.fdTable = ∅)
    (std : ∀ fd ≤ 2, vk.host.IsOpen fd) (run : Relation.ReflTransGen (TableStep TableCall.Proper) vk vk') :
    TableIntegrity vk' := by
  have start : TableSound vk := by
    have none_ : ∀ k f, vk.fdTable.lookup k ≠ some f := by simp [empty]
    exact ⟨fun k f h => (none_ k f h).elim, fun k f h => (none_ k f h).elim,
      fun k f h => (none_ k f h).elim, std⟩
  have sound : TableSound vk' := by
    induction run with
    | refl => exact start
    | tail _ last ih => exact ih.step last
  exact sound.integrity

/-- A file is added under 3, a second one is refused there and closed, and 3 is closed. -/
theorem table_integrity_of_run_oneEntry :
    ∃ refused : Valkyrie, TableStep TableCall.Proper oneEntry refused ∧ ¬ refused.host.IsOpen 4 ∧
      TableIntegrity refused ∧ TableIntegrity (refused.removeFile 3 fileThree) := by
  let fileFour : VkFile := { fileThree with file := 4 }
  let refused := oneEntry.withHost (oneEntry.host.close 4).2
  have adds : TableStep TableCall.Proper emptyTable oneEntry :=
    oneEntry_reached ⟨by decide, by decide, by decide, .inl (by decide)⟩
  have refuses : TableStep TableCall.Proper oneEntry refused :=
    .call (.addFileEntry 3 fileFour true) (freshAnswer_refusing rfl)
      ⟨by decide, by decide, by decide, .inr (by decide)⟩ ⟨_, rfl⟩
  have closes : TableStep TableCall.Proper refused (refused.removeFile 3 fileThree) :=
    .call (.close ⟨3, 0, 0, 0, 0, 0⟩) (freshAnswer_refusing rfl) (.inr (.inl (by decide)))
      ⟨.ok 0, rfl⟩
  have run := Relation.ReflTransGen.tail (.single adds) refuses
  exact ⟨refused, refuses, by decide, table_integrity_of_run emptyTable _ rfl emptyTable_std run,
    table_integrity_of_run emptyTable _ rfl emptyTable_std (run.tail closes)⟩

end ValkyrieRs
