import ValkyrieRs.Unicorn

/-!
# The region list

`memory.rs`: the list of mapped regions that the emulator keeps beside the engine's own page map.
`map` changes both, `removeRange` edits the list alone.
-/

namespace ValkyrieRs

/-- A region of the map. -/
structure VMemRegion where
  start : U64
  size : U64
  prot : Prot
  info : String
deriving DecidableEq, Repr

/-- The map: its regions, and the bounds of the heap. -/
structure VMemory where
  regions : List VMemRegion
  heapAddrStart : U64
  heapAddrExit : U64
deriving DecidableEq, Repr

namespace VMemRegion

instance : Membership U64 VMemRegion := ⟨fun r x => InRange r.start r.size.toNat x⟩

instance (r : VMemRegion) (x : U64) : Decidable (x ∈ r) :=
  inferInstanceAs (Decidable (InRange _ _ _))

/-- `region.start.saturating_add(region.size)`. -/
def satEnd (r : VMemRegion) : U64 := satAdd r.start r.size

/-- What the loop of `remove_range` keeps of one region; `addr` and `stop` bound the range. -/
def keep (addr stop : U64) (r : VMemRegion) : List VMemRegion :=
  if stop ≤ r.start ∨ addr ≥ r.satEnd then [r]
  else
    (if addr > r.start then [{ r with size := satSub addr r.start }] else []) ++
    (if stop < r.satEnd then [{ r with start := stop, size := satSub r.satEnd stop }] else [])

end VMemRegion

namespace VMemory

/-- `self.regions.push(..)`. -/
@[simps] def addRegion (mem : VMemory) (r : VMemRegion) : VMemory :=
  { mem with regions := mem.regions ++ [r] }

/-- `self.heap_addr_exit = ..`. -/
@[simps] def setBreak (mem : VMemory) (newBreak : U64) : VMemory :=
  { mem with heapAddrExit := newBreak }

/-- `mem_map`, then a new last region. -/
def map (mem : VMemory) (uc : Unicorn) (addr size : U64) (prot : Prot) (info : String) :
    Except ValkyrieError (VMemory × Unicorn) :=
  if size = 0 then .error (.badConfig "mem.map size must be > 0")
  else
    match uc.memMap addr size prot with
    | .error _ => .error (.unicornGeneralError "mem_map failed")
    | .ok uc => .ok (mem.addRegion ⟨addr, size, prot, info⟩, uc)

/-- `VMemory::write`. -/
def write (uc : Unicorn) (addr : U64) (data : List U8) : Except ValkyrieError Unicorn :=
  if data = [] then .error (.badConfig "mem.write buffer must be non-empty")
  else
    match uc.memWrite addr data with
    | .error _ => .error (.unicornGeneralError "mem_write failed")
    | .ok uc => .ok uc

/-- `VMemory::read`. -/
def read (uc : Unicorn) (addr : U64) (size : ℕ) : Except ValkyrieError (List U8) :=
  if size = 0 then .error (.badConfig "mem.read size must be > 0")
  else
    match uc.memRead addr size with
    | .error _ => .error (.unicornGeneralError "mem_read failed")
    | .ok data => .ok data

/-- `remove_range`: the regions lose what lies in the range. -/
def removeRange (mem : VMemory) (addr size : U64) : VMemory :=
  if size = 0 then mem
  else { mem with regions := mem.regions.flatMap (VMemRegion.keep addr (satAdd addr size)) }

end VMemory

/-! ## What the calls do -/

namespace VMemory

variable {mem mem' : VMemory} {uc uc' : Unicorn} {addr size : U64} {prot : Prot} {info : String}

theorem map_ok_iff : mem.map uc addr size prot info = .ok (mem', uc') ↔
    uc.memMap addr size prot = .ok uc' ∧
      mem' = mem.addRegion ⟨addr, size, prot, info⟩ := by
  unfold map
  by_cases hs : size = 0
  · simp [hs, Unicorn.memMap]
  · rw [if_neg hs]
    cases uc.memMap addr size prot <;> simp [eq_comm, and_comm]

/-- `map` succeeds exactly when the engine accepts the range. -/
theorem map_isOk_iff : (∃ out, mem.map uc addr size prot info = .ok out) ↔
    uc.Mappable addr size := by
  rw [← Unicorn.memMap_ok_iff]
  constructor
  · rintro ⟨⟨mem', uc'⟩, h⟩
    exact ⟨uc', (map_ok_iff.1 h).1⟩
  · rintro ⟨uc', h⟩
    exact ⟨(_, uc'), map_ok_iff.2 ⟨h, rfl⟩⟩

theorem map_isError_iff : (∃ e, mem.map uc addr size prot info = .error e) ↔
    ¬ uc.Mappable addr size := by
  rw [← @map_isOk_iff mem uc addr size prot info]
  cases mem.map uc addr size prot info <;> simp

theorem write_ok_iff {data : List U8} :
    write uc addr data = .ok uc' ↔ data ≠ [] ∧ uc.memWrite addr data = .ok uc' := by
  unfold write
  by_cases hd : data = []
  · simp [hd]
  · rw [if_neg hd]
    cases uc.memWrite addr data <;> simp [hd]

theorem read_ok_iff {n : ℕ} {data : List U8} :
    read uc addr n = .ok data ↔ n ≠ 0 ∧ uc.memRead addr n = .ok data := by
  unfold read
  by_cases hn : n = 0
  · simp [hn]
  · rw [if_neg hn]
    cases uc.memRead addr n <;> simp [hn]

@[simp] theorem removeRange_zero : mem.removeRange addr 0#64 = mem := by simp [removeRange]

@[simp] theorem heapAddrStart_removeRange :
    (mem.removeRange addr size).heapAddrStart = mem.heapAddrStart := by
  unfold removeRange
  split_ifs <;> rfl

@[simp] theorem heapAddrExit_removeRange :
    (mem.removeRange addr size).heapAddrExit = mem.heapAddrExit := by
  unfold removeRange
  split_ifs <;> rfl

theorem mem_removeRange {r : VMemRegion} (hs : size ≠ 0) :
    r ∈ (mem.removeRange addr size).regions ↔
      ∃ s ∈ mem.regions, r ∈ s.keep addr (satAdd addr size) := by
  rw [removeRange, if_neg hs]
  exact List.mem_flatMap

end VMemory

end ValkyrieRs
