import ValkyrieRs.Common

/-!
# The engine

The part of Unicorn that the emulator relies on: a map from page numbers to protections, one byte
for each address and a register file.  `memMap` succeeds exactly on non-empty, page-aligned,
non-wrapping ranges that meet no mapped page and maps fresh zeroed pages; `memUnmap` and
`memProtect` succeed exactly on page-aligned ranges that are entirely mapped, and do nothing on
size zero; `memRead` and `memWrite` succeed exactly on mapped ranges, whatever their protection.
A failing call leaves the engine untouched.

The lemmas state all of this address by address, through `protAt` and `InRange`.
-/

namespace ValkyrieRs

/-- The protection flags `Prot`. -/
structure Prot where
  read : Bool
  write : Bool
  exec : Bool
deriving DecidableEq, Repr

namespace Prot

/-- No access. -/
def none : Prot := ⟨false, false, false⟩

/-- Every access. -/
def all : Prot := ⟨true, true, true⟩

/-- `prot | Prot::READ`. -/
def withRead (p : Prot) : Prot := { p with read := true }

end Prot

/-- The engine: its pages, its memory, its registers, and whether it is asked to stop. -/
structure Unicorn where
  pages : ℕ → Option Prot
  bytes : U64 → U8
  reg : VRegister → U64
  stopRequested : Bool

/-- The address lies in the range of `n` bytes at `addr`. -/
def InRange (addr : U64) (n : ℕ) (x : U64) : Prop :=
  addr.toNat ≤ x.toNat ∧ x.toNat < addr.toNat + n

instance (addr : U64) (n : ℕ) (x : U64) : Decidable (InRange addr n x) :=
  inferInstanceAs (Decidable (_ ∧ _))

@[simp] theorem not_inRange_zero {addr x : U64} : ¬ InRange addr 0 x := by
  unfold InRange
  omega

/-- The range between two addresses. -/
theorem inRange_sub {lo hi x : U64} (h : lo ≤ hi) :
    InRange lo (hi - lo).toNat x ↔ lo ≤ x ∧ x < hi := by
  rw [InRange, BitVec.toNat_sub_of_le h, BitVec.le_def, BitVec.lt_def]
  rw [BitVec.le_def] at h
  omega

/-- The numbers of the pages touched by the `n` bytes at `addr`. -/
def pageSpan (addr : U64) (n : ℕ) : List ℕ :=
  List.range' (addr.toNat / 4096) ((addr.toNat % 4096 + n + 4095) / 4096)

/-- The address starts a page. -/
abbrev Aligned (a : U64) : Prop := a.toNat % 4096 = 0

namespace Unicorn

variable (uc : Unicorn)

/-- The protection of the page of an address, if it is mapped. -/
def protAt (x : U64) : Option Prot := uc.pages (x.toNat / 4096)

/-- What a read of one byte of guest memory gives. -/
def readAt (x : U64) : Option U8 := if (uc.protAt x).isSome then some (uc.bytes x) else none

/-- `check_mem_area`: the range does not wrap and each of its pages is mapped. -/
def spanMapped (addr : U64) (n : ℕ) : Bool :=
  addr.toNat + n ≤ 2 ^ 64 && (n == 0 || (pageSpan addr n).all fun p => (uc.pages p).isSome)

/-- `uc_mem_map`. -/
def memMap (addr size : U64) (prot : Prot) : Except UcError Unicorn :=
  if size = 0 ∨ ¬ Aligned addr ∨ ¬ Aligned size ∨ 2 ^ 64 < addr.toNat + size.toNat then .error .arg
  else if (pageSpan addr size.toNat).any fun p => (uc.pages p).isSome then .error .map
  else .ok { uc with
    pages := fun p => if p ∈ pageSpan addr size.toNat then some prot else uc.pages p
    bytes := fun x => if InRange addr size.toNat x then 0 else uc.bytes x }

/-- `uc_mem_unmap`. -/
def memUnmap (addr size : U64) : Except UcError Unicorn :=
  if size = 0 then .ok uc
  else if ¬ Aligned addr ∨ ¬ Aligned size then .error .arg
  else if uc.spanMapped addr size.toNat = false then .error .nomem
  else .ok { uc with
    pages := fun p => if p ∈ pageSpan addr size.toNat then Option.none else uc.pages p }

/-- `uc_mem_protect`. -/
def memProtect (addr size : U64) (prot : Prot) : Except UcError Unicorn :=
  if size = 0 then .ok uc
  else if ¬ Aligned addr ∨ ¬ Aligned size then .error .arg
  else if uc.spanMapped addr size.toNat = false then .error .nomem
  else .ok { uc with
    pages := fun p => if p ∈ pageSpan addr size.toNat then some prot else uc.pages p }

/-- `uc_mem_write`. -/
def memWrite (addr : U64) (data : List U8) : Except UcError Unicorn :=
  if uc.spanMapped addr data.length = false then .error .writeUnmapped
  else .ok { uc with
    bytes := fun x =>
      if InRange addr data.length x then data.getD (x.toNat - addr.toNat) 0 else uc.bytes x }

/-- The bytes at an address. -/
def contents (addr : U64) (n : ℕ) : List U8 :=
  (List.range n).map fun i => uc.bytes (addr + BitVec.ofNat 64 i)

/-- `uc_mem_read`. -/
def memRead (addr : U64) (size : ℕ) : Except UcError (List U8) :=
  if uc.spanMapped addr size = false then .error .readUnmapped else .ok (uc.contents addr size)

/-- `uc_reg_write`. -/
def regWrite (r : VRegister) (value : U64) : Unicorn :=
  { uc with reg := fun q => if q = r then value else uc.reg q }

/-- `uc_emu_stop`. -/
def emuStop : Unicorn := { uc with stopRequested := true }

/-! ## Pages and addresses -/

theorem mem_pageSpan {addr : U64} {n p : ℕ} :
    p ∈ pageSpan addr n ↔
      addr.toNat / 4096 ≤ p ∧ p < addr.toNat / 4096 + (addr.toNat % 4096 + n + 4095) / 4096 := by
  simp [pageSpan, List.mem_range'_1]

/-- On an aligned range, a page is touched exactly when each of its addresses is in the range. -/
theorem page_mem_pageSpan {addr : U64} {n : ℕ} (ha : addr.toNat % 4096 = 0) (hn : n % 4096 = 0)
    (x : U64) : x.toNat / 4096 ∈ pageSpan addr n ↔ InRange addr n x := by
  rw [mem_pageSpan, InRange]
  omega

/-- Every touched page has an address in the range. -/
theorem exists_inRange_of_mem_pageSpan {addr : U64} {n p : ℕ} (hn : 0 < n)
    (bound : addr.toNat + n ≤ 2 ^ 64) (h : p ∈ pageSpan addr n) :
    ∃ x : U64, InRange addr n x ∧ x.toNat / 4096 = p := by
  rw [mem_pageSpan] at h
  refine ⟨BitVec.ofNat 64 (max addr.toNat (p * 4096)), ?_, ?_⟩
  all_goals
    simp only [InRange, BitVec.toNat_ofNat]
    rw [Nat.mod_eq_of_lt (by omega)]
    omega

theorem mem_pageSpan_of_inRange {addr x : U64} {n : ℕ} (h : InRange addr n x) :
    x.toNat / 4096 ∈ pageSpan addr n := by
  rw [mem_pageSpan]
  unfold InRange at h
  omega

/-- The range does not wrap and each of its addresses is mapped. -/
def Mapped (addr : U64) (n : ℕ) : Prop :=
  addr.toNat + n ≤ 2 ^ 64 ∧ ∀ x, InRange addr n x → (uc.protAt x).isSome

theorem spanMapped_iff (addr : U64) (n : ℕ) : uc.spanMapped addr n ↔ uc.Mapped addr n := by
  simp only [spanMapped, Mapped, Bool.and_eq_true, decide_eq_true_eq, Bool.or_eq_true,
    beq_iff_eq, List.all_eq_true]
  refine and_congr_right fun bound => ?_
  constructor
  · rintro (rfl | h) x hx
    · unfold InRange at hx
      omega
    · exact h _ (mem_pageSpan_of_inRange hx)
  · intro h
    refine (Nat.eq_zero_or_pos n).imp_right fun pos p hp => ?_
    obtain ⟨x, hx, rfl⟩ := exists_inRange_of_mem_pageSpan pos bound hp
    exact h x hx

/-- `uc_mem_map` accepts the range. -/
structure Mappable (addr size : U64) : Prop where
  size_ne : size ≠ 0
  addr_aligned : addr.toNat % 4096 = 0
  size_aligned : size.toNat % 4096 = 0
  bound : addr.toNat + size.toNat ≤ 2 ^ 64
  free : ∀ x, InRange addr size.toNat x → uc.protAt x = Option.none

/-- `uc_mem_unmap` and `uc_mem_protect` accept the range and do something. -/
structure Unmappable (addr size : U64) : Prop where
  size_ne : size ≠ 0
  addr_aligned : addr.toNat % 4096 = 0
  size_aligned : size.toNat % 4096 = 0
  mapped : uc.Mapped addr size.toNat

variable {uc} {uc' : Unicorn} {addr size : U64} {prot : Prot}

theorem Mapped.of_pages {n : ℕ} (h : uc.Mapped addr n) (same : uc'.pages = uc.pages) :
    uc'.Mapped addr n :=
  ⟨h.1, fun x hx => by rw [protAt, same]; exact h.2 x hx⟩

/-! ## What the calls do -/

theorem memMap_ok_iff : (∃ uc', uc.memMap addr size prot = .ok uc') ↔ uc.Mappable addr size := by
  unfold memMap
  split_ifs with bad overlap
  · simp only [exists_false, false_iff]
    rintro ⟨size_ne, h₂, h₃, h₄, -⟩
    exact bad.elim size_ne fun bad => by omega
  · simp only [exists_false, false_iff]
    rintro ⟨h₁, h₂, h₃, h₄, h₅⟩
    obtain ⟨p, hp, mapped⟩ := List.any_eq_true.1 overlap
    obtain ⟨x, hx, rfl⟩ := exists_inRange_of_mem_pageSpan (by bv_omega) h₄ hp
    have free := h₅ x hx
    rw [protAt] at free
    simp [free] at mapped
  · simp only [Except.ok.injEq, exists_eq', true_iff]
    simp only [not_or, not_not, not_lt] at bad
    refine ⟨bad.1, bad.2.1, bad.2.2.1, bad.2.2.2, fun x hx => ?_⟩
    simp only [List.any_eq_true, not_exists, not_and, Option.not_isSome_iff_eq_none] at overlap
    exact overlap _ (mem_pageSpan_of_inRange hx)

theorem Mappable.of_memMap (h : uc.memMap addr size prot = .ok uc') : uc.Mappable addr size :=
  memMap_ok_iff.1 ⟨uc', h⟩

/-- The engine after a successful `memMap`. -/
theorem memMap_effect (h : uc.memMap addr size prot = .ok uc') :
    (∀ x, uc'.protAt x = if InRange addr size.toNat x then some prot else uc.protAt x) ∧
      (∀ x, uc'.bytes x = if InRange addr size.toNat x then 0 else uc.bytes x) ∧
      uc'.reg = uc.reg := by
  have range := Mappable.of_memMap h
  unfold memMap at h
  split_ifs at h
  cases h
  refine ⟨fun x => ?_, fun x => rfl, rfl⟩
  simp only [protAt, page_mem_pageSpan range.addr_aligned range.size_aligned]

theorem memUnmap_zero : uc.memUnmap addr 0 = .ok uc := by simp [memUnmap]

theorem memUnmap_ok_iff (hs : size ≠ 0) :
    (∃ uc', uc.memUnmap addr size = .ok uc') ↔ uc.Unmappable addr size := by
  unfold memUnmap
  rw [if_neg hs]
  split_ifs with bad partly
  · simp only [exists_false, false_iff]
    rintro ⟨-, h₂, h₃, -⟩
    omega
  · simp only [exists_false, false_iff]
    rintro ⟨-, -, -, mapped⟩
    rw [(spanMapped_iff ..).2 mapped] at partly
    cases partly
  · simp only [Except.ok.injEq, exists_eq', true_iff]
    simp only [not_or, not_not] at bad
    simp only [Bool.not_eq_false, spanMapped_iff] at partly
    exact ⟨hs, bad.1, bad.2, partly⟩

theorem Unmappable.of_memUnmap (h : uc.memUnmap addr size = .ok uc') (hs : size ≠ 0) :
    uc.Unmappable addr size :=
  (memUnmap_ok_iff hs).1 ⟨uc', h⟩

/-- The engine after a successful `memUnmap`. -/
theorem memUnmap_effect (h : uc.memUnmap addr size = .ok uc') :
    (∀ x, uc'.protAt x = if InRange addr size.toNat x then Option.none else uc.protAt x) ∧
      uc'.bytes = uc.bytes ∧ uc'.reg = uc.reg := by
  by_cases hs : size = 0
  · subst hs
    rw [memUnmap_zero] at h
    cases h
    refine ⟨fun x => ?_, rfl, rfl⟩
    rw [if_neg (by simp)]
  · have range := Unmappable.of_memUnmap h hs
    unfold memUnmap at h
    split_ifs at h
    cases h
    refine ⟨fun x => ?_, rfl, rfl⟩
    simp only [protAt, page_mem_pageSpan range.addr_aligned range.size_aligned]

theorem memProtect_zero : uc.memProtect addr 0 prot = .ok uc := by simp [memProtect]

theorem memProtect_ok_iff (hs : size ≠ 0) :
    (∃ uc', uc.memProtect addr size prot = .ok uc') ↔ uc.Unmappable addr size := by
  rw [← memUnmap_ok_iff hs]
  unfold memProtect memUnmap
  split_ifs <;> simp

theorem Unmappable.of_memProtect (h : uc.memProtect addr size prot = .ok uc') (hs : size ≠ 0) :
    uc.Unmappable addr size :=
  (memProtect_ok_iff hs).1 ⟨uc', h⟩

/-- The engine after a successful `memProtect`. -/
theorem memProtect_effect (h : uc.memProtect addr size prot = .ok uc') :
    (∀ x, uc'.protAt x = if InRange addr size.toNat x then some prot else uc.protAt x) ∧
      uc'.bytes = uc.bytes ∧ uc'.reg = uc.reg := by
  by_cases hs : size = 0
  · subst hs
    rw [memProtect_zero] at h
    cases h
    refine ⟨fun x => ?_, rfl, rfl⟩
    rw [if_neg (by simp)]
  · have range := Unmappable.of_memProtect h hs
    unfold memProtect at h
    split_ifs at h
    cases h
    refine ⟨fun x => ?_, rfl, rfl⟩
    simp only [protAt, page_mem_pageSpan range.addr_aligned range.size_aligned]

theorem memWrite_ok_iff {data : List U8} :
    (∃ uc', uc.memWrite addr data = .ok uc') ↔ uc.Mapped addr data.length := by
  unfold memWrite
  rw [← spanMapped_iff]
  split_ifs with h <;> simp [h]

/-- The engine after a successful `memWrite`. -/
theorem memWrite_effect {data : List U8} (h : uc.memWrite addr data = .ok uc') :
    uc'.pages = uc.pages ∧ uc'.reg = uc.reg ∧ ∀ x, uc'.bytes x =
      if InRange addr data.length x then data.getD (x.toNat - addr.toNat) 0 else uc.bytes x := by
  unfold memWrite at h
  split_ifs at h
  cases h
  exact ⟨rfl, rfl, fun _ => rfl⟩

theorem memRead_ok_iff {n : ℕ} {data : List U8} :
    uc.memRead addr n = .ok data ↔ uc.Mapped addr n ∧ data = uc.contents addr n := by
  unfold memRead
  rw [← spanMapped_iff]
  split_ifs with h <;> simp [h, eq_comm]

@[simp] theorem length_contents {n : ℕ} : (uc.contents addr n).length = n := by simp [contents]

/-- The bytes read are those of the addresses of the range. -/
theorem getD_contents {n : ℕ} {x : U64} (hx : InRange addr n x) :
    (uc.contents addr n).getD (x.toNat - addr.toNat) 0 = uc.bytes x := by
  unfold InRange at hx
  have hi : x.toNat - addr.toNat < n := by omega
  have hxa : addr + BitVec.ofNat 64 (x.toNat - addr.toNat) = x := by
    apply BitVec.eq_of_toNat_eq
    rw [BitVec.toNat_add, BitVec.toNat_ofNat]
    omega
  simp [contents, List.getD_eq_getElem?_getD, hi, hxa]

/-- Equal bytes on a range that does not wrap are equal contents. -/
theorem contents_eq_iff {n : ℕ} {data : List U8} (bound : addr.toNat + n ≤ 2 ^ 64)
    (length : data.length = n) : uc.contents addr n = data ↔
      ∀ x, InRange addr n x → uc.bytes x = data.getD (x.toNat - addr.toNat) 0 := by
  constructor
  · rintro rfl x hx
    exact (getD_contents hx).symm
  · intro same
    refine List.ext_getElem (by rw [length_contents, length]) fun i hi _ => ?_
    rw [length_contents] at hi
    have number : (addr + BitVec.ofNat 64 i).toNat = addr.toNat + i := by
      rw [BitVec.toNat_add, BitVec.toNat_ofNat]
      omega
    have here := same (addr + BitVec.ofNat 64 i) (by unfold InRange; omega)
    rw [number, Nat.add_sub_cancel_left] at here
    simp [contents, here, List.getD_eq_getElem?_getD, length, hi]

/-- What has been written is read back. -/
theorem contents_of_memWrite {data : List U8} (h : uc.memWrite addr data = .ok uc') :
    uc'.contents addr data.length = data := by
  have mapped := memWrite_ok_iff.1 ⟨uc', h⟩
  refine (contents_eq_iff mapped.1 rfl).2 fun x hx => ?_
  rw [(memWrite_effect h).2.2, if_pos hx]

/-- What lies outside the range written is read as before. -/
theorem contents_of_memWrite_of_disjoint {a : U64} {n : ℕ} {data : List U8}
    (h : uc.memWrite addr data = .ok uc') (bound : a.toNat + n ≤ 2 ^ 64)
    (apart : ∀ x, InRange a n x → ¬ InRange addr data.length x) :
    uc'.contents a n = uc.contents a n := by
  refine (contents_eq_iff bound length_contents).2 fun x hx => ?_
  rw [(memWrite_effect h).2.2, if_neg (apart x hx), getD_contents hx]

end Unicorn

end ValkyrieRs
