import ValkyrieRs.Lib.Trace
import ValkyrieRs.Syscall.Thread

/-!
# Thread areas

The three entries of the GDT that `sys_set_thread_area` hands out.  An entry is in use when its bytes
are not all zero, and the access byte of a descriptor is never zero; so what is handed out stays in
use until a call with an empty descriptor clears it.
-/

namespace ValkyrieRs

open Proc

variable {vk vk' : Valkyrie} {uc uc' : Unicorn} {sctx : SubCtx} {r : Except ValkyrieError U64}
  {n m : U32} {i : ℕ}

/-! ## The GDT -/

/-- Byte `i` of the GDT. -/
def Valkyrie.gdtByte (vk : Valkyrie) (i : ℕ) : U8 := vk.uc.bytes (x86GdtAddr vk + BitVec.ofNat 64 i)

/-- The buffer lies outside the page of the GDT. -/
def Valkyrie.OutsideGdt (vk : Valkyrie) (addr : U64) (len : ℕ) : Prop :=
  ∀ i < 4096, ¬ InRange addr len (x86GdtAddr vk + BitVec.ofNat 64 i)

/-- The entry can be read and has a byte that is not zero. -/
def Valkyrie.EntryUsed (vk : Valkyrie) (n : U32) : Prop :=
  vk.uc.Mapped (x86GdtEntryAddr vk n) 8 ∧ ∃ i < 8, vk.gdtByte (8 * n.toNat + i) ≠ 0

/-- The entry can be read and all its bytes are zero. -/
def Valkyrie.EntryFree (vk : Valkyrie) (n : U32) : Prop :=
  vk.uc.Mapped (x86GdtEntryAddr vk n) 8 ∧ ∀ i < 8, vk.gdtByte (8 * n.toNat + i) = 0

theorem Valkyrie.EntryFree.not_used (free : vk.EntryFree n) : ¬ vk.EntryUsed n := by
  rintro ⟨-, i, hi, nonzero⟩
  exact nonzero (free.2 i hi)

theorem mem_tlsEntries : n ∈ tlsEntries ↔ x86GdtEntryTlsMin ≤ n ∧ n ≤ x86GdtEntryTlsMax := by
  simp only [tlsEntries, List.mem_cons, List.not_mem_nil, or_false, x86GdtEntryTlsMin,
    x86GdtEntryTlsMax, x86GdtEntryTlsEntries]
  bv_omega

theorem toNat_of_mem_tlsEntries (mem : n ∈ tlsEntries) : 6 ≤ n.toNat ∧ n.toNat ≤ 8 :=
  mem_tlsEntries.1 mem

theorem tlsEntries_pairwise : tlsEntries.Pairwise (· < ·) := by decide

theorem toNat_entryAddr : (x86GdtEntryAddr vk n).toNat =
    ((x86GdtAddr vk).toNat + 8 * n.toNat) % 2 ^ 64 := by
  have small := n.isLt
  have eight : (8 : U64).toNat = 8 := rfl
  simp only [x86GdtEntryAddr, BitVec.toNat_add, BitVec.toNat_mul, BitVec.toNat_setWidth, eight]
  omega

theorem entryAddr_add : x86GdtEntryAddr vk n + BitVec.ofNat 64 i =
    x86GdtAddr vk + BitVec.ofNat 64 (8 * n.toNat + i) := by
  apply BitVec.eq_of_toNat_eq
  rw [BitVec.toNat_add, BitVec.toNat_add, toNat_entryAddr, BitVec.toNat_ofNat, BitVec.toNat_ofNat]
  omega

/-- The bytes of an entry, as they are read. -/
theorem all_contents_entry : (vk.uc.contents (x86GdtEntryAddr vk n) 8).all (· == 0) ↔
    ∀ i < 8, vk.gdtByte (8 * n.toNat + i) = 0 := by
  simp only [Unicorn.contents, List.all_map, List.all_eq_true, List.mem_range, Function.comp_apply,
    beq_iff_eq, entryAddr_add, Valkyrie.gdtByte]

/-- A byte of the GDT lies in an entry by its number. -/
theorem inRange_entry (bound : (x86GdtEntryAddr vk n).toNat + 8 ≤ 2 ^ 64) (mem : n ∈ tlsEntries)
    (hi : i < 4096) :
    InRange (x86GdtEntryAddr vk n) 8 (x86GdtAddr vk + BitVec.ofNat 64 i) ↔ i / 8 = n.toNat := by
  have range := toNat_of_mem_tlsEntries mem
  rw [toNat_entryAddr] at bound
  rw [InRange, toNat_entryAddr, BitVec.toNat_add, BitVec.toNat_ofNat]
  omega

/-! ## Descriptors -/

/-- What a call installs for a descriptor. -/
def UserDesc.descriptor (desc : UserDesc) : List U8 :=
  if desc.isEmpty then List.replicate 8 0
  else gdtDesc desc.baseAddr desc.limit ((userDescAccessByte desc).getD 0) (userDescFlags desc)

theorem UserDesc.length_descriptor (desc : UserDesc) : desc.descriptor.length = 8 := by
  unfold descriptor gdtDesc
  split_ifs <;> rfl

/-- The access byte of a descriptor is never zero. -/
theorem userDescAccessByte_ne_zero {desc : UserDesc} {access : U8}
    (encoded : userDescAccessByte desc = some access) : access ≠ 0 := by
  unfold userDescAccessByte at encoded
  dsimp only at encoded
  split_ifs at encoded <;> cases encoded <;> decide

theorem UserDesc.contents_lt (desc : UserDesc) : desc.contents.toNat < 4 := by
  rw [UserDesc.contents, BitVec.toNat_and]
  exact Nat.and_lt_two_pow _ (n := 2) (by decide)

/-- Each content but the reserved one has an access byte. -/
theorem exists_userDescAccessByte {desc : UserDesc} (known : desc.contents ≠ 3) :
    ∃ access, userDescAccessByte desc = some access := by
  have small := desc.contents_lt
  have cases_ : desc.contents = 0 ∨ desc.contents = 1 ∨ desc.contents = 2 := by bv_omega
  unfold userDescAccessByte
  rcases cases_ with code | code | code
  · exact ⟨_, by rw [if_pos code]; rfl⟩
  · exact ⟨_, by rw [if_neg (by rw [code]; decide), if_pos code]; rfl⟩
  · exact ⟨_, by rw [if_neg (by rw [code]; decide), if_neg (by rw [code]; decide), if_pos code]; rfl⟩

/-! ## `struct user_desc` -/

/-- Four bytes as a word. -/
theorem getLsbD_bytes (a b c d : U8) (i : ℕ) : (d ++ c ++ b ++ a).getLsbD i =
    if i < 8 then a.getLsbD i else if i < 16 then b.getLsbD (i - 8)
    else if i < 24 then c.getLsbD (i - 16) else d.getLsbD (i - 24) := by
  simp only [BitVec.getLsbD_append]
  grind

theorem toLeBytes_bytes (a b c d : U8) : toLeBytes 4 (d ++ c ++ b ++ a) = [a, b, c, d] := by
  have byte (k : ℕ) (x : U8)
      (same : ∀ i < 8, (d ++ c ++ b ++ a).getLsbD (8 * k + i) = x.getLsbD i) :
      ((d ++ c ++ b ++ a) >>> (8 * k)).setWidth 8 = x := by
    apply BitVec.eq_of_getLsbD_eq
    intro i hi
    rw [BitVec.getLsbD_setWidth, BitVec.getLsbD_ushiftRight, same i hi, decide_eq_true hi,
      Bool.true_and]
  have range : List.range 4 = [0, 1, 2, 3] := rfl
  simp only [toLeBytes, range, List.map_cons, List.map_nil]
  rw [byte 0 a fun i hi => ?_, byte 1 b fun i hi => ?_, byte 2 c fun i hi => ?_,
    byte 3 d fun i hi => ?_]
  all_goals
    rw [getLsbD_bytes]
    grind

namespace UserDesc

variable {b : List U8}

/-- The word at an offset has its lowest byte first. -/
theorem word_eq {o : ℕ} (long : o + 4 ≤ b.length) :
    word b o = b.getD (o + 3) 0 ++ b.getD (o + 2) 0 ++ b.getD (o + 1) 0 ++ b.getD o 0 := by
  have found (k : ℕ) (hk : k < 4) : b.getD (o + k) 0 = b[o + k] := by
    rw [List.getD_eq_getElem?_getD, List.getElem?_eq_getElem (by omega), Option.getD_some]
  have bytes : (b.drop o).take 4 =
      [b.getD o 0, b.getD (o + 1) 0, b.getD (o + 2) 0, b.getD (o + 3) 0] := by
    refine List.ext_getElem (by simp; omega) fun i hi small => ?_
    simp only [List.getElem_take, List.getElem_drop]
    have cases_ : i = 0 ∨ i = 1 ∨ i = 2 ∨ i = 3 := by
      simp only [List.length_cons, List.length_nil] at small
      omega
    rcases cases_ with rfl | rfl | rfl | rfl
    · exact (found 0 (by decide)).symm
    · exact (found 1 (by decide)).symm
    · exact (found 2 (by decide)).symm
    · exact (found 3 (by decide)).symm
  rw [word, bytes, ← toLeBytes_bytes, fromLeBytes_toLeBytes]
  simp

theorem and_one_bne_zero (x : U32) (i : ℕ) : (x >>> i &&& 1 != 0) = x.getLsbD i := by
  have one : (1 : U32) = 1#32 := rfl
  rw [one, BitVec.and_one_eq_setWidth_ofBool_getLsbD, BitVec.getLsbD_ushiftRight, Nat.add_zero]
  cases x.getLsbD i <;> rfl

/-- The low flags are the bits of the byte 12. -/
theorem getLsbD_flags (long : b.length = 16) {i : ℕ} (low : i < 8) :
    (ofBytes b).flags.getLsbD i = (b.getD 12 0).getLsbD i := by
  show (word b 12).getLsbD i = _
  rw [word_eq (by omega), getLsbD_bytes, if_pos low]

theorem flag_eq (long : b.length = 16) {i : ℕ} (low : i < 8) :
    ((ofBytes b).flags >>> i &&& 1 != 0) = (b.getD 12 0).getLsbD i := by
  rw [and_one_bne_zero, getLsbD_flags long low]

theorem contents_eq (long : b.length = 16) :
    (ofBytes b).contents = ((b.getD 12 0).extractLsb' 1 2).setWidth 32 := by
  have mask : ∀ i : Fin 32, (3 : U32).getLsbD i = decide (i.val < 2) := by decide
  apply BitVec.eq_of_getLsbD_eq
  intro i hi
  rw [contents, BitVec.getLsbD_and, BitVec.getLsbD_ushiftRight, mask ⟨i, hi⟩, BitVec.getLsbD_setWidth,
    BitVec.getLsbD_extractLsb']
  by_cases low : i < 2
  · rw [getLsbD_flags long (by omega)]
    simp [hi, low]
  · simp [low]

end UserDesc

/-- An empty `user_desc`: no base and no limit, and of the seven flags only those of a segment that
cannot be written and is not present. -/
def Blank (b : List U8) : Prop := (∀ i < 8, b.getD (4 + i) 0 = 0) ∧ b.getD 12 0 &&& 0x7f = 0x28

instance (b : List U8) : Decidable (Blank b) := inferInstanceAs (Decidable (_ ∧ _))

theorem bytes_eq_zero_iff {a b c d : U8} :
    d ++ c ++ b ++ a = (0 : U32) ↔ a = 0 ∧ b = 0 ∧ c = 0 ∧ d = 0 := by
  constructor
  · intro zero
    have bytes := toLeBytes_bytes a b c d
    have zeros : toLeBytes 4 (0 : U32) = [0, 0, 0, 0] := by decide
    rw [zero, zeros] at bytes
    cases bytes
    exact ⟨rfl, rfl, rfl, rfl⟩
  · rintro ⟨rfl, rfl, rfl, rfl⟩
    rfl

theorem UserDesc.isEmpty_ofBytes_iff {b : List U8} (long : b.length = 16) :
    (ofBytes b).isEmpty ↔ Blank b := by
  have flags : ∀ x : U8, (!x.getLsbD 0 && (x.extractLsb' 1 2).setWidth 32 == (0 : U32) &&
      x.getLsbD 3 && !x.getLsbD 4 && x.getLsbD 5 && !x.getLsbD 6) = true ↔
      x &&& 0x7f = 0x28 := by decide
  have words : (∀ i < 8, b.getD (4 + i) 0 = 0) ↔ (ofBytes b).baseAddr = 0 ∧ (ofBytes b).limit = 0 := by
    show _ ↔ word b 4 = 0 ∧ word b 8 = 0
    rw [word_eq (by omega), word_eq (by omega), bytes_eq_zero_iff, bytes_eq_zero_iff]
    constructor
    · intro all
      exact ⟨⟨all 0 (by decide), all 1 (by decide), all 2 (by decide), all 3 (by decide)⟩,
        all 4 (by decide), all 5 (by decide), all 6 (by decide), all 7 (by decide)⟩
    · rintro ⟨⟨h₀, h₁, h₂, h₃⟩, h₄, h₅, h₆, h₇⟩ i hi
      have cases_ : i = 0 ∨ i = 1 ∨ i = 2 ∨ i = 3 ∨ i = 4 ∨ i = 5 ∨ i = 6 ∨ i = 7 := by omega
      rcases cases_ with rfl | rfl | rfl | rfl | rfl | rfl | rfl | rfl <;> assumption
  have seg : (ofBytes b).seg32bit = (b.getD 12 0).getLsbD 0 := flag_eq long (i := 0) (by decide)
  rw [Blank, words, ← flags, isEmpty, seg, contents_eq long, readExecOnly, limitInPages,
    segNotPresent, useable, flag_eq long (by decide), flag_eq long (by decide),
    flag_eq long (by decide), flag_eq long (by decide)]
  simp only [Bool.and_eq_true, beq_iff_eq, and_assoc]

/-! ## What a call does -/

/-- The descriptor that the guest gives. -/
def Valkyrie.userDesc (vk : Valkyrie) (sctx : SubCtx) : UserDesc :=
  UserDesc.ofBytes (vk.uc.contents sctx.arg0 16)

/-- The descriptor that the guest gives is empty. -/
abbrev Valkyrie.GivesBlank (vk : Valkyrie) (sctx : SubCtx) : Prop :=
  Blank (vk.uc.contents sctx.arg0 16)

theorem isEmpty_userDesc_iff : (vk.userDesc sctx).isEmpty ↔ vk.GivesBlank sctx :=
  UserDesc.isEmpty_ofBytes_iff (Unicorn.length_contents ..)

/-- The guest asks for any entry, with a descriptor that can be read and passes the limit check. -/
structure Valkyrie.Allocates (vk : Valkyrie) (sctx : SubCtx) : Prop where
  given : sctx.arg0 ≠ 0
  readable : vk.uc.Mapped sctx.arg0 16
  any : (vk.userDesc sctx).entryNumber = BitVec.allOnes 32
  limit : (vk.userDesc sctx).limit ≤ 0x000f_ffff

/-- The guest asks for any entry and all are in use. -/
def Valkyrie.NoRoom (vk : Valkyrie) (sctx : SubCtx) : Prop :=
  vk.Allocates sctx ∧ ∀ n ∈ tlsEntries, vk.EntryUsed n

/-- The entry is the one asked for, or the lowest that is free. -/
structure Valkyrie.Offers (vk : Valkyrie) (sctx : SubCtx) (n : U32) : Prop where
  readable : vk.uc.Mapped sctx.arg0 16
  tls : n ∈ tlsEntries
  asked : (vk.userDesc sctx).entryNumber ≠ BitVec.allOnes 32 →
    n = (vk.userDesc sctx).entryNumber
  lowest : (vk.userDesc sctx).entryNumber = BitVec.allOnes 32 →
    vk.EntryFree n ∧ ∀ m ∈ tlsEntries, m < n → vk.EntryUsed m

/-- The search finds the lowest free entry, or finds all in use, or cannot read one. -/
theorem ends_findFreeIn {l : List U32} {r : Except ValkyrieError (Option U32)}
    (sorted : l.Pairwise (· < ·)) (run : (findFreeIn l).Ends vk r vk') : vk' = vk ∧
      ((∃ n ∈ l, r = .ok (some n) ∧ vk.EntryFree n ∧ ∀ m ∈ l, m < n → vk.EntryUsed m) ∨
        (r = .ok none ∧ ∀ n ∈ l, vk.EntryUsed n) ∨
        (∃ e, r = .error e ∧ ∃ n ∈ l, ¬ vk.EntryUsed n)) := by
  induction l with
  | nil =>
    obtain ⟨rfl, rfl⟩ := ends_pure.1 run
    exact ⟨rfl, .inr (.inl ⟨rfl, nofun⟩)⟩
  | cons n l ih =>
    rw [findFreeIn, ends_bind_get] at run
    obtain ⟨above, sorted⟩ := List.pairwise_cons.1 sorted
    rcases ends_bind.1 run with ⟨e, read, rfl⟩ | ⟨descriptor, t, read, run⟩
    · obtain ⟨-, read, rfl⟩ := ends_memRead.1 read
      refine ⟨rfl, .inr (.inr ⟨e, rfl, n, List.mem_cons_self, fun used => ?_⟩)⟩
      have fine := VMemory.read_ok_iff.2 ⟨by decide, Unicorn.memRead_ok_iff.2 ⟨used.1, rfl⟩⟩
      rw [fine] at read
      cases read
    · obtain ⟨-, read, rfl⟩ := ends_memRead.1 read
      obtain ⟨mapped, rfl⟩ := Unicorn.memRead_ok_iff.1 (VMemory.read_ok_iff.1 read.symm).2
      split_ifs at run with zeros
      · obtain ⟨rfl, rfl⟩ := ends_pure.1 run
        refine ⟨rfl, .inl ⟨n, List.mem_cons_self, rfl, ⟨mapped, all_contents_entry.1 zeros⟩, ?_⟩⟩
        intro m mem below
        rcases List.mem_cons.1 mem with rfl | mem
        · exact absurd below (BitVec.lt_irrefl _)
        · exact absurd (above m mem) (BitVec.not_lt.2 (BitVec.le_of_lt below))
      · have used : t.EntryUsed n := by
          rw [all_contents_entry] at zeros
          push Not at zeros
          exact ⟨mapped, zeros⟩
        obtain ⟨same, result⟩ := ih sorted run
        refine ⟨same, ?_⟩
        rcases result with ⟨k, mem, found, free, lower⟩ | ⟨found, all⟩ | ⟨e, failed, k, mem, not⟩
        · refine .inl ⟨k, List.mem_cons_of_mem _ mem, found, free, fun m hm below => ?_⟩
          rcases List.mem_cons.1 hm with rfl | hm
          · exact used
          · exact lower m hm below
        · exact .inr (.inl ⟨found, List.forall_mem_cons.2 ⟨used, all⟩⟩)
        · exact .inr (.inr ⟨e, failed, k, List.mem_cons_of_mem _ mem, not⟩)

/-- A run that begins with reading the descriptor. -/
theorem ends_bind_fromGuest {α : Type} {f : UserDesc → VkM α} {r : Except ValkyrieError α}
    (run : (UserDesc.fromGuest sctx.arg0 >>= f).Ends vk r vk') :
    (vk.uc.Mapped sctx.arg0 16 ∧ (f (vk.userDesc sctx)).Ends vk r vk') ∨
      ¬ vk.uc.Mapped sctx.arg0 16 ∧ ∃ e, r = .error e ∧ vk' = vk := by
  have := lawfulMonad (σ := Valkyrie) (ε := ValkyrieError)
  rw [UserDesc.fromGuest, bind_assoc, ends_bind_memRead] at run
  rcases run.2 with ⟨data, read, run⟩ | ⟨e, failed, rfl, rfl⟩
  · obtain ⟨mapped, rfl⟩ := Unicorn.memRead_ok_iff.1 (VMemory.read_ok_iff.1 read).2
    exact .inl ⟨mapped, run⟩
  · refine .inr ⟨fun mapped => ?_, e, rfl, rfl⟩
    rw [VMemory.read_ok_iff.2 ⟨by decide, Unicorn.memRead_ok_iff.2 ⟨mapped, rfl⟩⟩] at failed
    cases failed

/-- A run that begins with a store to the GDT. -/
theorem ends_bind_x86WriteGdtEntry {α : Type} {d : List U8} {f : Unit → VkM α}
    {r : Except ValkyrieError α} : (x86WriteGdtEntry n d >>= f).Ends vk r vk' ↔
      (∃ uc, VMemory.write vk.uc (x86GdtEntryAddr vk n) d = .ok uc ∧
        (f ()).Ends (vk.withUc uc) r vk') ∨
      (∃ e, VMemory.write vk.uc (x86GdtEntryAddr vk n) d = .error e ∧ r = .error e ∧ vk' = vk) := by
  have := lawfulMonad (σ := Valkyrie) (ε := ValkyrieError)
  rw [x86WriteGdtEntry, bind_assoc, ends_bind_get, ends_bind_memWrite]

/-- An entry is taken: its number is written back, and then the descriptor is installed unless the
GDT cannot be written. -/
def Valkyrie.Takes (vk : Valkyrie) (sctx : SubCtx) (n : U32) (r : Except ValkyrieError U64)
    (vk' : Valkyrie) : Prop :=
  (vk.userDesc sctx).contents ≠ 3 ∧ ∃ uc, vk.uc.memWrite sctx.arg0 (toLeBytes 4 n) = .ok uc ∧
    ((∃ uc', uc.memWrite (x86GdtEntryAddr vk n) (vk.userDesc sctx).descriptor = .ok uc' ∧
        r = .ok 0 ∧ vk' = vk.withUc uc') ∨
      ∃ e, r = .error e ∧ vk' = vk.withUc uc)

/-- What a call does with an entry that it may take. -/
theorem takeEntry_cases {desc : UserDesc} (given : vk.userDesc sctx = desc) (run : (do
      if ¬ (x86GdtEntryTlsMin ≤ n ∧ n ≤ x86GdtEntryTlsMax) then
        return negErrno EINVAL
      if desc.contents = 3 then
        return negErrno EINVAL
      let desc := { desc with entryNumber := n }
      desc.writeBackEntryNumber sctx.arg0
      if desc.isEmpty then
        x86WriteGdtEntry n (List.replicate 8 0)
        return 0
      match userDescAccessByte desc with
      | none => return negErrno EINVAL
      | some access =>
        x86WriteGdtEntry n (gdtDesc desc.baseAddr desc.limit access (userDescFlags desc))
        return 0 : VkM U64).Ends vk r vk') :
    (r = .ok (negErrno EINVAL) ∧ vk' = vk) ∨ (∃ e, r = .error e ∧ vk' = vk) ∨
      n ∈ tlsEntries ∧ vk.Takes sctx n r vk' := by
  subst given
  by_cases tls : x86GdtEntryTlsMin ≤ n ∧ n ≤ x86GdtEntryTlsMax
  · rw [if_neg (not_not.2 tls)] at run
    by_cases reserved : (vk.userDesc sctx).contents = 3
    · rw [if_pos reserved] at run
      exact .inl (ends_pure.1 run)
    rw [if_neg reserved] at run
    rcases ends_bind_memWrite.1 run with ⟨uc, written, run⟩ | ⟨e, -, failed, same⟩
    · refine .inr (.inr ⟨mem_tlsEntries.2 tls, reserved, uc, (VMemory.write_ok_iff.1 written).2, ?_⟩)
      have store : ∀ {d : List U8}, d = (vk.userDesc sctx).descriptor →
          (x86WriteGdtEntry n d >>= fun _ => pure 0 : VkM U64).Ends (vk.withUc uc) r vk' →
          (∃ uc', uc.memWrite (x86GdtEntryAddr vk n) (vk.userDesc sctx).descriptor = .ok uc' ∧
            r = .ok 0 ∧ vk' = vk.withUc uc') ∨ ∃ e, r = .error e ∧ vk' = vk.withUc uc := by
        rintro d rfl run
        rcases ends_bind_x86WriteGdtEntry.1 run with ⟨uc', installed, run⟩ | ⟨e, -, failed, same⟩
        · obtain ⟨value, same⟩ := ends_pure.1 run
          exact .inl ⟨uc', (VMemory.write_ok_iff.1 installed).2, value, same⟩
        · exact .inr ⟨e, failed, same⟩
      have blank : ({ vk.userDesc sctx with entryNumber := n } : UserDesc).isEmpty =
          (vk.userDesc sctx).isEmpty := rfl
      by_cases empty : (vk.userDesc sctx).isEmpty
      · rw [blank, if_pos empty] at run
        exact store (if_pos empty).symm run
      rw [blank, if_neg empty] at run
      obtain ⟨access, encoded⟩ := exists_userDescAccessByte reserved
      have here : userDescAccessByte { vk.userDesc sctx with entryNumber := n } = some access :=
        encoded
      simp only [here] at run
      refine store ?_ run
      rw [UserDesc.descriptor, if_neg empty, encoded]
      rfl
    · exact .inr (.inl ⟨e, failed, same⟩)
  · rw [if_pos tls] at run
    exact .inl (ends_pure.1 run)

/-- A call changes nothing, and what it returns is negative; or it takes an entry. -/
theorem sysSetThreadArea_cases (x86 : vk.cfg.arch = .x86)
    (run : (sysSetThreadArea sctx).Ends vk r vk') :
    (vk' = vk ∧ (∀ v, r = .ok v → v.toInt < 0) ∧ (r = .ok (negErrno ESRCH) ↔ vk.NoRoom sctx)) ∨
      ∃ n, vk.Offers sctx n ∧ vk.Takes sctx n r vk' := by
  have refused : ∀ {e : U32}, (negErrno e).toInt < 0 → negErrno e ≠ negErrno ESRCH →
      ¬ vk.NoRoom sctx → r = .ok (negErrno e) → (∀ v, r = .ok v → v.toInt < 0) ∧
        (r = .ok (negErrno ESRCH) ↔ vk.NoRoom sctx) := by
    rintro e negative other room rfl
    refine ⟨fun v same => ?_, iff_of_false (fun same => other (Except.ok.inj same)) room⟩
    rw [← Except.ok.inj same]
    exact negative
  have failed : (∃ e, r = .error e) → ¬ vk.NoRoom sctx → (∀ v, r = .ok v → v.toInt < 0) ∧
      (r = .ok (negErrno ESRCH) ↔ vk.NoRoom sctx) := by
    rintro ⟨e, rfl⟩ room
    exact ⟨nofun, iff_of_false nofun room⟩
  have conclude : ∀ n, (n ∈ tlsEntries → vk.Offers sctx n) → ¬ vk.NoRoom sctx →
      ((r = .ok (negErrno EINVAL) ∧ vk' = vk) ∨ (∃ e, r = .error e ∧ vk' = vk) ∨
        n ∈ tlsEntries ∧ vk.Takes sctx n r vk') →
      (vk' = vk ∧ (∀ v, r = .ok v → v.toInt < 0) ∧ (r = .ok (negErrno ESRCH) ↔ vk.NoRoom sctx)) ∨
        ∃ n, vk.Offers sctx n ∧ vk.Takes sctx n r vk' := by
    rintro n offers room (⟨value, same⟩ | ⟨e, error, same⟩ | ⟨tls, takes⟩)
    · exact .inl ⟨same, refused (by decide) (by decide) room value⟩
    · exact .inl ⟨same, failed ⟨e, error⟩ room⟩
    · exact .inr ⟨n, offers tls, takes⟩
  rw [sysSetThreadArea, ends_bind_get] at run
  simp only [x86, ne_eq, not_true_eq_false, if_false] at run
  by_cases null : sctx.arg0 = 0
  · rw [if_pos null] at run
    obtain ⟨value, same⟩ := ends_pure.1 run
    exact .inl ⟨same, refused (by decide) (by decide) (fun full => full.1.given null) value⟩
  rw [if_neg null] at run
  rcases ends_bind_fromGuest run with ⟨mapped, run⟩ | ⟨unmapped, e, error, same⟩
  · by_cases long : 0x000f_ffff < (vk.userDesc sctx).limit
    · rw [if_pos long] at run
      obtain ⟨value, same⟩ := ends_pure.1 run
      refine .inl ⟨same, refused (by decide) (by decide) (fun full => ?_) value⟩
      exact BitVec.not_lt.2 full.1.limit long
    rw [if_neg long] at run
    by_cases any : (vk.userDesc sctx).entryNumber = BitVec.allOnes 32
    · rw [if_pos any] at run
      rcases ends_bind.1 run with ⟨e, error, value⟩ | ⟨found, t, search, run⟩
      · obtain ⟨same, result⟩ := ends_findFreeIn tlsEntries_pairwise error
        rcases result with ⟨n, _, ⟨⟩, _⟩ | ⟨⟨⟩, _⟩ | ⟨_, _, n, mem, unused⟩
        exact .inl ⟨same, failed ⟨e, value⟩ fun full => unused (full.2 n mem)⟩
      · obtain ⟨rfl, result⟩ := ends_findFreeIn tlsEntries_pairwise search
        rcases result with ⟨n, tls, found_eq, free, lower⟩ | ⟨found_eq, used⟩ | ⟨_, ⟨⟩, _⟩
        · cases found_eq
          refine conclude n
            (fun tls => ⟨mapped, tls, fun other => absurd any other, fun _ => ⟨free, lower⟩⟩)
            (fun full => free.not_used (full.2 n tls)) (takeEntry_cases rfl run)
        · cases found_eq
          obtain ⟨value, same⟩ := ends_pure.1 run
          have full : t.NoRoom sctx := ⟨⟨null, mapped, any, BitVec.not_lt.1 long⟩, used⟩
          refine .inl ⟨same, fun v negative => ?_, iff_of_true value full⟩
          rw [value] at negative
          cases negative
          decide
    · rw [if_neg any, ends_bind_pure] at run
      exact conclude (vk.userDesc sctx).entryNumber
        (fun tls => ⟨mapped, tls, fun _ => rfl, fun all => absurd all any⟩)
        (fun full => any full.1.any) (takeEntry_cases rfl run)
  · exact .inl ⟨same, failed ⟨e, error⟩ fun full => unmapped full.1.readable⟩

/-! ## What a call has done -/

/-- The call has taken the entry and left it in use, or free if the descriptor is empty. -/
structure ThreadAreaTaken (sctx : SubCtx) (vk vk' : Valkyrie) (n : U32) : Prop where
  offers : vk.Offers sctx n
  written : (vk'.userDesc sctx).entryNumber = n
  kept : ∀ i < 4096, i / 8 ≠ n.toNat → vk'.gdtByte i = vk.gdtByte i
  filled : ¬ vk.GivesBlank sctx → vk'.EntryUsed n
  cleared : vk.GivesBlank sctx → vk'.EntryFree n

/-- What a call with a descriptor outside the GDT does, however it ends. -/
structure ThreadAreaDone (sctx : SubCtx) (vk : Valkyrie) (r : Except ValkyrieError U64)
    (vk' : Valkyrie) : Prop where
  returns : ∀ v, r = .ok v → v = 0 ∨ v.toInt < 0
  refused : ∀ v, r = .ok v → v.toInt < 0 → vk' = vk
  full : r = .ok (negErrno ESRCH) ↔ vk.NoRoom sctx
  taken : r = .ok 0 → ∃ n, ThreadAreaTaken sctx vk vk' n
  others : r ≠ .ok 0 → ∀ i < 4096, vk'.gdtByte i = vk.gdtByte i
  table : x86GdtAddr vk' = x86GdtAddr vk ∧ vk'.uc.pages = vk.uc.pages

/-- A store outside the GDT keeps it. -/
theorem gdtByte_of_outside {addr : U64} {data : List U8}
    (written : vk.uc.memWrite addr data = .ok uc) (outside : vk.OutsideGdt addr data.length)
    (hi : i < 4096) : (vk.withUc uc).gdtByte i = vk.gdtByte i :=
  ((Unicorn.memWrite_effect written).2.2 _).trans (if_neg (outside i hi))

/-- A store of a descriptor changes its entry. -/
theorem gdtByte_of_entry {data : List U8} (tls : n ∈ tlsEntries) (length : data.length = 8)
    (written : vk.uc.memWrite (x86GdtEntryAddr vk n) data = .ok uc) (hi : i < 4096) :
    (vk.withUc uc).gdtByte i =
      if i / 8 = n.toNat then data.getD (i % 8) 0 else vk.gdtByte i := by
  have mapped := Unicorn.memWrite_ok_iff.1 ⟨_, written⟩
  rw [length] at mapped
  have place := inRange_entry mapped.1 tls hi
  have byte := (Unicorn.memWrite_effect written).2.2 (x86GdtAddr vk + BitVec.ofNat 64 i)
  rw [length] at byte
  refine byte.trans ?_
  by_cases own : i / 8 = n.toNat
  · have inside := place.2 own
    rw [if_pos inside, if_pos own]
    congr 1
    have bound := mapped.1
    unfold InRange at inside
    rw [toNat_entryAddr, BitVec.toNat_add, BitVec.toNat_ofNat] at *
    omega
  · rw [if_neg fun h => own (place.1 h), if_neg own]
    rfl

/-- The number that has been written back is read again. -/
theorem entryNumber_of_written (written : vk.uc.memWrite sctx.arg0 (toLeBytes 4 n) = .ok uc) :
    ((vk.withUc uc).userDesc sctx).entryNumber = n := by
  have start : (uc.contents sctx.arg0 16).take 4 = uc.contents sctx.arg0 4 := rfl
  have read := Unicorn.contents_of_memWrite written
  rw [length_toLeBytes] at read
  show (fromLeBytes (((uc.contents sctx.arg0 16).drop 0).take 4)).setWidth 32 = n
  rw [List.drop_zero, start, read, fromLeBytes_toLeBytes]
  simp

/-- The descriptor is read as before when a store avoids its buffer. -/
theorem userDesc_of_apart {addr : U64} {data : List U8}
    (written : vk.uc.memWrite addr data = .ok uc) (bound : sctx.arg0.toNat + 16 ≤ 2 ^ 64)
    (apart : ∀ x, InRange sctx.arg0 16 x → ¬ InRange addr data.length x) :
    (vk.withUc uc).userDesc sctx = vk.userDesc sctx :=
  congrArg UserDesc.ofBytes (Unicorn.contents_of_memWrite_of_disjoint written bound apart)

/-- An entry lies in the page of the GDT. -/
theorem exists_of_inRange_entry {x : U64} (tls : n ∈ tlsEntries)
    (inside : InRange (x86GdtEntryAddr vk n) 8 x) :
    ∃ i < 4096, x = x86GdtAddr vk + BitVec.ofNat 64 i := by
  have range := toNat_of_mem_tlsEntries tls
  unfold InRange at inside
  refine ⟨8 * n.toNat + (x.toNat - (x86GdtEntryAddr vk n).toNat), by omega, ?_⟩
  rw [← entryAddr_add]
  apply BitVec.eq_of_toNat_eq
  rw [BitVec.toNat_add, BitVec.toNat_ofNat]
  omega

/-- The access byte of a descriptor that is not empty is not zero. -/
theorem UserDesc.descriptor_five {desc : UserDesc} (filled : ¬ desc.isEmpty)
    (known : desc.contents ≠ 3) : desc.descriptor.getD 5 0 ≠ 0 := by
  obtain ⟨access, encoded⟩ := exists_userDescAccessByte known
  rw [UserDesc.descriptor, if_neg filled, encoded]
  exact userDescAccessByte_ne_zero encoded

/-- What a call does. -/
theorem threadAreaDone (x86 : vk.cfg.arch = .x86) (outside : vk.OutsideGdt sctx.arg0 16)
    (run : (sysSetThreadArea sctx).Ends vk r vk') : ThreadAreaDone sctx vk r vk' := by
  rcases sysSetThreadArea_cases x86 run with
    ⟨rfl, negative, full⟩ | ⟨n, offers, known, uc, back, result⟩
  · refine ⟨fun v ok => .inr (negative v ok), fun _ _ _ => rfl, full, fun ok => ?_,
      fun _ _ _ => rfl, rfl, rfl⟩
    exact absurd (negative 0 ok) (by decide)
  have tls := offers.tls
  have range := toNat_of_mem_tlsEntries tls
  have room : ¬ vk.NoRoom sctx := fun full =>
    (offers.lowest full.1.any).1.not_used (full.2 n tls)
  have number : (toLeBytes 4 n).length = 4 := length_toLeBytes n
  have first : ∀ i < 4096, (vk.withUc uc).gdtByte i = vk.gdtByte i := fun i hi => by
    refine gdtByte_of_outside back (fun j hj inside => outside j hj ?_) hi
    rw [number] at inside
    unfold InRange at inside ⊢
    omega
  have pages := (Unicorn.memWrite_effect back).1
  rcases result with ⟨uc', installed, rfl, rfl⟩ | ⟨e, rfl, rfl⟩
  · have eight := (vk.userDesc sctx).length_descriptor
    have second : ∀ i < 4096, (vk.withUc uc').gdtByte i = _ := fun i hi =>
      @gdtByte_of_entry (vk.withUc uc) uc' n i _ tls eight installed hi
    have mapped := Unicorn.memWrite_ok_iff.1 ⟨_, installed⟩
    rw [eight] at mapped
    have pages' := (Unicorn.memWrite_effect installed).1
    have entry : ∀ i < 8, (vk.withUc uc').gdtByte (8 * n.toNat + i) =
        (vk.userDesc sctx).descriptor.getD i 0 := fun i hi => by
      rw [second _ (by omega), if_pos (by omega)]
      congr 1
      omega
    refine ⟨fun v ok => ?_, fun v ok negative => ?_, iff_of_false (by decide) room, fun _ => ?_,
      fun fail => absurd rfl fail, rfl, pages'.trans pages⟩
    · cases ok
      exact .inl rfl
    · cases ok
      exact absurd negative (by decide)
    refine ⟨n, offers, ?_, fun i hi other => ?_, fun filled => ?_, fun empty => ?_⟩
    · have apart : ∀ x, InRange sctx.arg0 16 x →
          ¬ InRange (x86GdtEntryAddr vk n) (vk.userDesc sctx).descriptor.length x := by
        intro x buffer inside
        rw [eight] at inside
        obtain ⟨i, hi, rfl⟩ := exists_of_inRange_entry tls inside
        exact outside i hi buffer
      have same := @userDesc_of_apart (vk.withUc uc) uc' sctx _ _ installed offers.readable.1 apart
      exact (congrArg UserDesc.entryNumber same).trans (entryNumber_of_written back)
    · rw [second i hi, if_neg other, first i hi]
    · refine ⟨mapped.of_pages pages', 5, by decide, ?_⟩
      rw [entry 5 (by decide)]
      exact UserDesc.descriptor_five (mt isEmpty_userDesc_iff.1 filled) known
    · refine ⟨mapped.of_pages pages', fun i hi => ?_⟩
      rw [entry i hi, UserDesc.descriptor, if_pos (isEmpty_userDesc_iff.2 empty)]
      rw [List.getD_eq_getElem?_getD, List.getElem?_replicate, if_pos hi]
      rfl
  · exact ⟨nofun, nofun, iff_of_false nofun room, nofun, fun _ => first, rfl, pages⟩

/-! ## Every run -/

/-- A call and how it ended. -/
abbrev ThreadAreaCall := SubCtx × Except ValkyrieError U64

/-- A call of `sys_set_thread_area` on x86 with a descriptor outside the GDT. -/
def SetThreadArea (step : Trace.Step Valkyrie ThreadAreaCall) : Prop :=
  step.before.cfg.arch = .x86 ∧ step.before.OutsideGdt step.call.1.arg0 16 ∧
    (sysSetThreadArea step.call.1).Ends step.before step.call.2 step.after

/-- A store of the guest outside the GDT. -/
inductive StoreOutsideGdt : Valkyrie → Valkyrie → Prop where
  | mk {vk : Valkyrie} {uc : Unicorn} (addr : U64) (data : List U8)
    (ok : vk.uc.memWrite addr data = .ok uc) (outside : vk.OutsideGdt addr data.length) :
    StoreOutsideGdt vk (vk.withUc uc)

/-- The call installs a descriptor that is not empty in the entry. -/
structure Installs (step : Trace.Step Valkyrie ThreadAreaCall) (n : U32) : Prop where
  accepted : step.call.2 = .ok 0
  filled : ¬ step.before.GivesBlank step.call.1
  entry : (step.after.userDesc step.call.1).entryNumber = n

/-- The call lets the emulator choose, and is given the entry. -/
structure HandsOut (step : Trace.Step Valkyrie ThreadAreaCall) (n : U32) : Prop where
  accepted : step.call.2 = .ok 0
  any : (step.before.userDesc step.call.1).entryNumber = BitVec.allOnes 32
  entry : (step.after.userDesc step.call.1).entryNumber = n

/-- The call gives an empty descriptor for the entry. -/
structure Clears (step : Trace.Step Valkyrie ThreadAreaCall) (n : U32) : Prop where
  accepted : step.call.2 = .ok 0
  empty : step.before.GivesBlank step.call.1
  entry : (step.before.userDesc step.call.1).entryNumber = n

variable {step : Trace.Step Valkyrie ThreadAreaCall}

theorem SetThreadArea.done (call : SetThreadArea step) :
    ThreadAreaDone step.call.1 step.before step.call.2 step.after :=
  threadAreaDone call.1 call.2.1 call.2.2

/-- What keeps the bytes of an entry keeps it in use. -/
theorem Valkyrie.EntryUsed.keep (used : vk.EntryUsed n) (tls : n ∈ tlsEntries)
    (table : x86GdtAddr vk' = x86GdtAddr vk ∧ vk'.uc.pages = vk.uc.pages)
    (same : ∀ i < 4096, i / 8 = n.toNat → vk'.gdtByte i = vk.gdtByte i) : vk'.EntryUsed n := by
  obtain ⟨mapped, i, hi, nonzero⟩ := used
  have range := toNat_of_mem_tlsEntries tls
  have addr : x86GdtEntryAddr vk' n = x86GdtEntryAddr vk n := by
    rw [x86GdtEntryAddr, x86GdtEntryAddr, table.1]
  refine ⟨addr ▸ mapped.of_pages table.2, i, hi, ?_⟩
  rwa [same _ (by omega) (by omega)]

/-- A call that does not clear an entry in use keeps it in use. -/
theorem SetThreadArea.keeps_used (call : SetThreadArea step) (tls : n ∈ tlsEntries)
    (unclear : ¬ Clears step n) (used : step.before.EntryUsed n) : step.after.EntryUsed n := by
  have done := call.done
  by_cases accepted : step.call.2 = .ok 0
  · obtain ⟨m, taken⟩ := done.taken accepted
    by_cases own : m = n
    · subst own
      by_cases empty : step.before.GivesBlank step.call.1
      · by_cases any : (step.before.userDesc step.call.1).entryNumber = BitVec.allOnes 32
        · exact absurd used (taken.offers.lowest any).1.not_used
        · exact absurd ⟨accepted, empty, (taken.offers.asked any).symm⟩ unclear
      · exact taken.filled empty
    · refine used.keep tls done.table fun i hi inside => taken.kept i hi fun other => own ?_
      exact BitVec.eq_of_toNat_eq (other.symm.trans inside)
  · exact used.keep tls done.table fun i hi _ => done.others accepted i hi

/-- A store outside the GDT changes none of it. -/
theorem StoreOutsideGdt.same (store : StoreOutsideGdt vk vk') :
    (x86GdtAddr vk' = x86GdtAddr vk ∧ vk'.uc.pages = vk.uc.pages) ∧
      ∀ i < 4096, vk'.gdtByte i = vk.gdtByte i := by
  obtain ⟨addr, data, written, outside⟩ := store
  exact ⟨⟨rfl, (Unicorn.memWrite_effect written).1⟩, fun i hi =>
    gdtByte_of_outside written outside hi⟩

/-- In every run of calls on x86 and of stores, all outside the GDT, each call does what it should
and changes the three entries only, and an entry that a descriptor was installed in is handed out
again only after a call has cleared it. -/
theorem thread_areas_of_run {steps : List (Trace.Step Valkyrie ThreadAreaCall)}
    (run : Trace SetThreadArea StoreOutsideGdt vk steps vk') :
    (∀ s ∈ steps, ThreadAreaDone s.call.1 s.before s.call.2 s.after) ∧
    (∀ i < 4096, (∀ n ∈ tlsEntries, i / 8 ≠ n.toNat) → vk'.gdtByte i = vk.gdtByte i) ∧
    ∀ past s between t rest n, steps = past ++ s :: (between ++ t :: rest) →
      Installs s n → HandsOut t n → ∃ u ∈ between, Clears u n := by
  refine ⟨fun s hs => (run.made s hs).done, fun i hi other => ?_, ?_⟩
  · refine (run.keeps (I := fun t => t.gdtByte i = vk.gdtByte i) rfl (fun s call here => ?_)
      fun t t' store here => (store.same.2 i hi).trans here).1
    have done := call.done
    refine Eq.trans ?_ here
    by_cases accepted : s.call.2 = .ok 0
    · obtain ⟨n, taken⟩ := done.taken accepted
      exact taken.kept i hi (other n taken.offers.tls)
    · exact done.others accepted i hi
  · rintro past s between t rest n rfl installs hands
    obtain ⟨-, made, after⟩ := run.split
    obtain ⟨between_, handed, -⟩ := after.split
    obtain ⟨m, taken⟩ := made.done.taken installs.accepted
    have own : m = n := taken.written.symm.trans installs.entry
    subst own
    by_contra unclear
    push Not at unclear
    have used := ((between_.restrict unclear).keeps (I := fun t => t.EntryUsed m)
      (taken.filled installs.filled)
      (fun u call used => call.1.keeps_used taken.offers.tls call.2 used)
      fun u u' store used => used.keep taken.offers.tls store.same.1
        fun i hi _ => store.same.2 i hi).1
    obtain ⟨k, given⟩ := handed.done.taken hands.accepted
    have same : k = m := given.written.symm.trans hands.entry
    subst same
    exact (given.offers.lowest hands.any).1.not_used used

/-- What the guest has stored: a 32-bit segment for any entry, another, an empty descriptor for the
entry 6, and a third segment for any entry. -/
def tlsGuestDescs : List U8 :=
  [0xff, 0xff, 0xff, 0xff, 0x78, 0x56, 0x34, 0x12, 0xde, 0xbc, 0x0a, 0, 0x51, 0, 0, 0] ++
  [0xff, 0xff, 0xff, 0xff, 0, 0, 0, 0, 0xff, 0xff, 0x0f, 0, 0x51, 0, 0, 0] ++
  [6, 0, 0, 0, 0, 0, 0, 0, 0, 0, 0, 0, 0x28, 0, 0, 0] ++
  [0xff, 0xff, 0xff, 0xff, 1, 0, 0, 0, 0xff, 0, 0, 0, 0x53, 0, 0, 0]

/-- An x86 guest with an empty GDT at `0x1000`, and the descriptors from `0x2000` on. -/
def tlsGuest : Valkyrie :=
  let vk := Valkyrie.ofMemory .x86
    ⟨[⟨0x1000, 0x1000, .all, "[tls]"⟩, ⟨0x2000, 0x1000, .all, "[stack]"⟩], 0, 0⟩
  { vk with
    uc := { vk.uc with
      bytes := fun x => if InRange 0x2000 64 x then tlsGuestDescs.getD (x.toNat - 0x2000) 0 else 0 }
    addrs := { vk.addrs with tlsAddrStart := 0x1000 } }

/-- `set_thread_area` of an address. -/
def setThreadAreaCall (addr : U64) : SubCtx := ⟨addr, 0, 0, 0, 0, 0⟩

/-- The state that `set_thread_area` leaves. -/
def Valkyrie.afterThreadArea (vk : Valkyrie) (addr : U64) : Valkyrie :=
  (sysSetThreadArea (setThreadAreaCall addr)).final vk

/-- The step of a call that succeeds. -/
def threadAreaStep (vk : Valkyrie) (addr : U64) : Trace.Step Valkyrie ThreadAreaCall :=
  ⟨vk, (setThreadAreaCall addr, .ok 0), vk.afterThreadArea addr⟩

/-- A run goes on with a call that succeeds, of a descriptor behind the page of the GDT. -/
theorem trace_threadAreaStep {addr : U64} {steps : List (Trace.Step Valkyrie ThreadAreaCall)}
    (run : Trace SetThreadArea StoreOutsideGdt vk steps vk')
    (table : vk'.cfg.arch = .x86 ∧ x86GdtAddr vk' = 0x1000) (behind : 0x2000 ≤ addr.toNat)
    (accepted : (sysSetThreadArea (setThreadAreaCall addr)).value vk' = some 0) :
    Trace SetThreadArea StoreOutsideGdt vk (steps ++ [threadAreaStep vk' addr])
      (vk'.afterThreadArea addr) := by
  refine .call (threadAreaStep vk' addr) run ⟨table.1, fun i hi inside => ?_, ends_final accepted⟩
  have low : addr.toNat ≤ (x86GdtAddr vk' + BitVec.ofNat 64 i).toNat := inside.1
  have gdt : (0x1000 : U64).toNat = 0x1000 := rfl
  rw [table.2, BitVec.toNat_add, BitVec.toNat_ofNat, gdt] at low
  omega

/-- The entry 6 is handed out, then 7; then 6 is cleared and handed out again. -/
theorem thread_areas_of_run_tlsGuest :
    ∃ s₁ s₂ s₃ s₄ : Trace.Step Valkyrie ThreadAreaCall, ∃ vk',
      Trace SetThreadArea StoreOutsideGdt tlsGuest [s₁, s₂, s₃, s₄] vk' ∧
      HandsOut s₁ 6 ∧ Installs s₁ 6 ∧ HandsOut s₂ 7 ∧ HandsOut s₄ 6 ∧
      (∀ s ∈ [s₁, s₂, s₃, s₄], ThreadAreaDone s.call.1 s.before s.call.2 s.after) ∧
      ∃ u ∈ [s₂, s₃], Clears u 6 := by
  let vk₁ := tlsGuest.afterThreadArea 0x2000
  let vk₂ := vk₁.afterThreadArea 0x2010
  let vk₃ := vk₂.afterThreadArea 0x2020
  let vk₄ := vk₃.afterThreadArea 0x2030
  have run₁ := @trace_threadAreaStep tlsGuest tlsGuest 0x2000 _ .start ⟨rfl, rfl⟩ (by decide)
    (by decide +kernel)
  have run₂ := @trace_threadAreaStep _ vk₁ 0x2010 _ run₁ (by decide +kernel) (by decide)
    (by decide +kernel)
  have run₃ := @trace_threadAreaStep _ vk₂ 0x2020 _ run₂ (by decide +kernel) (by decide)
    (by decide +kernel)
  have run₄ := @trace_threadAreaStep _ vk₃ 0x2030 _ run₃ (by decide +kernel) (by decide)
    (by decide +kernel)
  have installs : Installs (threadAreaStep tlsGuest 0x2000) 6 :=
    ⟨rfl, by decide +kernel, by decide +kernel⟩
  have first : HandsOut (threadAreaStep tlsGuest 0x2000) 6 :=
    ⟨rfl, by decide +kernel, by decide +kernel⟩
  have second : HandsOut (threadAreaStep vk₁ 0x2010) 7 :=
    ⟨rfl, by decide +kernel, by decide +kernel⟩
  have again : HandsOut (threadAreaStep vk₃ 0x2030) 6 :=
    ⟨rfl, by decide +kernel, by decide +kernel⟩
  obtain ⟨all, -, cleared⟩ := thread_areas_of_run run₄
  exact ⟨_, _, _, _, _, run₄, first, installs, second, again, all,
    cleared [] _ [_, _] _ [] 6 rfl installs again⟩

end ValkyrieRs
