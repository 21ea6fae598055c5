import ValkyrieRs.Proof.ThreadAreas

/-!
# Segment descriptors

What `sys_set_thread_area` writes to the GDT, read as an x86 segment descriptor, says what the
guest's `user_desc` says.
-/

namespace ValkyrieRs

open Proc

/-- The fields of a segment descriptor.  The type is split into the accessed bit, the bit that makes
data writable or code readable, and the two bits that tell data, expand-down data and code apart. -/
structure SegmentDescriptor where
  base : U32
  limit : U32
  accessed : Bool
  writable : Bool
  contents : U32
  s : Bool
  dpl : BitVec 2
  p : Bool
  avl : Bool
  l : Bool
  db : Bool
  g : Bool
deriving DecidableEq

/-- The descriptor in memory. -/
def SegmentDescriptor.decode (d : List U8) : SegmentDescriptor where
  base := d.getD 7 0 ++ d.getD 4 0 ++ d.getD 3 0 ++ d.getD 2 0
  limit := ((d.getD 6 0).extractLsb' 0 4 ++ d.getD 1 0 ++ d.getD 0 0).setWidth 32
  accessed := (d.getD 5 0).getLsbD 0
  writable := (d.getD 5 0).getLsbD 1
  contents := ((d.getD 5 0).extractLsb' 2 2).setWidth 32
  s := (d.getD 5 0).getLsbD 4
  dpl := (d.getD 5 0).extractLsb' 5 2
  p := (d.getD 5 0).getLsbD 7
  avl := (d.getD 6 0).getLsbD 4
  l := (d.getD 6 0).getLsbD 5
  db := (d.getD 6 0).getLsbD 6
  g := (d.getD 6 0).getLsbD 7

/-- The segment that the sixteen bytes of a `user_desc` ask for, a data or code segment of the user: the
base is the word at 4, the limit the word at 8, and the flags are bits of the byte at 12. -/
def SegmentDescriptor.asked (b : List U8) : SegmentDescriptor where
  base := b.getD 7 0 ++ b.getD 6 0 ++ b.getD 5 0 ++ b.getD 4 0
  limit := b.getD 11 0 ++ b.getD 10 0 ++ b.getD 9 0 ++ b.getD 8 0
  accessed := false
  writable := !(b.getD 12 0).getLsbD 3
  contents := ((b.getD 12 0).extractLsb' 1 2).setWidth 32
  s := true
  dpl := 3
  p := !(b.getD 12 0).getLsbD 5
  avl := (b.getD 12 0).getLsbD 6
  l := false
  db := (b.getD 12 0).getLsbD 0
  g := (b.getD 12 0).getLsbD 4

namespace UserDesc

/-- The segment in the words of the handler. -/
def segment (desc : UserDesc) : SegmentDescriptor where
  base := desc.baseAddr
  limit := desc.limit
  accessed := false
  writable := !desc.readExecOnly
  contents := desc.contents
  s := true
  dpl := 3
  p := !desc.segNotPresent
  avl := desc.useable
  l := false
  db := desc.seg32bit
  g := desc.limitInPages

/-- The handler's words are the bytes of the guest. -/
theorem segment_ofBytes {b : List U8} (long : b.length = 16) :
    (ofBytes b).segment = .asked b := by
  have base : (ofBytes b).baseAddr = _ := word_eq (by omega)
  have limit : (ofBytes b).limit = _ := word_eq (by omega)
  have seg : (ofBytes b).seg32bit = (b.getD 12 0).getLsbD 0 := flag_eq long (i := 0) (by decide)
  rw [segment, SegmentDescriptor.asked, base, limit, seg, contents_eq long, readExecOnly, limitInPages,
    segNotPresent, useable, flag_eq long (by decide), flag_eq long (by decide),
    flag_eq long (by decide), flag_eq long (by decide)]

/-- `sys_set_thread_area` accepts the descriptor as one that is not empty. -/
structure Accepted (desc : UserDesc) : Prop where
  limit : desc.limit ≤ 0x000f_ffff
  contents : desc.contents ≠ 3
  filled : ¬ desc.isEmpty

end UserDesc

/-! ## Base and limit -/

theorem setWidth_ushiftRight (x : U32) (s : ℕ) : (x >>> s).setWidth 8 = x.extractLsb' s 8 := by
  ext i hi
  simp

theorem append_base (x : U32) : (x >>> 24).setWidth 8 ++ (x >>> 16).setWidth 8 ++
    (x >>> 8).setWidth 8 ++ x.setWidth 8 = x := by
  have low : x.setWidth 8 = x.extractLsb' 0 8 := BitVec.setWidth_eq_extractLsb' (by decide)
  have two : x.extractLsb' 24 8 ++ x.extractLsb' 16 8 = x.extractLsb' 16 16 :=
    BitVec.extractLsb'_append_extractLsb'_eq_extractLsb' rfl
  have three : x.extractLsb' 16 16 ++ x.extractLsb' 8 8 = x.extractLsb' 8 24 :=
    BitVec.extractLsb'_append_extractLsb'_eq_extractLsb' rfl
  have four : x.extractLsb' 8 24 ++ x.extractLsb' 0 8 = x.extractLsb' 0 32 :=
    BitVec.extractLsb'_append_extractLsb'_eq_extractLsb' rfl
  rw [setWidth_ushiftRight, setWidth_ushiftRight, setWidth_ushiftRight, low, two, three, four]
  exact BitVec.extractLsb'_eq_self

/-- The nibbles of the limit and of the flags share a byte. -/
theorem getLsbD_nibbles (x : U32) (flags : U8) (i : ℕ) (hi : i < 8) :
    (((x >>> 16) &&& 0x0f).setWidth 8 ||| ((flags &&& 0x0f) <<< 4)).getLsbD i =
      if i < 4 then x.getLsbD (16 + i) else flags.getLsbD (i - 4) := by
  have mask : ∀ i : Fin 8, (15 : U32).getLsbD i = decide (i.val < 4) := by decide
  have mask' : ∀ i : Fin 8, (15 : U8).getLsbD i = decide (i.val < 4) := by decide
  simp only [BitVec.getLsbD_or, BitVec.getLsbD_setWidth, BitVec.getLsbD_and,
    BitVec.getLsbD_shiftLeft, BitVec.getLsbD_ushiftRight, mask ⟨i, hi⟩, mask' ⟨i - 4, by omega⟩]
  by_cases low : i < 4
  · simp [hi, low]
  · have near : i - 4 < 4 := by omega
    simp [hi, low, near]

theorem extractLsb'_nibbles (x : U32) (flags : U8) :
    (((x >>> 16) &&& 0x0f).setWidth 8 ||| ((flags &&& 0x0f) <<< 4)).extractLsb' 0 4 =
      x.extractLsb' 16 4 := by
  apply BitVec.eq_of_getLsbD_eq
  intro i hi
  rw [BitVec.getLsbD_extractLsb', BitVec.getLsbD_extractLsb', Nat.zero_add,
    getLsbD_nibbles x flags i (by omega), if_pos hi]

theorem append_limit {x : U32} {flags : U8} (small : x ≤ 0x000f_ffff) :
    (((((x >>> 16) &&& 0x0f).setWidth 8 ||| ((flags &&& 0x0f) <<< 4)).extractLsb' 0 4 ++
      (x >>> 8).setWidth 8 ++ x.setWidth 8 : BitVec 20)).setWidth 32 = x := by
  have low : x.setWidth 8 = x.extractLsb' 0 8 := BitVec.setWidth_eq_extractLsb' (by decide)
  have two : x.extractLsb' 16 4 ++ x.extractLsb' 8 8 = x.extractLsb' 8 12 :=
    BitVec.extractLsb'_append_extractLsb'_eq_extractLsb' rfl
  have three : x.extractLsb' 8 12 ++ x.extractLsb' 0 8 = x.extractLsb' 0 20 :=
    BitVec.extractLsb'_append_extractLsb'_eq_extractLsb' rfl
  rw [extractLsb'_nibbles, setWidth_ushiftRight, low, two, three]
  apply BitVec.eq_of_toNat_eq
  rw [BitVec.toNat_setWidth, BitVec.extractLsb'_toNat]
  bv_omega

/-! ## Access byte and flags -/

/-- The access byte of a user's data or code segment. -/
theorem access_bits {desc : UserDesc} {access : U8}
    (encoded : userDescAccessByte desc = some access) :
    access.getLsbD 0 = false ∧ access.getLsbD 1 = !desc.readExecOnly ∧
      (access.extractLsb' 2 2).setWidth 32 = desc.contents ∧ access.getLsbD 4 = true ∧
      access.extractLsb' 5 2 = 3 ∧ access.getLsbD 7 = !desc.segNotPresent := by
  unfold userDescAccessByte at encoded
  dsimp only at encoded
  generalize desc.contents = c, desc.readExecOnly = fixed, desc.segNotPresent = absent at encoded ⊢
  by_cases data : c = 0
  · subst data
    cases fixed <;> cases absent <;> cases encoded <;> decide
  by_cases down : c = 1
  · subst down
    cases fixed <;> cases absent <;> cases encoded <;> decide
  by_cases code : c = 2
  · subst code
    cases fixed <;> cases absent <;> cases encoded <;> decide
  · rw [if_neg data, if_neg down, if_neg code] at encoded
    cases encoded

theorem flags_bits (desc : UserDesc) :
    (userDescFlags desc).getLsbD 0 = desc.useable ∧ (userDescFlags desc).getLsbD 1 = false ∧
      (userDescFlags desc).getLsbD 2 = desc.seg32bit ∧
      (userDescFlags desc).getLsbD 3 = desc.limitInPages := by
  unfold userDescFlags
  cases desc.useable <;> cases desc.seg32bit <;> cases desc.limitInPages <;> decide

/-- The descriptor says what the guest asks for. -/
theorem decode_descriptor {desc : UserDesc} (ok : desc.Accepted) :
    SegmentDescriptor.decode desc.descriptor = desc.segment := by
  obtain ⟨access, encoded⟩ := exists_userDescAccessByte ok.contents
  obtain ⟨accessed, writable, contents, s, dpl, p⟩ := access_bits encoded
  obtain ⟨avl, l, db, g⟩ := flags_bits desc
  have flag : ∀ i, 4 ≤ i → i < 8 →
      (((desc.limit >>> 16) &&& 0x0f).setWidth 8 |||
        ((userDescFlags desc &&& 0x0f) <<< 4)).getLsbD i =
      (userDescFlags desc).getLsbD (i - 4) := by
    intro i low hi
    rw [getLsbD_nibbles _ _ i hi, if_neg (by omega)]
  rw [UserDesc.descriptor, if_neg ok.filled, encoded, gdtDesc, SegmentDescriptor.decode,
    UserDesc.segment]
  simp only [List.getD_cons_zero, List.getD_cons_succ, Option.getD_some, append_base,
    append_limit ok.limit, accessed, writable, contents, s, dpl, p, flag, le_refl, avl, l, db, g,
    Nat.reduceLeDiff, Nat.reduceLT, Nat.reduceSub]

/-! ## What a call writes -/

variable {vk vk' : Valkyrie} {sctx : SubCtx}

theorem not_refused {e : U32} (nonzero : negErrno e ≠ 0) :
    ¬ (pure (negErrno e) : VkM U64).Ends vk (.ok 0) vk' := fun run =>
  nonzero (Except.ok.inj (ends_pure.1 run).1).symm

/-- A call that succeeds has passed the check of the architecture and of the limit. -/
theorem limit_of_sysSetThreadArea (run : (sysSetThreadArea sctx).Ends vk (.ok 0) vk') :
    vk.cfg.arch = .x86 ∧ (vk.userDesc sctx).limit ≤ 0x000f_ffff := by
  rw [sysSetThreadArea, ends_bind_get] at run
  by_cases arch : vk.cfg.arch ≠ .x86
  · rw [if_pos arch] at run
    exact absurd run (not_refused (by decide))
  refine ⟨not_not.1 arch, ?_⟩
  rw [if_neg arch] at run
  dsimp only at run
  by_cases null : sctx.arg0 = 0
  · rw [if_pos null] at run
    exact absurd run (not_refused (by decide))
  rw [if_neg null] at run
  rcases ends_bind_fromGuest run with ⟨-, run⟩ | ⟨-, e, failed, -⟩
  · by_contra long
    rw [if_pos (BitVec.not_le.1 long)] at run
    exact not_refused (by decide) run
  · cases failed

/-- What an accepted call writes to the GDT is the segment that the bytes of the guest ask for. -/
theorem decode_written (run : (sysSetThreadArea sctx).Ends vk (.ok 0) vk')
    (filled : ¬ vk.GivesBlank sctx) :
    ∃ n, vk.Offers sctx n ∧ SegmentDescriptor.decode (vk'.uc.contents (x86GdtEntryAddr vk n) 8) =
      .asked (vk.uc.contents sctx.arg0 16) := by
  obtain ⟨x86, limit⟩ := limit_of_sysSetThreadArea run
  rcases sysSetThreadArea_cases x86 run with ⟨-, negative, -⟩ | ⟨n, offers, known, uc, -, result⟩
  · exact absurd (negative 0 rfl) (by decide)
  rcases result with ⟨uc', installed, -, rfl⟩ | ⟨e, failed, -⟩
  · have written := Unicorn.contents_of_memWrite installed
    rw [UserDesc.length_descriptor] at written
    have asked : (vk.userDesc sctx).segment = .asked (vk.uc.contents sctx.arg0 16) :=
      UserDesc.segment_ofBytes (Unicorn.length_contents ..)
    refine ⟨n, offers, ?_⟩
    show SegmentDescriptor.decode (uc'.contents _ 8) = _
    rw [written, decode_descriptor ⟨limit, known, mt isEmpty_userDesc_iff.1 filled⟩, asked]
  · cases failed

/-- An accepted descriptor is written to the entry handed out as the segment that the bytes of the guest
ask for, and calls that ask for different segments write different bytes. -/
theorem user_desc_faithful (run : (sysSetThreadArea sctx).Ends vk (.ok 0) vk')
    (filled : ¬ vk.GivesBlank sctx) :
    ∃ n, vk.Offers sctx n ∧
      SegmentDescriptor.decode (vk'.uc.contents (x86GdtEntryAddr vk n) 8) =
        .asked (vk.uc.contents sctx.arg0 16) ∧
      ∀ s sctx' s', (sysSetThreadArea sctx').Ends s (.ok 0) s' → ¬ s.GivesBlank sctx' →
        SegmentDescriptor.asked (s.uc.contents sctx'.arg0 16) ≠
          .asked (vk.uc.contents sctx.arg0 16) →
        ∃ m, s.Offers sctx' m ∧ s'.uc.contents (x86GdtEntryAddr s m) 8 ≠
          vk'.uc.contents (x86GdtEntryAddr vk n) 8 := by
  obtain ⟨n, offers, decoded⟩ := decode_written run filled
  refine ⟨n, offers, decoded, fun s sctx' s' run' filled' other => ?_⟩
  obtain ⟨m, offers', decoded'⟩ := decode_written run' filled'
  refine ⟨m, offers', fun same => other ?_⟩
  rw [← decoded', same, decoded]

/-- A segment at `0x12345678` of `0xabcdf` pages, and one at zero of all pages. -/
theorem user_desc_faithful_tlsGuest : ∃ vk₁ vk₂ n m,
    (sysSetThreadArea (setThreadAreaCall 0x2000)).Ends tlsGuest (.ok 0) vk₁ ∧
    (sysSetThreadArea (setThreadAreaCall 0x2010)).Ends tlsGuest (.ok 0) vk₂ ∧
    SegmentDescriptor.decode (vk₁.uc.contents (x86GdtEntryAddr tlsGuest n) 8) =
      ⟨0x12345678, 0xabcde, false, true, 0, true, 3, true, true, false, true, true⟩ ∧
    vk₂.uc.contents (x86GdtEntryAddr tlsGuest m) 8 ≠
      vk₁.uc.contents (x86GdtEntryAddr tlsGuest n) 8 := by
  have first : (sysSetThreadArea (setThreadAreaCall 0x2000)).Ends tlsGuest (.ok 0) _ :=
    ends_final (by decide +kernel)
  have second : (sysSetThreadArea (setThreadAreaCall 0x2010)).Ends tlsGuest (.ok 0) _ :=
    ends_final (by decide +kernel)
  have asked : SegmentDescriptor.asked (tlsGuest.uc.contents 0x2000 16) =
      ⟨0x12345678, 0xabcde, false, true, 0, true, 3, true, true, false, true, true⟩ := by
    decide +kernel
  obtain ⟨n, -, decoded, others⟩ := user_desc_faithful first (by decide +kernel)
  obtain ⟨m, -, differs⟩ := others _ _ _ second (by decide +kernel) (by decide +kernel)
  exact ⟨_, _, n, m, first, second, decoded.trans asked, differs⟩

end ValkyrieRs
