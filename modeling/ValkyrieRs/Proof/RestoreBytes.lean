import ValkyrieRs.Proof.RestoreExact

/-!
# Which bytes a restore brings back

The snapshot holds the bytes of the regions recorded as writable.  The restore writes those back;
any other mapped byte of the snapshot is what it was before the restore, or zero where the page had
to be mapped again.
-/

namespace ValkyrieRs

open Proc

variable {vk vk' vk₀ vk₁ : Valkyrie} {start size x : U64} {prot : Prot} {data : List U8}
  {snapshot : EmulatorSnapshot} {regions : List VMemRegion} {r s : VMemRegion}

/-! ## Capturing -/

/-- The same memory, except for the protections of mapped pages. -/
structure SameMemory (vk vk' : Valkyrie) : Prop where
  mem : vk'.mem = vk.mem
  bytes : vk'.uc.bytes = vk.uc.bytes

theorem SameMemory.refl (vk : Valkyrie) : SameMemory vk vk := ⟨rfl, rfl⟩

theorem SameMemory.trans {vk'' : Valkyrie} (h : SameMemory vk vk') (h' : SameMemory vk' vk'') :
    SameMemory vk vk'' :=
  ⟨h'.mem.trans h.mem, h'.bytes.trans h.bytes⟩

theorem ends_memProtect_ok {text : String} (ends : (ucCheck text fun uc =>
    uc.memProtect start size prot).Ends vk (.ok ()) vk') : SameMemory vk vk' := by
  obtain ⟨uc, ok, rfl⟩ := ends_ucCheck_ok.1 ends
  exact ⟨rfl, (Unicorn.memProtect_effect ok).2.1⟩

/-- Reading a region for the snapshot gives its bytes and changes none. -/
theorem ends_readRegionSnapshot_ok
    (ends : (readRegionSnapshot start size prot).Ends vk (.ok data) vk') :
    data = vk.uc.contents start size.toNat ∧ SameMemory vk vk' := by
  unfold readRegionSnapshot at ends
  split_ifs at ends with readable
  · obtain ⟨-, ok, rfl⟩ := ends_memRead.1 ends
    obtain ⟨-, ok⟩ := VMemory.read_ok_iff.1 ok.symm
    exact ⟨(Unicorn.memRead_ok_iff.1 ok).2, .refl _⟩
  · obtain ⟨_, vk₁, first, ends⟩ := ends_bind_ok.1 ends
    obtain ⟨_, vk₂, read, ends⟩ := ends_bind_attempt.1 ends
    obtain ⟨_, vk₃, last, ends⟩ := ends_bind_ok.1 ends
    obtain ⟨rfl, rfl⟩ := ends_ofExcept.1 ends
    obtain ⟨-, ok, rfl⟩ := ends_memRead.1 read
    obtain ⟨-, ok⟩ := VMemory.read_ok_iff.1 ok.symm
    have before := ends_memProtect_ok first
    have same := before.trans (ends_memProtect_ok last)
    refine ⟨(Unicorn.memRead_ok_iff.1 ok).2.trans ?_, same⟩
    rw [Unicorn.contents, before.bytes]
    rfl

/-- The saved contents of a region. -/
def VMemRegion.saved (uc : Unicorn) (r : VMemRegion) : WritableRegionSnapshot :=
  ⟨r.start, uc.contents r.start r.size.toNat⟩

theorem ends_saveRegions {saved : List WritableRegionSnapshot}
    (ends : (regions.mapM fun region : VMemRegion => do
      let data ← readRegionSnapshot region.start region.size region.prot
      pure (⟨region.start, data⟩ : WritableRegionSnapshot)).Ends vk (.ok saved) vk') :
    saved = regions.map (VMemRegion.saved vk.uc) ∧ SameMemory vk vk' := by
  induction regions generalizing vk saved with
  | nil =>
    obtain ⟨ok, rfl⟩ := ends_mapM_nil.1 ends
    exact ⟨Except.ok.inj ok, .refl _⟩
  | cons r regions ih =>
    obtain ⟨_, vk₁, first, rest, loop, rfl⟩ := ends_mapM_cons_ok.1 ends
    obtain ⟨data, vk₂, read, last⟩ := ends_bind_ok.1 first
    obtain ⟨ok, rfl⟩ := ends_pure.1 last
    obtain rfl := Except.ok.inj ok
    obtain ⟨rfl, same⟩ := ends_readRegionSnapshot_ok read
    obtain ⟨rfl, same'⟩ := ih loop
    refine ⟨?_, same.trans same'⟩
    have bytes : VMemRegion.saved vk₁.uc = VMemRegion.saved vk.uc := by
      funext r
      simp only [VMemRegion.saved, Unicorn.contents, same.bytes]
    rw [bytes]
    rfl

/-- A snapshot lists the regions and holds the bytes of those recorded as writable. -/
theorem ends_captureSnapshot_ok (ends : captureSnapshot.Ends vk₀ (.ok snapshot) vk₁) :
    snapshot.regions = vk₀.mem.regions ∧ snapshot.writableRegions =
      (vk₀.mem.regions.filter (·.prot.write)).map (VMemRegion.saved vk₀.uc) := by
  rw [captureSnapshot, ends_bind_get] at ends
  obtain ⟨saved, vk₂, loop, ends⟩ := ends_bind_ok.1 ends
  obtain ⟨rfl, same⟩ := ends_saveRegions loop
  rw [ends_bind_get] at ends
  obtain ⟨ok, -⟩ := ends_pure.1 ends
  obtain rfl := Except.ok.inj ok
  exact ⟨congrArg VMemory.regions same.mem, rfl⟩

/-! ## Restoring -/

/-- Writing back the saved contents of regions. -/
theorem ends_writeBack {uc₀ : Unicorn} (ends : ((regions.map (VMemRegion.saved uc₀)).forM
      fun region => memWrite region.start region.data).Ends vk (.ok ()) vk') :
    vk'.uc.pages = vk.uc.pages ∧
      (∀ x, vk'.uc.bytes x = if ∃ r ∈ regions, x ∈ r then uc₀.bytes x else vk.uc.bytes x) ∧
      vk' = vk.withUc vk'.uc := by
  induction regions generalizing vk with
  | nil =>
    obtain ⟨-, rfl⟩ := ends_forM_nil.1 ends
    exact ⟨rfl, by simp, rfl⟩
  | cons r regions ih =>
    obtain ⟨vk₁, first, rest⟩ := ends_forM_cons_ok.1 ends
    obtain ⟨uc, ok, -, rfl⟩ | ⟨e, -, ⟨⟩, -⟩ := ends_memWrite.1 first
    obtain ⟨-, ok⟩ := VMemory.write_ok_iff.1 ok
    obtain ⟨pages, -, bytes⟩ := Unicorn.memWrite_effect ok
    obtain ⟨pages', bytes', frame⟩ := ih rest
    refine ⟨pages'.trans pages, fun x => ?_, frame⟩
    rw [bytes' x]
    simp only [List.mem_cons, exists_eq_or_imp, Valkyrie.withUc_uc, bytes x]
    by_cases later : ∃ r ∈ regions, x ∈ r
    · rw [if_pos later, if_pos (.inr later)]
    rw [if_neg later]
    simp only [later, or_false, VMemRegion.saved, Unicorn.length_contents]
    exact ite_congr rfl (fun inside => Unicorn.getD_contents inside) fun _ => rfl

/-- What a successful restore of a captured snapshot leaves in an address of the snapshot. -/
theorem restored_byte (nonempty : ∀ r ∈ vk₀.mem.regions, r.size ≠ 0)
    (disjoint : Disjoint vk₀.mem.regions)
    (capture : captureSnapshot.Ends vk₀ (.ok snapshot) vk₁)
    (restore : (restoreSnapshot snapshot).Ends vk (.ok ()) vk') (hr : r ∈ vk₀.mem.regions)
    (hx : x ∈ r) : vk'.uc.readAt x =
      some (if r.prot.write then vk₀.uc.bytes x else (vk.uc.readAt x).getD 0) := by
  obtain ⟨regions, writable⟩ := ends_captureSnapshot_ok capture
  obtain ⟨_, vk₁, layout, rest⟩ := ends_bind_ok.1 restore
  obtain ⟨_, vk₂, writes, last⟩ := ends_bind_ok.1 rest
  obtain ⟨-, rfl⟩ := ends_modify.1 last
  rw [regions] at layout
  rw [writable] at writes
  obtain ⟨prot, byte⟩ := (layoutRestored_of_ends nonempty disjoint layout).inside r hr x hx
  obtain ⟨pages, bytes, -⟩ := ends_writeBack writes
  have mapped : (vk₂.uc.protAt x).isSome := by
    rw [Unicorn.protAt, pages]
    exact Option.isSome_iff_exists.2 ⟨_, prot⟩
  have covered : (∃ s ∈ vk₀.mem.regions.filter (·.prot.write), x ∈ s) ↔ r.prot.write := by
    constructor
    · rintro ⟨s, hs, hx'⟩
      obtain ⟨hs, write⟩ := List.mem_filter.1 hs
      rw [disjoint.eq_of_mem hr hs hx hx']
      exact write
    · exact fun write => ⟨r, List.mem_filter.2 ⟨hr, write⟩, hx⟩
  have value : vk₂.uc.bytes x =
      if r.prot.write then vk₀.uc.bytes x else (vk.uc.readAt x).getD 0 := by
    rw [bytes x, byte]
    simp only [covered]
  rw [← value]
  exact if_pos mapped

/-! ## The exact condition -/

/-- A store of one byte. -/
def Unicorn.storeByte (uc : Unicorn) (x : U64) (b : U8) : Unicorn :=
  { uc with bytes := Function.update uc.bytes x b }

theorem Unicorn.readAt_storeByte {uc : Unicorn} {b : U8} (mapped : uc.protAt x = some prot) :
    (uc.storeByte x b).readAt x = some b := by
  have mapped' : (uc.storeByte x b).protAt x = some prot := mapped
  have byte : (uc.storeByte x b).bytes x = b := by simp [storeByte]
  rw [readAt, mapped', byte]
  rfl

/-- A step of the guest: a memory call, or a store to a writable page. -/
inductive GuestStep : Valkyrie → Valkyrie → Prop
  | call {vk vk' : Valkyrie} {c : MemCall} : c.Does vk vk' → GuestStep vk vk'
  | store {vk : Valkyrie} {x : U64} {prot : Prot} (b : U8) : vk.uc.protAt x = some prot →
      prot.write → GuestStep vk (vk.withUc (vk.uc.storeByte x b))

/-- One page is mapped read-only. -/
def readOnlyPage : Valkyrie :=
  .ofMemory .x86_64 ⟨[⟨0x1000, 0x1000, ⟨true, false, false⟩, "[mmap]"⟩], 0, 0⟩

theorem mirrors_readOnlyPage : Mirrors readOnlyPage.mem.regions readOnlyPage.uc := by
  refine Mirrors.ofRegions ?_ ?_ (List.pairwise_singleton _ _) <;> decide

set_option maxRecDepth 20000 in
/-- A byte stored after the page was made writable survives the restore. -/
theorem restore_keeps_stored_byte : ¬ ∀ (vk₀ vk₁ vk vk' : Valkyrie) (snapshot : EmulatorSnapshot),
    Mirrors vk₀.mem.regions vk₀.uc → captureSnapshot.Ends vk₀ (.ok snapshot) vk₁ →
      Relation.ReflTransGen GuestStep vk₁ vk →
      (restoreSnapshot snapshot).Ends vk (.ok ()) vk' →
      ∀ x b, vk₀.uc.readAt x = some b → vk'.uc.readAt x = some b := by
  intro exact
  have does : ∃ snapshot vk vk', captureSnapshot.Ends readOnlyPage (.ok snapshot) readOnlyPage ∧
      (MemCall.mprotect ⟨0x1000, 0x1000, 3, 0, 0, 0⟩).Does readOnlyPage vk ∧
      vk.uc.protAt 0x1000 = some ⟨true, true, false⟩ ∧
      (restoreSnapshot snapshot).Ends (vk.withUc (vk.uc.storeByte 0x1000 1)) (.ok ()) vk' :=
    ⟨_, _, _, rfl, ⟨_, rfl⟩, rfl, rfl⟩
  obtain ⟨snapshot, vk, vk', capture, mprotect, prot, restore⟩ := does
  have run : Relation.ReflTransGen GuestStep readOnlyPage
      (vk.withUc (vk.uc.storeByte 0x1000 1)) :=
    .tail (.single (.call mprotect)) (.store 1 prot rfl)
  have kept := exact _ _ _ _ _ mirrors_readOnlyPage capture run restore 0x1000 0 rfl
  have stored := restored_byte mirrors_readOnlyPage.nonempty mirrors_readOnlyPage.disjoint capture
    restore (List.mem_singleton_self _) (show (0x1000 : U64) ∈ _ by decide)
  have byte : (vk.withUc (vk.uc.storeByte 0x1000 1)).uc.readAt 0x1000 = some 1 :=
    Unicorn.readAt_storeByte prot
  rw [kept, byte] at stored
  cases stored

/-- A successful restore brings back every byte mapped at capture exactly when, just before it,
every address of a region not recorded as writable holds its byte, or is unmapped and its byte was
zero. -/
theorem restoreSnapshot_bytes_iff (mirrors : Mirrors vk₀.mem.regions vk₀.uc)
    (capture : captureSnapshot.Ends vk₀ (.ok snapshot) vk₁)
    (restore : (restoreSnapshot snapshot).Ends vk (.ok ()) vk') :
    (∀ x b, vk₀.uc.readAt x = some b → vk'.uc.readAt x = some b) ↔
      ∀ r ∈ vk₀.mem.regions, ¬ r.prot.write → ∀ x ∈ r, ∀ b, vk₀.uc.readAt x = some b →
        vk.uc.readAt x = some b ∨ vk.uc.readAt x = none ∧ b = 0 := by
  have value {r : VMemRegion} (hr : r ∈ vk₀.mem.regions) {x : U64} (hx : x ∈ r) :=
    restored_byte mirrors.nonempty mirrors.disjoint capture restore hr hx
  constructor
  · intro back r hr readonly x hx b byte
    have restored := back x b byte
    rw [value hr hx, if_neg readonly, Option.some.injEq] at restored
    cases before : vk.uc.readAt x with
    | none =>
      rw [before] at restored
      exact .inr ⟨rfl, restored.symm⟩
    | some c =>
      rw [before] at restored
      exact .inl (congrArg some restored)
  · intro kept x b byte
    have mapped : (vk₀.uc.protAt x).isSome := by
      by_contra unmapped
      rw [Unicorn.readAt, if_neg unmapped] at byte
      cases byte
    obtain ⟨r, hr, hx⟩ := (mirrors.exact x).2 mapped
    rw [value hr hx]
    split_ifs with write
    · rw [← byte, Unicorn.readAt, if_pos mapped]
    · obtain before | ⟨before, rfl⟩ := kept r hr write x hx b byte
      · rw [before]
        rfl
      · rw [before]
        rfl

/-- A page of constants, and one that can be written. -/
def constantsAndData : Valkyrie :=
  let vk := Valkyrie.ofMemory .x86_64 ⟨[⟨0x1000, 0x1000, ⟨true, false, false⟩, "[rodata]"⟩,
    ⟨0x3000, 0x1000, ⟨true, true, false⟩, "[data]"⟩], 0, 0⟩
  vk.withUc { vk.uc with bytes := fun a => if a = 0x1000 then 5 else if a = 0x3000 then 7 else 0 }

theorem mirrors_constantsAndData : Mirrors constantsAndData.mem.regions constantsAndData.uc := by
  refine (Mirrors.ofRegions ?_ ?_ ?_ : Mirrors constantsAndData.mem.regions (.ofRegions _)).congr
    fun x => rfl
  · decide
  · decide
  · refine List.pairwise_pair.2 fun x constant data => ?_
    have below := (VMemRegion.mem_iff.1 constant).2
    have above := (VMemRegion.mem_iff.1 data).1
    exact absurd (above.trans_lt below) (by decide)

set_option maxRecDepth 20000 in
/-- A store into the data and its unmapping are undone. -/
theorem restoreSnapshot_bytes_iff_constantsAndData : ∃ snapshot vk vk',
    captureSnapshot.Ends constantsAndData (.ok snapshot) constantsAndData ∧
      Relation.ReflTransGen GuestStep constantsAndData vk ∧ vk.uc.readAt 0x3000 = none ∧
      (restoreSnapshot snapshot).Ends vk (.ok ()) vk' ∧
      ∀ x b, constantsAndData.uc.readAt x = some b → vk'.uc.readAt x = some b := by
  let stored := constantsAndData.withUc (constantsAndData.uc.storeByte 0x3000 9)
  have does : ∃ snapshot uc vk vk',
      captureSnapshot.Ends constantsAndData (.ok snapshot) constantsAndData ∧
      (MemCall.munmap ⟨0x3000, 0x1000, 0, 0, 0, 0⟩).Does stored vk ∧
      stored.uc.memUnmap 0x3000 0x1000 = .ok uc ∧ vk.uc = uc ∧
      (restoreSnapshot snapshot).Ends vk (.ok ()) vk' := ⟨_, _, _, _, rfl, ⟨_, rfl⟩, rfl, rfl, rfl⟩
  obtain ⟨snapshot, uc, vk, vk', capture, munmap, unmapped, left, restore⟩ := does
  obtain ⟨prots, bytes, -⟩ := Unicorn.memUnmap_effect unmapped
  have run : Relation.ReflTransGen GuestStep constantsAndData vk :=
    .tail (.single (.store 9 rfl rfl)) (.call munmap)
  refine ⟨snapshot, vk, vk', capture, run, ?_, restore,
    (restoreSnapshot_bytes_iff mirrors_constantsAndData capture restore).2 ?_⟩
  · have gone : uc.protAt 0x3000 = none := (prots 0x3000).trans (if_pos (by decide))
    rw [left, Unicorn.readAt, gone]
    rfl
  · intro r member readonly x inside b byte
    rcases List.mem_pair.1 member with rfl | rfl
    · have below := (VMemRegion.mem_iff.1 inside).2
      have outside : ¬ InRange 0x3000 (0x1000 : U64).toNat x := fun data =>
        absurd (data.1.trans_lt below) (by decide)
      have apart : x ≠ 0x3000 := by
        rintro rfl
        exact absurd below (by decide)
      have kept : stored.uc.bytes x = constantsAndData.uc.bytes x := Function.update_of_ne apart _ _
      rw [left, Unicorn.readAt, prots, if_neg outside, bytes, kept]
      exact .inl byte
    · exact absurd rfl readonly

end ValkyrieRs
