import ValkyrieRs.Syscall.Words
import ValkyrieRs.Vstruct

/-!
# Packed integers

Packing and unpacking undo each other at every width and in both byte orders.  Each of the four
functions is one conversion at the width of the structure, whichever variant its switch selects; the
laws then follow from those of digits.
-/

namespace ValkyrieRs

/-! ## Byte orders -/

namespace Endianess

variable {e : Endianess} {w n : ℕ} {x : BitVec w} {bytes : List U8}

@[simp] theorem length_toBytes : (e.toBytes n x).length = n := by
  cases e with
  | littleEndian => exact Digits.length_little
  | bigEndian => exact Digits.length_big

theorem toBytes_reverse : (littleEndian.toBytes n x).reverse = bigEndian.toBytes n x :=
  Digits.reverse_little

theorem fromBytes_toBytes (whole : 8 * n = w) : e.fromBytes w (e.toBytes n x) = x := by
  subst whole
  have all : (x.setWidth (8 * n)).setWidth (8 * n) = x := by
    rw [BitVec.setWidth_eq, BitVec.setWidth_eq]
  cases e with
  | littleEndian => exact (Digits.ofLittle_little (by decide)).trans all
  | bigEndian => exact (Digits.ofBig_big (by decide)).trans all

theorem toBytes_fromBytes (length : bytes.length = n) (whole : 8 * n = w) :
    e.toBytes n (e.fromBytes w bytes) = bytes := by
  subst length
  cases e with
  | littleEndian => exact Digits.little_ofLittle (by decide) whole.le
  | bigEndian => exact Digits.big_ofBig (by decide) whole.le

end Endianess

theorem takeExact_of_lt {n : ℕ} {buf : List U8} (short : buf.length < n) :
    takeExact n buf = .error (.bufferTooSmall n buf.length) := if_pos short

theorem takeExact_of_le {n : ℕ} {buf : List U8} (enough : n ≤ buf.length) :
    takeExact n buf = .ok (buf.take n) := if_neg (Nat.not_lt.2 enough)

namespace VCoreStructs

variable {s : VCoreStructs} {x : U64} {y : Int64} {buf : List U8}

/-! ## One conversion at each width -/

theorem bit_le (s : VCoreStructs) : s.bit.toNat ≤ 64 := by
  rcases s.supported with h | h | h <;> rw [h] <;> decide

theorem bit_eq (s : VCoreStructs) : 8 * (s.bit.toNat / 8) = s.bit.toNat := by
  rcases s.supported with h | h | h <;> rw [h] <;> rfl

theorem pack_eq : s.pack x = s.endian.toBytes (s.bit.toNat / 8) (x.setWidth s.bit.toNat) := by
  rcases s.supported with h | h | h
  · rw [pack, dif_neg (by rw [h]; decide), dif_neg (by rw [h]; decide), dif_pos h, h]
    rfl
  · rw [pack, dif_neg (by rw [h]; decide), dif_pos h, h]
    rfl
  · rw [pack, dif_pos h, h]
    exact congrArg (fun x => s.endian.toBytes 8 x) (BitVec.setWidth_eq x).symm

theorem packs_eq :
    s.packs y = s.endian.toBytes (s.bit.toNat / 8) (y.toBitVec.setWidth s.bit.toNat) := by
  rcases s.supported with h | h | h
  · rw [packs, dif_neg (by rw [h]; decide), dif_neg (by rw [h]; decide), dif_pos h, h, pack16s,
      Int64.toBitVec_toInt16, BitVec.signExtend_eq_setWidth_of_le _ (by decide)]
    rfl
  · rw [packs, dif_neg (by rw [h]; decide), dif_pos h, h, pack32s, Int64.toBitVec_toInt32,
      BitVec.signExtend_eq_setWidth_of_le _ (by decide)]
    rfl
  · rw [packs, dif_pos h, h]
    exact congrArg (fun x => s.endian.toBytes 8 x) (BitVec.setWidth_eq y.toBitVec).symm

theorem unpack_eq : s.unpack buf = (takeExact (s.bit.toNat / 8) buf).map fun b =>
    (s.endian.fromBytes s.bit.toNat b).setWidth 64 := by
  rcases s.supported with h | h | h
  · rw [unpack, dif_neg (by rw [h]; decide), dif_neg (by rw [h]; decide), dif_pos h, h, unpack16]
    change _ = (takeExact 2 buf).map _
    cases takeExact 2 buf <;> rfl
  · rw [unpack, dif_neg (by rw [h]; decide), dif_pos h, h, unpack32]
    change _ = (takeExact 4 buf).map _
    cases takeExact 4 buf <;> rfl
  · rw [unpack, dif_pos h, h, unpack64]
    change _ = (takeExact 8 buf).map _
    cases takeExact 8 buf with
    | error e => rfl
    | ok b => exact congrArg Except.ok (BitVec.setWidth_eq _).symm

theorem unpacks_eq : s.unpacks buf = (takeExact (s.bit.toNat / 8) buf).map fun b =>
    .ofBitVec ((s.endian.fromBytes s.bit.toNat b).signExtend 64) := by
  rcases s.supported with h | h | h
  · rw [unpacks, dif_neg (by rw [h]; decide), dif_neg (by rw [h]; decide), dif_pos h, h, unpack16s]
    change _ = (takeExact 2 buf).map _
    cases takeExact 2 buf <;> rfl
  · rw [unpacks, dif_neg (by rw [h]; decide), dif_pos h, h, unpack32s]
    change _ = (takeExact 4 buf).map _
    cases takeExact 4 buf <;> rfl
  · rw [unpacks, dif_pos h, h, unpack64s]
    change _ = (takeExact 8 buf).map _
    cases takeExact 8 buf with
    | error e => rfl
    | ok b => exact congrArg (fun x => Except.ok (Int64.ofBitVec x)) (BitVec.signExtend_eq _).symm

@[simp] theorem length_pack : (s.pack x).length = s.bit.toNat / 8 := by
  rw [pack_eq, Endianess.length_toBytes]

theorem packs_eq_pack : s.packs y = s.pack y.toBitVec := by rw [packs_eq, pack_eq]

/-! ## The laws -/

theorem setWidth_setWidth_bit (v : BitVec s.bit.toNat) :
    (v.setWidth 64).setWidth s.bit.toNat = v := by
  rw [BitVec.setWidth_setWidth_of_le v s.bit_le, BitVec.setWidth_eq]

theorem setWidth_signExtend_bit (v : BitVec s.bit.toNat) :
    (v.signExtend 64).setWidth s.bit.toNat = v := by
  apply BitVec.eq_of_getLsbD_eq
  intro i hi
  rw [BitVec.getLsbD_setWidth, BitVec.getLsbD_signExtend, if_pos hi]
  have bound : i < 64 := hi.trans_le s.bit_le
  simp [hi, bound]

theorem takeExact_pack (rest : List U8) :
    takeExact (s.bit.toNat / 8) (s.pack x ++ rest) = .ok (s.pack x) := by
  rw [takeExact_of_le (by simp), List.take_left' length_pack]

/-- What is packed comes back, as far as the width goes. -/
theorem unpack_pack (rest : List U8) :
    s.unpack (s.pack x ++ rest) = .ok ((x.setWidth s.bit.toNat).setWidth 64) := by
  rw [unpack_eq, takeExact_pack, pack_eq, Except.map, Endianess.fromBytes_toBytes s.bit_eq]

theorem unpacks_packs (rest : List U8) : s.unpacks (s.packs y ++ rest) =
    .ok (.ofBitVec ((y.toBitVec.setWidth s.bit.toNat).signExtend 64)) := by
  rw [unpacks_eq, packs_eq_pack, takeExact_pack, pack_eq, Except.map,
    Endianess.fromBytes_toBytes s.bit_eq]

section Buffer

variable (enough : s.bit.toNat / 8 ≤ buf.length)

include enough

theorem toBytes_fromBytes_take : s.endian.toBytes (s.bit.toNat / 8)
    (s.endian.fromBytes s.bit.toNat (buf.take (s.bit.toNat / 8))) = buf.take (s.bit.toNat / 8) :=
  Endianess.toBytes_fromBytes (List.length_take_of_le enough) s.bit_eq

/-- What is unpacked packs to the bytes that were read. -/
theorem pack_unpack : ∃ x, s.unpack buf = .ok x ∧ s.pack x = buf.take (s.bit.toNat / 8) := by
  refine ⟨(s.endian.fromBytes s.bit.toNat (buf.take (s.bit.toNat / 8))).setWidth 64, ?_, ?_⟩
  · rw [unpack_eq, takeExact_of_le enough]
    rfl
  · rw [pack_eq, setWidth_setWidth_bit, toBytes_fromBytes_take enough]

theorem packs_unpacks : ∃ y, s.unpacks buf = .ok y ∧ s.packs y = buf.take (s.bit.toNat / 8) := by
  refine ⟨.ofBitVec ((s.endian.fromBytes s.bit.toNat
    (buf.take (s.bit.toNat / 8))).signExtend 64), ?_, ?_⟩
  · rw [unpacks_eq, takeExact_of_le enough]
    rfl
  · rw [packs_eq, Int64.toBitVec_ofBitVec, setWidth_signExtend_bit, toBytes_fromBytes_take enough]

end Buffer

/-- Packing and unpacking undo each other, and a buffer that is too short is refused. -/
structure RoundTrips (s : VCoreStructs) : Prop where
  unsigned : ∀ x rest, s.unpack (s.pack x ++ rest) =
    .ok (BitVec.ofNat 64 (x.toNat % 2 ^ s.bit.toNat))
  signed : ∀ y rest, s.unpacks (s.packs y ++ rest) =
    .ok (.ofBitVec ((y.toBitVec.setWidth s.bit.toNat).signExtend 64))
  reinterpreted : ∀ y, s.packs y = s.pack y.toBitVec
  short : ∀ buf, buf.length < s.bit.toNat / 8 →
    s.unpack buf = .error (.bufferTooSmall (s.bit.toNat / 8) buf.length) ∧
      s.unpacks buf = .error (.bufferTooSmall (s.bit.toNat / 8) buf.length)
  enough : ∀ buf, s.bit.toNat / 8 ≤ buf.length →
    (∃ x, s.unpack buf = .ok x ∧ s.pack x = buf.take (s.bit.toNat / 8)) ∧
      ∃ y, s.unpacks buf = .ok y ∧ s.packs y = buf.take (s.bit.toNat / 8)

theorem roundTrips (s : VCoreStructs) : RoundTrips s where
  unsigned x rest := by
    rw [unpack_pack]
    congr 1
    apply BitVec.eq_of_toNat_eq
    simp only [BitVec.toNat_setWidth, BitVec.toNat_ofNat]
  signed _ := unpacks_packs
  reinterpreted _ := packs_eq_pack
  short buf short := by
    rw [unpack_eq, unpacks_eq, takeExact_of_lt short]
    exact ⟨rfl, rfl⟩
  enough _ enough := ⟨pack_unpack enough, packs_unpacks enough⟩

variable {endian : Endianess} {bit : U16}

theorem new_ok_iff : new endian bit = .ok s ↔ s.endian = endian ∧ s.bit = bit := by
  unfold new
  split_ifs with supported
  · obtain ⟨e, b, h⟩ := s
    simp [eq_comm]
  · simp only [false_iff, not_and]
    rintro - rfl
    exact supported s.supported

/-- The defaults of an architecture are accepted, and pack what the handlers store for a word. -/
theorem new_defaults (arch : Arch) :
    ∃ s, new (defaultsForArch arch).1 (defaultsForArch arch).2 = .ok s ∧
      ∀ x, s.pack x = toLeBytes arch.wordWidth x := by
  have packs_low (s : VCoreStructs) (first : s.endian = .littleEndian) (x : U64) :
      s.pack x = toLeBytes (s.bit.toNat / 8) x := by
    rw [pack_eq, first]
    exact Digits.little_setWidth s.bit_eq.le
  cases arch with
  | x86 => exact ⟨⟨.littleEndian, 32, by decide⟩, new_ok_iff.2 ⟨rfl, rfl⟩, packs_low _ rfl⟩
  | x86_64 => exact ⟨⟨.littleEndian, 64, by decide⟩, new_ok_iff.2 ⟨rfl, rfl⟩, packs_low _ rfl⟩

/-- Whatever `new` accepts packs and unpacks faithfully, and the two byte orders are each other's
reverse. -/
theorem pack_round_trips (made : new endian bit = .ok s) :
    (s.endian = endian ∧ s.bit = bit) ∧ RoundTrips s ∧
      ∀ little big, new .littleEndian bit = .ok little → new .bigEndian bit = .ok big →
        (∀ x, big.pack x = (little.pack x).reverse) ∧
          ∀ y, big.packs y = (little.packs y).reverse := by
  refine ⟨new_ok_iff.1 made, s.roundTrips, fun little big isLittle isBig => ?_⟩
  obtain ⟨lowFirst, width⟩ := new_ok_iff.1 isLittle
  obtain ⟨highFirst, width'⟩ := new_ok_iff.1 isBig
  have reversed (x : U64) : big.pack x = (little.pack x).reverse := by
    rw [pack_eq, pack_eq, lowFirst, highFirst, width, width', Endianess.toBytes_reverse]
  refine ⟨reversed, fun y => ?_⟩
  rw [packs_eq_pack, packs_eq_pack, reversed]

theorem pack_round_trips_big32 : ∃ s, new .bigEndian 32 = .ok s ∧
    ((s.endian = .bigEndian ∧ s.bit = 32) ∧ RoundTrips s ∧
      ∀ little big, new .littleEndian 32 = .ok little → new .bigEndian 32 = .ok big →
        (∀ x, big.pack x = (little.pack x).reverse) ∧
          ∀ y, big.packs y = (little.packs y).reverse) := by
  have made : new .bigEndian 32 = .ok ⟨.bigEndian, 32, by decide⟩ := by decide
  exact ⟨_, made, pack_round_trips made⟩

example : VCoreStructs.pack ⟨.bigEndian, 32, by decide⟩ 0x1122334455667788 =
    [0x55, 0x66, 0x77, 0x88] := by decide

end VCoreStructs

end ValkyrieRs
