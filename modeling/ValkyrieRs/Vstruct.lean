import ValkyrieRs.Common

/-!
# Packing integers

`vstruct.rs`: integers of 16, 32 and 64 bits as bytes in either byte order.  A `VCoreStructs` has one
of these widths, so the last arm of each switch on the width is never reached.
-/

namespace ValkyrieRs

/-- `to_le_bytes` or `to_be_bytes` of an integer of `n` bytes. -/
def Endianess.toBytes {w : ℕ} (n : ℕ) (x : BitVec w) : Endianess → List U8
  | littleEndian => Digits.little 8 n x
  | bigEndian => Digits.big 8 n x

/-- `from_le_bytes` or `from_be_bytes` of an integer of `w` bits. -/
def Endianess.fromBytes (w : ℕ) (bytes : List U8) : Endianess → BitVec w
  | littleEndian => Digits.ofLittle w bytes
  | bigEndian => Digits.ofBig w bytes

/-- `take_exact`. -/
def takeExact (n : ℕ) (buf : List U8) : Except StructError (List U8) :=
  if buf.length < n then .error (.bufferTooSmall n buf.length) else .ok (buf.take n)

/-- `defaults_for_arch`. -/
def defaultsForArch : Arch → Endianess × U16
  | .x86 => (.littleEndian, 32)
  | .x86_64 => (.littleEndian, 64)

/-- A byte order and a width. -/
structure VCoreStructs where
  endian : Endianess
  bit : U16
  supported : bit = 16 ∨ bit = 32 ∨ bit = 64
deriving DecidableEq

namespace VCoreStructs

/-- `VCoreStructs::new`, which refuses other widths. -/
def new (endian : Endianess) (bit : U16) : Except StructError VCoreStructs :=
  if h : bit = 16 ∨ bit = 32 ∨ bit = 64 then .ok ⟨endian, bit, h⟩ else .error .unsupportedBitness

variable (s : VCoreStructs)

/-! ## 64, 32 and 16 bits -/

/-- Eight bytes of an unsigned integer. -/
def pack64 (x : U64) : List U8 := s.endian.toBytes 8 x

/-- Eight bytes of a signed integer. -/
def pack64s (x : Int64) : List U8 := s.endian.toBytes 8 x.toBitVec

/-- The unsigned integer of the first eight bytes. -/
def unpack64 (buf : List U8) : Except StructError U64 := do
  let b ← takeExact 8 buf
  return s.endian.fromBytes 64 b

/-- The signed integer of the first eight bytes. -/
def unpack64s (buf : List U8) : Except StructError Int64 := do
  let b ← takeExact 8 buf
  return .ofBitVec (s.endian.fromBytes 64 b)

/-- Four bytes of an unsigned integer. -/
def pack32 (x : U32) : List U8 := s.endian.toBytes 4 x

/-- Four bytes of a signed integer. -/
def pack32s (x : Int32) : List U8 := s.endian.toBytes 4 x.toBitVec

/-- The unsigned integer of the first four bytes. -/
def unpack32 (buf : List U8) : Except StructError U32 := do
  let b ← takeExact 4 buf
  return s.endian.fromBytes 32 b

/-- The signed integer of the first four bytes. -/
def unpack32s (buf : List U8) : Except StructError Int32 := do
  let b ← takeExact 4 buf
  return .ofBitVec (s.endian.fromBytes 32 b)

/-- Two bytes of an unsigned integer. -/
def pack16 (x : U16) : List U8 := s.endian.toBytes 2 x

/-- Two bytes of a signed integer. -/
def pack16s (x : Int16) : List U8 := s.endian.toBytes 2 x.toBitVec

/-- The unsigned integer of the first two bytes. -/
def unpack16 (buf : List U8) : Except StructError U16 := do
  let b ← takeExact 2 buf
  return s.endian.fromBytes 16 b

/-- The signed integer of the first two bytes. -/
def unpack16s (buf : List U8) : Except StructError Int16 := do
  let b ← takeExact 2 buf
  return .ofBitVec (s.endian.fromBytes 16 b)

/-! ## The width of the structure -/

variable {s} in
theorem unreachable (not64 : s.bit ≠ 64) (not32 : s.bit ≠ 32) (not16 : s.bit ≠ 16) : False := by
  rcases s.supported with h | h | h
  · exact not16 h
  · exact not32 h
  · exact not64 h

/-- The bytes of an unsigned integer, cut to the width. -/
def pack (x : U64) : List U8 :=
  if h64 : s.bit = 64 then s.pack64 x
  else if h32 : s.bit = 32 then s.pack32 (x.setWidth 32)
  else if h16 : s.bit = 16 then s.pack16 (x.setWidth 16)
  else (unreachable h64 h32 h16).elim

/-- The bytes of a signed integer, cut to the width. -/
def packs (x : Int64) : List U8 :=
  if h64 : s.bit = 64 then s.pack64s x
  else if h32 : s.bit = 32 then s.pack32s x.toInt32
  else if h16 : s.bit = 16 then s.pack16s x.toInt16
  else (unreachable h64 h32 h16).elim

/-- An unsigned integer of the width. -/
def unpack (buf : List U8) : Except StructError U64 :=
  if h64 : s.bit = 64 then s.unpack64 buf
  else if h32 : s.bit = 32 then (s.unpack32 buf).map fun x => x.setWidth 64
  else if h16 : s.bit = 16 then (s.unpack16 buf).map fun x => x.setWidth 64
  else (unreachable h64 h32 h16).elim

/-- A signed integer of the width, with its sign. -/
def unpacks (buf : List U8) : Except StructError Int64 :=
  if h64 : s.bit = 64 then s.unpack64s buf
  else if h32 : s.bit = 32 then (s.unpack32s buf).map Int32.toInt64
  else if h16 : s.bit = 16 then (s.unpack16s buf).map Int16.toInt64
  else (unreachable h64 h32 h16).elim

/-! ## 8 bits -/

/-- The byte of an unsigned integer. -/
def pack8 (x : U8) : List U8 := [x]

/-- The byte of a signed integer. -/
def pack8s (x : Int8) : List U8 := [x.toBitVec]

/-- The first byte as an unsigned integer. -/
def unpack8 : List U8 → Except StructError U8
  | [] => .error (.bufferTooSmall 1 0)
  | b :: _ => .ok b

/-- The first byte as a signed integer. -/
def unpack8s : List U8 → Except StructError Int8
  | [] => .error (.bufferTooSmall 1 0)
  | b :: _ => .ok (.ofBitVec b)

end VCoreStructs

end ValkyrieRs
