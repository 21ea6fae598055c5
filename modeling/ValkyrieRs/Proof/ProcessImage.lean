import Mathlib.Data.List.Forall2
import ValkyrieRs.Common
import ValkyrieRs.Lib.Blocks

/-!
# Process images

The start of a process as the System V ABI lays it out at the stack pointer: the number of
arguments, pointers to them, a null word, the null-terminated environment and the auxiliary vector.
`decodeProcessImage` reads it with words of `width` bytes; a memory that holds the words of an image
and the strings that they point to decodes to that image.
-/

namespace ValkyrieRs

open Blocks

/-! ## Decoding -/

section Decode

variable (m : U64 → Option U8) (width : ℕ)

/-- Bytes from an address on. -/
def readBytes : ℕ → U64 → Option (List U8)
  | 0, _ => some []
  | n + 1, a => (m a).bind fun byte => (readBytes n (a + 1)).map (byte :: ·)

/-- A little-endian word. -/
def decodeWord (a : U64) : Option U64 := (readBytes m width a).map fromLeBytes

/-- Words from an address on. -/
def decodeWords : ℕ → U64 → Option (List U64)
  | 0, _ => some []
  | n + 1, a => (decodeWord m width a).bind fun word =>
    (decodeWords n (a + BitVec.ofNat 64 width)).map (word :: ·)

/-- The bytes up to the next NUL. -/
def decodeString : ℕ → U64 → Option (List U8)
  | 0, _ => none
  | n + 1, a => (m a).bind fun byte =>
    if byte = 0 then some [] else (decodeString n (a + 1)).map (byte :: ·)

/-- The words up to the next null word. -/
def decodeList : ℕ → U64 → Option (List U64)
  | 0, _ => none
  | n + 1, a => (decodeWord m width a).bind fun word =>
    if word = 0 then some []
    else (decodeList n (a + BitVec.ofNat 64 width)).map (word :: ·)

/-- The pairs up to the key `AT_NULL`. -/
def decodeAuxv : ℕ → U64 → Option (List (U64 × U64))
  | 0, _ => none
  | n + 1, a => (decodeWord m width a).bind fun key =>
    (decodeWord m width (a + BitVec.ofNat 64 width)).bind fun value =>
      if key = 0 then some []
      else (decodeAuxv n (a + BitVec.ofNat 64 (2 * width))).map ((key, value) :: ·)

end Decode

/-- What a program finds on its stack. -/
structure ProcessImage where
  argvPtrs : List U64
  argv : List (List U8)
  envp : List U64
  auxv : List (U64 × U64)
deriving DecidableEq

/-- The image at a stack pointer. -/
def decodeProcessImage (m : U64 → Option U8) (width : ℕ) (sp : U64) : Option ProcessImage :=
  (decodeWord m width sp).bind fun argc =>
  (decodeWords m width argc.toNat (sp + BitVec.ofNat 64 width)).bind fun argvPtrs =>
  (argvPtrs.mapM (decodeString m (2 ^ 64))).bind fun argv =>
  (decodeWord m width (sp + BitVec.ofNat 64 (width * (argc.toNat + 1)))).bind fun null =>
    if null ≠ 0 then none
    else
      (decodeList m width (2 ^ 64) (sp + BitVec.ofNat 64 (width * (argc.toNat + 2)))).bind
        fun envp =>
      (decodeAuxv m width (2 ^ 64)
        (sp + BitVec.ofNat 64 (width * (argc.toNat + envp.length + 3)))).map fun auxv =>
      ⟨argvPtrs, argv, envp, auxv⟩

/-! ## What decoding finds -/

variable {m : U64 → Option U8} {a : U64} {bits : ℕ}

theorem readBytes_of_carries {data : List U8} (h : Carries m a (data.map some)) :
    readBytes m data.length a = some data := by
  induction data generalizing a with
  | nil => rfl
  | cons byte data ih =>
    rw [List.map_cons, carries_cons] at h
    rw [List.length_cons, readBytes, h.1, ih h.2]
    rfl

theorem decodeString_of_carries {s : List U8} {fuel : ℕ} (h : Carries m a ((s ++ [0]).map some))
    (free : 0 ∉ s) (enough : s.length < fuel) : decodeString m fuel a = some s := by
  induction s generalizing a fuel with
  | nil =>
    obtain ⟨fuel, rfl⟩ := Nat.exists_eq_succ_of_ne_zero (Nat.ne_of_gt enough)
    rw [List.nil_append, List.map_cons, carries_cons] at h
    rw [decodeString, h.1]
    rfl
  | cons byte s ih =>
    obtain ⟨fuel, rfl⟩ := Nat.exists_eq_succ_of_ne_zero (Nat.ne_of_gt (Nat.zero_lt_of_lt enough))
    rw [List.cons_append, List.map_cons, carries_cons] at h
    rw [List.mem_cons, not_or] at free
    rw [List.length_cons, Nat.succ_lt_succ_iff] at enough
    rw [decodeString, h.1, Option.bind_some, if_neg (Ne.symm free.1), ih h.2 free.2 enough]
    rfl

/-- The memory holds the words, one after the other. -/
def CarriesWords (m : U64 → Option U8) (a : U64) (words : List (BitVec bits)) : Prop :=
  Carries m a ((words.flatMap (toLeBytes (bits / 8))).map some)

theorem length_flatMap_toLeBytes (words : List (BitVec bits)) :
    (words.flatMap (toLeBytes (bits / 8))).length = bits / 8 * words.length := by
  induction words with
  | nil => rfl
  | cons word words ih =>
    rw [List.flatMap_cons, List.length_append, length_toLeBytes, ih, List.length_cons,
      Nat.mul_succ, Nat.add_comm]

theorem carriesWords_append {words words' : List (BitVec bits)} :
    CarriesWords m a (words ++ words') ↔ CarriesWords m a words ∧
      CarriesWords m (a + BitVec.ofNat 64 (bits / 8 * words.length)) words' := by
  rw [CarriesWords, List.flatMap_append, List.map_append, carries_append, List.length_map,
    length_flatMap_toLeBytes]
  rfl

theorem carriesWords_cons {word : BitVec bits} {words : List (BitVec bits)} :
    CarriesWords m a (word :: words) ↔ CarriesWords m a [word] ∧
      CarriesWords m (a + BitVec.ofNat 64 (bits / 8)) words := by
  have split := @carriesWords_append m a bits [word] words
  rwa [List.singleton_append, List.length_singleton, Nat.mul_one] at split

theorem setWidth_null : (0 : BitVec bits).setWidth 64 = 0 := BitVec.setWidth_zero ..

section Words

variable (whole : 8 ∣ bits)
include whole

theorem decodeWord_of_carries {word : BitVec bits} (h : CarriesWords m a [word]) :
    decodeWord m (bits / 8) a = some (word.setWidth 64) := by
  rw [CarriesWords, List.flatMap_singleton] at h
  have read := readBytes_of_carries h
  rw [length_toLeBytes] at read
  rw [decodeWord, read, Option.map_some, fromLeBytes_toLeBytes, Nat.mul_div_cancel' whole,
    BitVec.setWidth_eq]

theorem decodeWords_of_carries {words : List (BitVec bits)} (h : CarriesWords m a words) :
    decodeWords m (bits / 8) words.length a = some (words.map (·.setWidth 64)) := by
  induction words generalizing a with
  | nil => rfl
  | cons word words ih =>
    obtain ⟨first, rest⟩ := carriesWords_cons.1 h
    rw [List.length_cons, decodeWords, decodeWord_of_carries whole first, Option.bind_some, ih rest]
    rfl

theorem decodeList_of_null {fuel : ℕ} (h : CarriesWords m a [(0 : BitVec bits)])
    (enough : 0 < fuel) : decodeList m (bits / 8) fuel a = some [] := by
  obtain ⟨fuel, rfl⟩ := Nat.exists_eq_succ_of_ne_zero (Nat.ne_of_gt enough)
  rw [decodeList, decodeWord_of_carries whole h, Option.bind_some, if_pos setWidth_null]

theorem decodeAuxv_of_carries {pairs : List (BitVec bits × BitVec bits)} {last : BitVec bits}
    {fuel : ℕ} (h : CarriesWords m a (pairs.flatMap (fun p => [p.1, p.2]) ++ [0, last]))
    (keys : ∀ p ∈ pairs, p.1.setWidth 64 ≠ 0) (enough : pairs.length < fuel) :
    decodeAuxv m (bits / 8) fuel a =
      some (pairs.map fun p => (p.1.setWidth 64, p.2.setWidth 64)) := by
  induction pairs generalizing a fuel with
  | nil =>
    obtain ⟨fuel, rfl⟩ := Nat.exists_eq_succ_of_ne_zero (Nat.ne_of_gt enough)
    obtain ⟨key, value⟩ := carriesWords_cons.1 h
    rw [decodeAuxv, decodeWord_of_carries whole key, Option.bind_some,
      decodeWord_of_carries whole value, Option.bind_some, if_pos setWidth_null]
    rfl
  | cons p pairs ih =>
    obtain ⟨fuel, rfl⟩ := Nat.exists_eq_succ_of_ne_zero (Nat.ne_of_gt (Nat.zero_lt_of_lt enough))
    rw [List.length_cons, Nat.succ_lt_succ_iff] at enough
    simp only [List.flatMap_cons, List.cons_append, List.nil_append] at h
    obtain ⟨key, h⟩ := carriesWords_cons.1 h
    obtain ⟨value, h⟩ := carriesWords_cons.1 h
    rw [BitVec.add_assoc, ← BitVec.ofNat_add, ← Nat.two_mul] at h
    rw [decodeAuxv, decodeWord_of_carries whole key, Option.bind_some,
      decodeWord_of_carries whole value, Option.bind_some, if_neg (keys p List.mem_cons_self),
      ih h (fun q hq => keys q (List.mem_cons_of_mem _ hq)) enough]
    rfl

/-- A memory that holds the words of an image, and the strings they point to, decodes to it. -/
theorem decodeProcessImage_of_carries {sp : U64} {ptrs : List (BitVec bits)} {argv : List (List U8)}
    {pairs : List (BitVec bits × BitVec bits)} {last : BitVec bits}
    (frame : CarriesWords m sp (BitVec.ofNat bits ptrs.length :: ptrs ++ [0, 0] ++
      (pairs.flatMap (fun p => [p.1, p.2]) ++ [0, last])))
    (narrow : bits ≤ 64) (count : ptrs.length < 2 ^ bits)
    (strings : List.Forall₂ (fun ptr s => Carries m (ptr.setWidth 64) ((s ++ [0]).map some) ∧
      0 ∉ s ∧ s.length < 2 ^ 64) ptrs argv)
    (keys : ∀ p ∈ pairs, p.1.setWidth 64 ≠ 0) (short : pairs.length < 2 ^ 64) :
    decodeProcessImage m (bits / 8) sp = some ⟨ptrs.map (·.setWidth 64), argv, [],
      pairs.map fun p => (p.1.setWidth 64, p.2.setWidth 64)⟩ := by
  have argc : ((BitVec.ofNat bits ptrs.length).setWidth 64).toNat = ptrs.length := by
    rw [BitVec.toNat_setWidth, BitVec.toNat_ofNat, Nat.mod_eq_of_lt count, Nat.mod_eq_of_lt]
    exact Nat.lt_of_lt_of_le count (Nat.pow_le_pow_right (by decide) narrow)
  have read : (ptrs.map fun ptr => ptr.setWidth 64).mapM (decodeString m (2 ^ 64)) = some argv := by
    clear frame argc count
    induction strings with
    | nil => rfl
    | cons head tail ih =>
      rw [List.map_cons, List.mapM_cons, decodeString_of_carries head.1 head.2.1 head.2.2, ih]
      rfl
  obtain ⟨front, tail⟩ := carriesWords_append.1 frame
  obtain ⟨front, nulls⟩ := carriesWords_append.1 front
  obtain ⟨first, list⟩ := carriesWords_cons.1 front
  obtain ⟨null, empty⟩ := carriesWords_cons.1 nulls
  rw [BitVec.add_assoc, ← BitVec.ofNat_add, List.length_cons, ← Nat.mul_succ] at empty
  have past : (BitVec.ofNat bits ptrs.length :: ptrs ++ [0, 0]).length =
      ptrs.length + ([] : List U64).length + 3 := by
    rw [List.length_append, List.length_cons]
    rfl
  rw [past] at tail
  rw [List.length_cons] at null
  rw [decodeProcessImage, decodeWord_of_carries whole first, Option.bind_some, argc,
    decodeWords_of_carries whole list, Option.bind_some, read, Option.bind_some,
    decodeWord_of_carries whole null, Option.bind_some, if_neg (not_not.2 setWidth_null),
    decodeList_of_null whole empty (by decide), Option.bind_some,
    decodeAuxv_of_carries whole tail keys short]
  rfl

end Words

end ValkyrieRs
