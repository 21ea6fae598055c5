import ValkyrieRs.Fs

/-!
# UTF-8

The lossy decoding gives back every text from its bytes.  Where the bytes end within a character, the
part of it that is left becomes one U+FFFD.
-/

namespace ValkyrieRs

/-! ## One character -/

/-- The bytes after a leading byte: the first in `[lo, hi]`, the others continuation bytes. -/
def Continued (lo hi : U8) : List U8 → Prop
  | [] => True
  | b :: rest => (lo ≤ b ∧ b ≤ hi) ∧ Continued 0x80 0xBF rest

/-- The encoding of a character. -/
def utf8Char (c : Char) : List U8 := (String.utf8EncodeChar c).map (·.toBitVec)

section Tails

variable {lo hi b : U8} {tail rest : List U8} {need : ℕ}

theorem utf8Tail_append (continued : Continued lo hi tail) :
    utf8Tail lo hi tail.length (tail ++ rest) = tail := by
  induction tail generalizing lo hi with
  | nil => rfl
  | cons b tail ih =>
    obtain ⟨inside, more⟩ := continued
    rw [List.length_cons, List.cons_append, utf8Tail, if_pos inside, ih more]

theorem utf8Tail_short (continued : Continued lo hi tail) (short : tail.length ≤ need) :
    utf8Tail lo hi need tail = tail := by
  induction tail generalizing lo hi need with
  | nil => cases need <;> rfl
  | cons b tail ih =>
    cases need with
    | zero => cases short
    | succ need =>
      obtain ⟨inside, more⟩ := continued
      rw [utf8Tail, if_pos inside, ih more (Nat.le_of_succ_le_succ short)]

theorem Continued.take (continued : Continued lo hi tail) (n : ℕ) :
    Continued lo hi (tail.take n) := by
  induction tail generalizing lo hi n with
  | nil => simpa using continued
  | cons b tail ih =>
    cases n with
    | zero => trivial
    | succ n => exact ⟨continued.1, ih continued.2 n⟩

theorem fromUtf8Lossy_nil : fromUtf8Lossy [] = [] := by
  rw [fromUtf8Lossy]

end Tails

/-- A leading byte with all of its continuation bytes, and their code point. -/
structure Utf8Sequence (b : U8) (tail : List U8) (n : ℕ) : Prop where
  lead : ∃ lo hi, utf8Lead b = some (tail.length, lo, hi) ∧ Continued lo hi tail
  value : utf8Value b tail = n

/-- The byte of a number. -/
def byteOf (n : ℕ) : U8 := BitVec.ofNat 8 n

theorem toNat_byteOf {n : ℕ} (lt : n < 256) : (byteOf n).toNat = n := by
  rw [byteOf, BitVec.toNat_ofNat]
  exact Nat.mod_eq_of_lt lt

theorem byteOf_le {m n : ℕ} (le : m ≤ n) (lt : n < 256) : byteOf m ≤ byteOf n := by
  rw [BitVec.le_def, toNat_byteOf lt, toNat_byteOf (by omega)]
  exact le

section Lead

variable {b lo hi : U8} {need : ℕ}

/-- The leading bytes as numbers. -/
theorem utf8Lead_eq : utf8Lead b =
    if b.toNat < 0x80 then some (0, 0, 0)
    else if b.toNat < 0xC2 then none
    else if b.toNat < 0xE0 then some (1, 0x80, 0xBF)
    else if b.toNat = 0xE0 then some (2, 0xA0, 0xBF)
    else if b.toNat = 0xED then some (2, 0x80, 0x9F)
    else if b.toNat < 0xF0 then some (2, 0x80, 0xBF)
    else if b.toNat = 0xF0 then some (3, 0x90, 0xBF)
    else if b.toNat < 0xF4 then some (3, 0x80, 0xBF)
    else if b.toNat = 0xF4 then some (3, 0x80, 0x8F)
    else none := by
  simp only [utf8Lead, BitVec.lt_def, BitVec.toNat_eq]
  rfl

theorem utf8Lead_one (lt : b.toNat < 0x80) : utf8Lead b = some (0, 0, 0) := by
  rw [utf8Lead_eq, if_pos lt]

theorem utf8Lead_two (ge : 0xC2 ≤ b.toNat) (lt : b.toNat < 0xE0) :
    utf8Lead b = some (1, 0x80, 0xBF) := by
  rw [utf8Lead_eq, if_neg (by omega), if_neg (by omega), if_pos lt]

theorem utf8Lead_three (ge : 0xE0 ≤ b.toNat) (lt : b.toNat < 0xF0) : utf8Lead b =
    some (2, byteOf (if b.toNat = 0xE0 then 0xA0 else 0x80),
      byteOf (if b.toNat = 0xED then 0x9F else 0xBF)) := by
  rw [utf8Lead_eq, if_neg (by omega), if_neg (by omega), if_neg (by omega)]
  split_ifs
  all_goals first | rfl | omega

theorem utf8Lead_four (ge : 0xF0 ≤ b.toNat) (le : b.toNat ≤ 0xF4) : utf8Lead b =
    some (3, byteOf (if b.toNat = 0xF0 then 0x90 else 0x80),
      byteOf (if b.toNat = 0xF4 then 0x8F else 0xBF)) := by
  rw [utf8Lead_eq, if_neg (by omega), if_neg (by omega), if_neg (by omega),
    if_neg (by omega), if_neg (by omega), if_neg (by omega)]
  split_ifs
  all_goals first | rfl | omega

theorem utf8Lead_none (outside : 0x80 ≤ b.toNat ∧ b.toNat < 0xC2 ∨ 0xF4 < b.toNat) :
    utf8Lead b = none := by
  rcases outside with ⟨ge, lt⟩ | high
  · rw [utf8Lead_eq, if_neg (by omega), if_pos lt]
  · rw [utf8Lead_eq, if_neg (by omega), if_neg (by omega), if_neg (by omega), if_neg (by omega),
      if_neg (by omega), if_neg (by omega), if_neg (by omega), if_neg (by omega), if_neg (by omega)]

/-- The leading bytes of a number of continuation bytes. -/
theorem utf8Lead_cases (lead : utf8Lead b = some (need, lo, hi)) :
    (need = 0 ∧ b.toNat < 0x80) ∨ (need = 1 ∧ 0xC2 ≤ b.toNat ∧ b.toNat < 0xE0) ∨
      (need = 2 ∧ (0xE0 ≤ b.toNat ∧ b.toNat < 0xF0) ∧
        lo.toNat = (if b.toNat = 0xE0 then 0xA0 else 0x80) ∧
        hi.toNat = if b.toNat = 0xED then 0x9F else 0xBF) ∨
      (need = 3 ∧ (0xF0 ≤ b.toNat ∧ b.toNat ≤ 0xF4) ∧
        lo.toNat = (if b.toNat = 0xF0 then 0x90 else 0x80) ∧
        hi.toNat = if b.toNat = 0xF4 then 0x8F else 0xBF) := by
  by_cases outside : 0x80 ≤ b.toNat ∧ b.toNat < 0xC2 ∨ 0xF4 < b.toNat
  · cases (utf8Lead_none outside).symm.trans lead
  · by_cases one : b.toNat < 0x80
    · cases (utf8Lead_one one).symm.trans lead
      exact .inl ⟨rfl, one⟩
    · by_cases two : b.toNat < 0xE0
      · have ge : 0xC2 ≤ b.toNat := by omega
        cases (utf8Lead_two ge two).symm.trans lead
        exact .inr (.inl ⟨rfl, ge, two⟩)
      · by_cases three : b.toNat < 0xF0
        · cases (utf8Lead_three (not_lt.1 two) three).symm.trans lead
          refine .inr (.inr (.inl ⟨rfl, ⟨not_lt.1 two, three⟩, toNat_byteOf ?_, toNat_byteOf ?_⟩))
          · split_ifs <;> decide
          · split_ifs <;> decide
        · have le : b.toNat ≤ 0xF4 := by omega
          cases (utf8Lead_four (not_lt.1 three) le).symm.trans lead
          refine .inr (.inr (.inr ⟨rfl, ⟨not_lt.1 three, le⟩, toNat_byteOf ?_, toNat_byteOf ?_⟩))
          · split_ifs <;> decide
          · split_ifs <;> decide

end Lead

section Sequences

variable {n lo hi : ℕ} {tail : List U8}

theorem continued_cons (low : lo ≤ n) (high : n ≤ hi) (lt : hi < 256)
    (more : Continued 0x80 0xBF tail) : Continued (byteOf lo) (byteOf hi) (byteOf n :: tail) :=
  ⟨⟨byteOf_le low (by omega), byteOf_le high lt⟩, more⟩

theorem continued_mod (more : Continued 0x80 0xBF tail) :
    Continued 0x80 0xBF (byteOf (n % 64 + 0x80) :: tail) :=
  @continued_cons _ 0x80 0xBF _ (by omega) (by omega) (by omega) more

theorem utf8Sequence_one (le : n ≤ 0x7F) : Utf8Sequence (byteOf n) [] n where
  lead := ⟨_, _, utf8Lead_one (by rw [toNat_byteOf (by omega)]; omega), trivial⟩
  value := by
    simp only [utf8Value, if_true, List.foldl_nil]
    rw [toNat_byteOf (by omega)]
    omega

theorem utf8Sequence_two (ge : 0x80 ≤ n) (le : n ≤ 0x7FF) :
    Utf8Sequence (byteOf (n / 64 % 32 + 0xC0)) [byteOf (n % 64 + 0x80)] n where
  lead := by
    have first := @toNat_byteOf (n / 64 % 32 + 0xC0) (by omega)
    exact ⟨_, _, utf8Lead_two (by omega) (by omega), continued_mod trivial⟩
  value := by
    simp only [utf8Value, reduceCtorEq, if_false, List.length_singleton, List.foldl_cons,
      List.foldl_nil]
    rw [toNat_byteOf (by omega), toNat_byteOf (by omega)]
    omega

/-- A code point of three bytes is no surrogate. -/
theorem utf8Sequence_three (ge : 0x800 ≤ n) (le : n ≤ 0xFFFF)
    (scalar : n < 0xD800 ∨ 0xDFFF < n) : Utf8Sequence (byteOf (n / 4096 % 16 + 0xE0))
      [byteOf (n / 64 % 64 + 0x80), byteOf (n % 64 + 0x80)] n where
  lead := by
    have first := @toNat_byteOf (n / 4096 % 16 + 0xE0) (by omega)
    refine ⟨_, _, utf8Lead_three (by omega) (by omega),
      continued_cons ?_ ?_ ?_ (continued_mod trivial)⟩
    · split_ifs <;> omega
    · split_ifs <;> omega
    · split_ifs <;> omega
  value := by
    simp only [utf8Value, reduceCtorEq, if_false, List.length_cons, List.length_nil, List.foldl_cons,
      List.foldl_nil]
    rw [toNat_byteOf (by omega), toNat_byteOf (by omega), toNat_byteOf (by omega)]
    omega

theorem utf8Sequence_four (ge : 0x10000 ≤ n) (lt : n < 0x110000) :
    Utf8Sequence (byteOf (n / 262144 % 8 + 0xF0)) [byteOf (n / 4096 % 64 + 0x80),
      byteOf (n / 64 % 64 + 0x80), byteOf (n % 64 + 0x80)] n where
  lead := by
    have first := @toNat_byteOf (n / 262144 % 8 + 0xF0) (by omega)
    refine ⟨_, _, utf8Lead_four (by omega) (by omega),
      continued_cons ?_ ?_ ?_ (continued_mod (continued_mod trivial))⟩
    · split_ifs <;> omega
    · split_ifs <;> omega
    · split_ifs <;> omega
  value := by
    simp only [utf8Value, reduceCtorEq, if_false, List.length_cons, List.length_nil, List.foldl_cons,
      List.foldl_nil]
    rw [toNat_byteOf (by omega), toNat_byteOf (by omega), toNat_byteOf (by omega),
      toNat_byteOf (by omega)]
    omega

end Sequences

/-- The encoding of a character is a leading byte with its continuation bytes. -/
theorem utf8Char_eq (c : Char) : ∃ b tail, utf8Char c = b :: tail ∧
    Utf8Sequence b tail c.toNat := by
  have valid : c.val.toNat < 0xD800 ∨ 0xDFFF < c.val.toNat ∧ c.val.toNat < 0x110000 := c.valid
  unfold utf8Char String.utf8EncodeChar
  dsimp only
  split_ifs with one two three
  · exact ⟨_, _, rfl, utf8Sequence_one one⟩
  · exact ⟨_, _, rfl, utf8Sequence_two (n := c.val.toNat) (by omega) two⟩
  · exact ⟨_, _, rfl, utf8Sequence_three (n := c.val.toNat) (by omega) three (by omega)⟩
  · exact ⟨_, _, rfl, utf8Sequence_four (n := c.val.toNat) (by omega) (by omega)⟩

/-! ## Texts -/

section Texts

variable {c : Char} {text : List Char} {rest : List U8} {j : ℕ}

theorem utf8Bytes_cons : utf8Bytes (c :: text) = utf8Char c ++ utf8Bytes text := rfl

theorem utf8Bytes_append (a b : List Char) : utf8Bytes (a ++ b) = utf8Bytes a ++ utf8Bytes b :=
  List.flatMap_append

/-- A character is decoded from its bytes. -/
theorem fromUtf8Lossy_char : fromUtf8Lossy (utf8Char c ++ rest) = c :: fromUtf8Lossy rest := by
  obtain ⟨b, tail, here, ⟨lo, hi, lead, continued⟩, value⟩ := utf8Char_eq c
  rw [here, List.cons_append, fromUtf8Lossy]
  simp only [lead, utf8Tail_append continued, if_true, value, Char.ofNat_toNat, List.drop_left]

/-- The bytes of a text come before what is decoded next. -/
theorem fromUtf8Lossy_append : fromUtf8Lossy (utf8Bytes text ++ rest) =
    text ++ fromUtf8Lossy rest := by
  induction text with
  | nil => rfl
  | cons c text ih => rw [utf8Bytes_cons, List.append_assoc, fromUtf8Lossy_char, ih, List.cons_append]

theorem fromUtf8Lossy_utf8Bytes : fromUtf8Lossy (utf8Bytes text) = text := by
  have whole := @fromUtf8Lossy_append text []
  rwa [List.append_nil, fromUtf8Lossy_nil, List.append_nil] at whole

/-- A part of a character is one U+FFFD. -/
theorem fromUtf8Lossy_part (some : 0 < j) (part : j < (utf8Char c).length) :
    fromUtf8Lossy ((utf8Char c).take j) = [Char.ofNat 0xFFFD] := by
  obtain ⟨b, tail, here, ⟨lo, hi, lead, continued⟩, -⟩ := utf8Char_eq c
  obtain ⟨j, rfl⟩ : ∃ i, j = i + 1 := ⟨j - 1, by omega⟩
  rw [here, List.length_cons] at part
  have short : (tail.take j).length < tail.length := by
    rw [List.length_take]
    omega
  rw [here, List.take_succ_cons, fromUtf8Lossy]
  simp only [lead, utf8Tail_short (continued.take j) (Nat.le_of_lt short),
    if_neg (Nat.ne_of_lt short), List.drop_length, fromUtf8Lossy_nil]

/-- Where bytes are cut off, whole characters and a part of the next one are left. -/
theorem take_utf8Bytes {n : ℕ} (cut : n < (utf8Bytes text).length) :
    ∃ init c after j, text = init ++ c :: after ∧ j < (utf8Char c).length ∧
      n = (utf8Bytes init).length + j ∧
      (utf8Bytes text).take n = utf8Bytes init ++ (utf8Char c).take j := by
  induction text generalizing n with
  | nil => cases cut
  | cons c text ih =>
    rw [utf8Bytes_cons, List.length_append] at cut
    by_cases within : n < (utf8Char c).length
    · refine ⟨[], c, text, n, rfl, within, (Nat.zero_add n).symm, ?_⟩
      rw [utf8Bytes_cons, List.take_append_of_le_length (Nat.le_of_lt within)]
      rfl
    · obtain ⟨init, d, after, j, rfl, part, here, bytes⟩ :=
        @ih (n - (utf8Char c).length) (by omega)
      refine ⟨c :: init, d, after, j, rfl, part, ?_, ?_⟩
      · rw [utf8Bytes_cons, List.length_append]
        omega
      · rw [utf8Bytes_cons, utf8Bytes_cons, List.take_append, List.take_of_length_le (by omega),
          bytes, List.append_assoc]

end Texts

/-! ## What is decoded -/

section Values

variable {b c lo hi : U8} {tail rest : List U8} {need : ℕ}

theorem continued_utf8Tail : Continued lo hi (utf8Tail lo hi need rest) := by
  induction need generalizing lo hi rest with
  | zero => trivial
  | succ need ih =>
    cases rest with
    | nil => trivial
    | cons b rest =>
      rw [utf8Tail]
      split_ifs with inside
      · exact ⟨inside, ih⟩
      · trivial

/-- A whole sequence has the value of a character, and only the zero byte that of the zero. -/
theorem utf8Value_scalar (lead : utf8Lead b = some (tail.length, lo, hi))
    (continued : Continued lo hi tail) (nonzero : b ≠ 0) :
    utf8Value b tail ≠ 0 ∧ (utf8Value b tail).isValidChar := by
  unfold Nat.isValidChar utf8Value
  rcases utf8Lead_cases lead with
    ⟨need, small⟩ | ⟨need, range⟩ | ⟨need, range, low, high⟩ | ⟨need, range, low, high⟩
  · have positive : b.toNat ≠ 0 := fun zero => nonzero (BitVec.eq_of_toNat_eq zero)
    rw [List.length_eq_zero_iff.1 need]
    simp only [if_true, List.foldl_nil]
    omega
  · obtain ⟨c, rfl⟩ := List.length_eq_one_iff.1 need
    simp only [List.length_singleton, reduceCtorEq, if_false, List.foldl_cons, List.foldl_nil]
    omega
  · obtain ⟨c, d, rfl⟩ := List.length_eq_two.1 need
    have first : lo.toNat ≤ c.toNat ∧ c.toNat ≤ hi.toNat := continued.1
    simp only [List.length_cons, List.length_nil, reduceCtorEq, if_false, List.foldl_cons,
      List.foldl_nil]
    split_ifs at low high <;> omega
  · obtain ⟨c, d, e, rfl⟩ := List.length_eq_three.1 need
    have first : lo.toNat ≤ c.toNat ∧ c.toNat ≤ hi.toNat := continued.1
    simp only [List.length_cons, List.length_nil, reduceCtorEq, if_false, List.foldl_cons,
      List.foldl_nil]
    split_ifs at low high <;> omega

/-- Bytes without a zero are decoded to a text without one. -/
theorem zero_not_mem_fromUtf8Lossy {s : List U8} (nonzero : 0 ∉ s) :
    Char.ofNat 0 ∉ fromUtf8Lossy s := by
  induction s using fromUtf8Lossy.induct with
  | case1 =>
    rw [fromUtf8Lossy]
    exact List.not_mem_nil
  | case2 b rest lead ih =>
    rw [fromUtf8Lossy]
    simp only [lead, List.mem_cons, not_or]
    exact ⟨by decide, ih fun mem => nonzero (List.mem_cons_of_mem _ mem)⟩
  | case3 b rest need lo hi lead tail ih =>
    rw [fromUtf8Lossy]
    simp only [lead, List.mem_cons, not_or]
    refine ⟨fun same => ?_, ih fun mem => nonzero ?_⟩
    swap
    · exact List.mem_cons_of_mem _ (List.mem_of_mem_drop mem)
    split_ifs at same with full
    · have other : b ≠ 0 := fun zero => nonzero (zero ▸ List.mem_cons_self)
      rw [← full] at lead
      obtain ⟨positive, valid⟩ := utf8Value_scalar lead continued_utf8Tail other
      have value := congrArg Char.toNat same.symm
      rw [Char.ofNat, dif_pos valid] at value
      exact positive value
    · exact absurd same (by decide)

end Values
end ValkyrieRs
