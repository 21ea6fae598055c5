import Mathlib.Data.List.DropRight
import ValkyrieRs.Proof.GuestPaths
import ValkyrieRs.Proof.StatErrno
import ValkyrieRs.Proof.Utf8

/-!
# The bytes of a guest path

Between the bytes of a guest's string and the host path stand a loop of bounded length, a lossy
decoding, and the trimming of whitespace and slashes.  The host path is made of the same bytes exactly
for the texts that none of these change.
-/

namespace ValkyrieRs

open Proc

/-! ## Strings of the guest -/

/-- A byte string in mapped memory, up to its terminating zero. -/
structure GuestString (vk : Valkyrie) (ptr : U64) (s : List U8) : Prop where
  bytes : ∀ i < s.length, vk.uc.readAt (ptr + BitVec.ofNat 64 i) = s[i]?
  stop : vk.uc.readAt (ptr + BitVec.ofNat 64 s.length) = some 0
  nonzero : 0 ∉ s

/-- An absolute path in the memory of a guest, and the directory that a handler is given with it. -/
structure GuestPath where
  vk : Valkyrie
  dirfd : U32
  ptr : U64
  bytes : List U8
  held : GuestString vk ptr bytes
  absolute : bytes.head? = some 0x2F

/-- The path without its first slashes. -/
def stripSlashes (s : List U8) : List U8 := s.dropWhile (· == 0x2F)

/-- A path behind a directory. -/
def joinBytes (base path : List U8) : List U8 :=
  if base = [] ∨ base.getLast? = some 0x2F then base ++ path else base ++ 0x2F :: path

/-- What a handler does that translates the path of the string, it does with this result. -/
def GuestPath.Translates (s : GuestPath) (path : Option (List Char)) : Prop :=
  ∀ (α : Type) (f : Option (List Char) → VkM α) (r : Except ValkyrieError α) (vk' : Valkyrie),
    (readGuestCstring s.ptr >>= fun path => guestPathAt s.dirfd path >>= f).Ends s.vk r vk' ↔
      (f path).Ends s.vk r vk'

/-- The rootfs with the bytes of the string behind it, as `resolve_guest_path` has it too. -/
def GuestPath.Exact (s : GuestPath) (p : List Char) : Prop :=
  utf8Bytes p = joinBytes (utf8Bytes s.vk.cfg.rootfs) (stripSlashes s.bytes) ∧
    p = resolveGuestPath s.vk.cfg.rootfs (fromUtf8Lossy s.bytes)

/-- The host paths of two strings are exact, and they differ when the strings do.  A path with a zero
in it is none that a handler acts on. -/
def Faithful (s t : GuestPath) : Prop :=
  ∃ p q, s.Translates p ∧ t.Translates q ∧
    (∀ x ∈ p, Char.ofNat 0 ∉ x → s.Exact x) ∧ (∀ y ∈ q, Char.ofNat 0 ∉ y → t.Exact y) ∧
    (stripSlashes s.bytes ≠ stripSlashes t.bytes → ∀ x ∈ p, Char.ofNat 0 ∉ x → x ∉ q)

/-- The encoding of a text that does not end in whitespace and is not too long for the loop: a last
U+FFFD may be cut, as may slashes when there is nothing else. -/
def Kept (s : List U8) : Prop :=
  ∃ text, s = utf8Bytes text ∧ (∀ c, text.getLast? = some c → ¬ isWhitespace c) ∧
    (s.length ≤ maxPathLen ∨
      (s.length ≤ maxPathLen + 2 ∧ text.getLast? = some (Char.ofNat 0xFFFD)) ∨
      ∀ c ∈ text, c = '/')

/-! ## Reading -/

section Reading

variable {vk vk' : Valkyrie} {ptr : U64} {s : List U8}

/-- A byte that is mapped is read. -/
theorem ends_memRead_byte {addr : U64} {b : U8} (here : vk.uc.readAt addr = some b) :
    (memRead addr 1).Ends vk (.ok [b]) vk := by
  unfold Unicorn.readAt at here
  split_ifs at here with mapped
  cases here
  have single : vk.uc.Mapped addr 1 := by
    refine ⟨by omega, fun x inside => ?_⟩
    have same : x = addr := by
      unfold InRange at inside
      exact BitVec.eq_of_toNat_eq (by omega)
    rw [same]
    exact mapped
  have content : [vk.uc.bytes addr] = vk.uc.contents addr 1 := by
    show _ = [vk.uc.bytes (addr + 0#64)]
    rw [BitVec.add_zero]
  refine ends_memRead.2 ⟨by decide, ?_, rfl⟩
  exact (VMemory.read_ok_iff.2 ⟨by decide, Unicorn.memRead_ok_iff.2 ⟨single, content⟩⟩).symm

theorem GuestString.next {b : U8} (held : GuestString vk ptr (b :: s)) :
    GuestString vk (ptr + 1) s := by
  have shift (i : ℕ) : ptr + 1 + BitVec.ofNat 64 i = ptr + BitVec.ofNat 64 (i + 1) := by
    rw [BitVec.add_assoc, Nat.add_comm i, BitVec.ofNat_add]
    rfl
  refine ⟨fun i hi => ?_, ?_, fun zero => held.nonzero (List.mem_cons_of_mem _ zero)⟩
  · rw [shift, held.bytes (i + 1) (Nat.succ_lt_succ hi), List.getElem?_cons_succ]
  · rw [shift]
    exact held.stop

/-- The loop reads the string, as far as it goes. -/
theorem ends_readCstringLoop (held : GuestString vk ptr s) (n : ℕ) :
    (readCstringLoop ptr n).Ends vk (.ok (s.take n)) vk := by
  induction n generalizing ptr s with
  | zero => exact ends_pure.2 ⟨rfl, rfl⟩
  | succ n ih =>
    cases s with
    | nil =>
      have stop : vk.uc.readAt (ptr + 0#64) = some 0 := held.stop
      rw [BitVec.add_zero] at stop
      rw [readCstringLoop, (ends_memRead_byte stop).bind_iff, if_pos List.head?_cons]
      exact ends_pure.2 ⟨rfl, rfl⟩
    | cons b s =>
      have first : vk.uc.readAt (ptr + 0#64) = some b := held.bytes 0 (Nat.succ_pos _)
      rw [BitVec.add_zero] at first
      have nonzero : ¬ [b].head? = some 0 := fun zero =>
        held.nonzero (Option.some.inj zero ▸ List.mem_cons_self)
      rw [readCstringLoop, (ends_memRead_byte first).bind_iff, if_neg nonzero,
        (ih held.next).bind_iff]
      exact ends_pure.2 ⟨rfl, rfl⟩

theorem ends_readGuestCstring (held : GuestString vk ptr s) :
    (readGuestCstring ptr).Ends vk (.ok (fromUtf8Lossy (s.take maxPathLen))) vk := by
  rw [readGuestCstring, (ends_readCstringLoop held maxPathLen).bind_iff]
  exact ends_pure.2 ⟨rfl, rfl⟩

end Reading

/-! ## Slashes and whitespace -/

section Texts

variable {text a b : List Char} {c : Char}

theorem utf8Char_slash : utf8Char '/' = [0x2F] := by decide

theorem ge_of_mem_utf8Char {x : U8} (large : 0x7F < c.val.toNat) (mem : x ∈ utf8Char c) :
    0x80 ≤ x.toNat := by
  have byte (k : ℕ) (ge : 0x80 ≤ k) (lt : k < 256) : 0x80 ≤ (byteOf k).toNat := by
    rw [toNat_byteOf lt]
    exact ge
  unfold utf8Char String.utf8EncodeChar at mem
  dsimp only at mem
  rw [if_neg (by omega)] at mem
  split_ifs at mem with two three
  all_goals
    simp only [List.map_cons, List.map_nil, List.mem_cons, List.not_mem_nil, or_false] at mem
  · rcases mem with rfl | rfl <;> exact byte _ (by omega) (by omega)
  · rcases mem with rfl | rfl | rfl <;> exact byte _ (by omega) (by omega)
  · rcases mem with rfl | rfl | rfl | rfl <;> exact byte _ (by omega) (by omega)

/-- No other character has the byte of the slash. -/
theorem eq_slash_of_mem (mem : 0x2F ∈ utf8Char c) : c = '/' := by
  have small : c.val.toNat ≤ 0x7F := by
    by_contra large
    exact absurd (ge_of_mem_utf8Char (not_le.1 large) mem) (by decide)
  have single : utf8Char c = [byteOf c.val.toNat] := by
    unfold utf8Char String.utf8EncodeChar
    dsimp only
    rw [if_pos small]
    rfl
  rw [single, List.mem_singleton] at mem
  have value := congrArg BitVec.toNat mem
  rw [toNat_byteOf (by omega)] at value
  exact Char.ext (UInt32.toNat_inj.1 value.symm)

theorem utf8Char_ne_nil : utf8Char c ≠ [] := by
  obtain ⟨b, tail, here, -⟩ := utf8Char_eq c
  rw [here]
  exact List.cons_ne_nil _ _

theorem utf8Bytes_eq_nil : utf8Bytes text = [] ↔ text = [] := by
  cases text with
  | nil => exact iff_of_true rfl rfl
  | cons c text => simp [utf8Bytes_cons, utf8Char_ne_nil]

/-- The slashes in front of the bytes are those in front of the text. -/
theorem stripSlashes_utf8Bytes : stripSlashes (utf8Bytes text) = utf8Bytes (trimSlashes text) := by
  induction text with
  | nil => rfl
  | cons c text ih =>
    by_cases slash : c = '/'
    · subst slash
      exact ih
    · obtain ⟨b, tail, here, -⟩ := utf8Char_eq c
      have other : ¬ (b == 0x2F) := by
        intro same
        refine slash (eq_slash_of_mem ?_)
        rw [here, eq_of_beq same]
        exact List.mem_cons_self
      rw [stripSlashes, trimSlashes, List.dropWhile_cons_of_neg (by simpa using slash),
        utf8Bytes_cons, here]
      exact List.dropWhile_cons_of_neg other

theorem getLast?_utf8Bytes : (utf8Bytes text).getLast? = some 0x2F ↔
    text.getLast? = some '/' := by
  rcases List.eq_nil_or_concat' text with rfl | ⟨front, c, rfl⟩
  · exact iff_of_false nofun nofun
  · have single : utf8Bytes [c] = utf8Char c := List.append_nil _
    rw [utf8Bytes_append, single, List.getLast?_append_of_ne_nil _ utf8Char_ne_nil,
      List.getLast?_concat]
    constructor
    · intro last
      rw [eq_slash_of_mem (List.mem_of_getLast? last)]
    · intro last
      cases last
      rfl

theorem utf8Bytes_inj (same : utf8Bytes a = utf8Bytes b) : a = b := by
  rw [← @fromUtf8Lossy_utf8Bytes a, same, fromUtf8Lossy_utf8Bytes]

/-- Appending a relative path appends its bytes. -/
theorem utf8Bytes_push (relative : b.head? ≠ some '/') :
    utf8Bytes (push a b) = joinBytes (utf8Bytes a) (utf8Bytes b) := by
  have same : (utf8Bytes a = [] ∨ (utf8Bytes a).getLast? = some 0x2F) ↔
      (a = [] ∨ a.getLast? = some '/') := or_congr utf8Bytes_eq_nil getLast?_utf8Bytes
  rw [push, if_neg relative, joinBytes]
  by_cases ends : a = [] ∨ a.getLast? = some '/'
  · rw [if_pos ends, if_pos (same.2 ends), utf8Bytes_append]
  · rw [if_neg ends, if_neg fun h => ends (same.1 h), utf8Bytes_append, utf8Bytes_cons,
      utf8Char_slash]
    rfl

theorem joinBytes_inj {base p q : List U8} : joinBytes base p = joinBytes base q ↔ p = q := by
  unfold joinBytes
  split_ifs
  · exact List.append_right_inj _
  · rw [List.append_right_inj, List.cons.injEq, and_iff_right rfl]

/-! ### Trimming -/

theorem trim_eq (absolute : text.head? = some '/') : trim text = text.rdropWhile isWhitespace := by
  have front : text.dropWhile isWhitespace = text := by
    cases text with
    | nil => rfl
    | cons c text =>
      cases absolute
      exact List.dropWhile_cons_of_neg (by decide)
  rw [trim, front]
  rfl

theorem trim_prefix (absolute : text.head? = some '/') : ∃ rest, text = trim text ++ rest := by
  obtain ⟨rest, whole⟩ := List.rdropWhile_prefix isWhitespace text
  rw [trim_eq absolute]
  exact ⟨rest, whole.symm⟩

theorem trim_last (absolute : text.head? = some '/') (last : (trim text).getLast? = some c) :
    ¬ isWhitespace c := by
  rw [trim_eq absolute] at last
  have some_ : text.rdropWhile isWhitespace ≠ [] := by
    intro none_
    rw [none_] at last
    cases last
  rw [List.getLast?_eq_some_getLast some_] at last
  cases last
  exact List.rdropWhile_last_not isWhitespace text some_

theorem head?_trim (absolute : text.head? = some '/') : (trim text).head? = some '/' := by
  cases text with
  | nil => cases absolute
  | cons c text =>
    cases absolute
    rw [trim_eq rfl, List.rdropWhile, List.reverse_cons, List.dropWhile_append]
    split_ifs
    · rfl
    · rw [List.reverse_append]
      rfl

theorem mem_of_mem_trim (mem : c ∈ trim text) : c ∈ text := by
  have inner := (List.dropWhile_suffix _).subset (List.mem_reverse.1 mem)
  exact (List.dropWhile_suffix _).subset (List.mem_reverse.1 inner)

theorem trim_eq_self (absolute : text.head? = some '/')
    (last : ∀ c, text.getLast? = some c → ¬ isWhitespace c) : trim text = text := by
  rw [trim_eq absolute]
  exact List.rdropWhile_eq_self_iff.2 fun some_ => last _ (List.getLast?_eq_some_getLast some_)

theorem trimSlashes_append_cons (other : c ≠ '/') :
    trimSlashes (a ++ c :: b) = trimSlashes a ++ c :: b := by
  induction a with
  | nil => exact List.dropWhile_cons_of_neg (by simpa using other)
  | cons d a ih =>
    by_cases slash : d = '/'
    · subst slash
      exact ih
    · rw [List.cons_append, trimSlashes, List.dropWhile_cons_of_neg (by simpa using slash),
        trimSlashes, List.dropWhile_cons_of_neg (by simpa using slash), List.cons_append]

theorem trimSlashes_append (slashes : ∀ c ∈ a, c = '/') : trimSlashes (a ++ b) = trimSlashes b :=
  List.dropWhile_append_of_pos fun c mem => by simpa using slashes c mem

theorem trimSlashes_append_of_ne_nil (some_ : trimSlashes a ≠ []) :
    trimSlashes (a ++ b) = trimSlashes a ++ b := by
  unfold trimSlashes at some_ ⊢
  rw [List.dropWhile_append, if_neg (by simpa using some_)]

theorem trimSlashes_eq_nil : trimSlashes text = [] ↔ ∀ c ∈ text, c = '/' := by
  simp [trimSlashes, List.dropWhile_eq_nil_iff]

/-- A byte string that ends in the bytes of a relative text, after its slashes, is that of a text. -/
theorem exists_slashes {s : List U8} (same : stripSlashes s = utf8Bytes text) :
    ∃ slashes, (∀ c ∈ slashes, c = '/') ∧ s = utf8Bytes (slashes ++ text) := by
  induction s with
  | nil => exact ⟨[], nofun, same⟩
  | cons b s ih =>
    by_cases slash : b = 0x2F
    · subst slash
      obtain ⟨slashes, all, rfl⟩ := ih same
      refine ⟨'/' :: slashes, by simpa using all, ?_⟩
      rw [List.cons_append, utf8Bytes_cons, utf8Char_slash]
      rfl
    · refine ⟨[], nofun, ?_⟩
      rw [List.nil_append, ← same, stripSlashes, List.dropWhile_cons_of_neg (by simpa using slash)]

/-- What is decoded of a text whose bytes are cut off. -/
theorem fromUtf8Lossy_take {n : ℕ} (cut : n < (utf8Bytes text).length) :
    ∃ init c after j, text = init ++ c :: after ∧ j < (utf8Char c).length ∧
      n = (utf8Bytes init).length + j ∧
      fromUtf8Lossy ((utf8Bytes text).take n) =
        init ++ if j = 0 then [] else [Char.ofNat 0xFFFD] := by
  obtain ⟨init, c, after, j, whole, part, here, bytes⟩ := take_utf8Bytes cut
  refine ⟨init, c, after, j, whole, part, here, ?_⟩
  rw [bytes, fromUtf8Lossy_append]
  by_cases none_ : j = 0
  · rw [none_, if_pos rfl, List.take_zero, fromUtf8Lossy_nil]
  · rw [if_neg none_, fromUtf8Lossy_part (Nat.pos_of_ne_zero none_) part]

end Texts

/-! ## The bytes of the host path -/

section Bytes

variable {s : List U8} {text : List Char}

theorem head?_utf8Bytes (absolute : (utf8Bytes text).head? = some 0x2F) :
    text.head? = some '/' := by
  cases text with
  | nil => cases absolute
  | cons c text =>
    rw [utf8Bytes_cons, List.head?_append_of_ne_nil _ utf8Char_ne_nil] at absolute
    rw [eq_slash_of_mem (List.mem_of_head? absolute)]
    rfl

theorem length_utf8Bytes_split {init after : List Char} {c : Char} :
    (utf8Bytes (init ++ c :: after)).length =
      (utf8Bytes init).length + (utf8Char c).length + (utf8Bytes after).length := by
  rw [utf8Bytes_append, utf8Bytes_cons, List.length_append, List.length_append, Nat.add_assoc]

theorem length_utf8Char_replacement : (utf8Char (Char.ofNat 0xFFFD)).length = 3 := by decide

/-- A last U+FFFD is decoded again where it has been cut. -/
theorem fromUtf8Lossy_take_replacement {n : ℕ} (ending : text.getLast? = some (Char.ofNat 0xFFFD))
    (cut : n < (utf8Bytes text).length) (le : (utf8Bytes text).length ≤ n + 2) :
    fromUtf8Lossy ((utf8Bytes text).take n) = text := by
  obtain ⟨init, c, after, j, rfl, part, here, decoded⟩ := fromUtf8Lossy_take cut
  have total := @length_utf8Bytes_split init after c
  -- the cut goes through the last character, which has three bytes
  have alone : after = [] := by
    rcases List.eq_nil_or_concat' after with rfl | ⟨front, d, rfl⟩
    · rfl
    · rw [← List.cons_append, ← List.append_assoc, List.getLast?_concat] at ending
      cases ending
      have three : 3 ≤ (utf8Bytes (front ++ [Char.ofNat 0xFFFD])).length := by
        rw [utf8Bytes_append, List.length_append]
        exact Nat.le_add_left _ _
      omega
  subst alone
  rw [List.getLast?_concat] at ending
  cases ending
  rw [length_utf8Char_replacement] at total part
  have inside : j ≠ 0 := by
    have none_ : (utf8Bytes []).length = 0 := rfl
    omega
  rw [decoded, if_neg inside]

/-- Of slashes that are cut off, slashes are left. -/
theorem slashes_take {n : ℕ} (slashes : ∀ c ∈ text, c = '/') :
    ∀ c ∈ fromUtf8Lossy ((utf8Bytes text).take n), c = '/' := by
  induction text generalizing n with
  | nil =>
    rw [utf8Bytes, List.flatMap_nil, List.take_nil, fromUtf8Lossy_nil]
    exact nofun
  | cons c text ih =>
    cases n with
    | zero =>
      rw [List.take_zero, fromUtf8Lossy_nil]
      exact nofun
    | succ n =>
      have first : c = '/' := slashes c List.mem_cons_self
      subst first
      rw [utf8Bytes_cons, utf8Char_slash, List.singleton_append, List.take_succ_cons,
        ← List.singleton_append, ← utf8Char_slash, fromUtf8Lossy_char]
      exact List.forall_mem_cons.2 ⟨rfl, ih fun d mem => slashes d (List.mem_cons_of_mem _ mem)⟩

/-- The bytes of a text that the translation does not change. -/
theorem keeps_of_kept (absolute : s.head? = some 0x2F) (kept : Kept s) :
    utf8Bytes (trimSlashes (trim (fromUtf8Lossy (s.take maxPathLen)))) = stripSlashes s := by
  obtain ⟨text, rfl, last, length⟩ := kept
  have whole (decoded : fromUtf8Lossy ((utf8Bytes text).take maxPathLen) = text) :
      utf8Bytes (trimSlashes (trim (fromUtf8Lossy ((utf8Bytes text).take maxPathLen)))) =
        stripSlashes (utf8Bytes text) := by
    rw [decoded, trim_eq_self (head?_utf8Bytes absolute) last, stripSlashes_utf8Bytes]
  by_cases short : (utf8Bytes text).length ≤ maxPathLen
  · exact whole (by rw [List.take_of_length_le short, fromUtf8Lossy_utf8Bytes])
  · rcases length.resolve_left short with ⟨long, ending⟩ | slashes
    · exact whole (fromUtf8Lossy_take_replacement ending (not_le.1 short) long)
    · have left : ∀ c ∈ trim (fromUtf8Lossy ((utf8Bytes text).take maxPathLen)), c = '/' :=
        fun c mem => slashes_take slashes c (mem_of_mem_trim mem)
      rw [stripSlashes_utf8Bytes, trimSlashes_eq_nil.2 left, trimSlashes_eq_nil.2 slashes]

theorem head?_fromUtf8Lossy (absolute : s.head? = some 0x2F) :
    (fromUtf8Lossy s).head? = some '/' := by
  cases s with
  | nil => cases absolute
  | cons b s =>
    cases absolute
    have first := @fromUtf8Lossy_char '/' s
    rw [utf8Char_slash, List.singleton_append] at first
    rw [first]
    rfl

/-- What is left of a text in front of which slashes have been put is the text. -/
theorem getLast?_trimmed {c : Char} (absolute : text.head? = some '/')
    (last : (trimSlashes (trim text)).getLast? = some c) : ¬ isWhitespace c := by
  refine trim_last absolute ?_
  have split : (trim text).takeWhile (· == '/') ++ trimSlashes (trim text) = trim text :=
    List.takeWhile_append_dropWhile
  have some_ : trimSlashes (trim text) ≠ [] := by
    intro none_
    rw [none_] at last
    cases last
  rw [← split, List.getLast?_append_of_ne_nil _ some_, last]

/-- Where the bytes are cut off, a text is left as it is only when a last U+FFFD has been cut, or
slashes that nothing follows. -/
theorem cut_of_keeps {init after : List Char} {c : Char} {j : ℕ}
    (absolute : init.head? = some '/') (part : j < (utf8Char c).length)
    (keeps : trimSlashes (trim (init ++ if j = 0 then [] else [Char.ofNat 0xFFFD])) =
      trimSlashes (init ++ c :: after)) :
    (0 < j ∧ c = Char.ofNat 0xFFFD ∧ after = []) ∨ ∀ d ∈ init ++ c :: after, d = '/' := by
  by_cases none_ : j = 0
  · right
    rw [if_pos none_, List.append_nil] at keeps
    obtain ⟨rest, whole⟩ := trim_prefix absolute
    generalize trim init = front at keeps whole
    subst whole
    rw [List.append_assoc] at keeps
    by_cases slashes : trimSlashes front = []
    · rw [slashes] at keeps
      rw [List.append_assoc]
      exact trimSlashes_eq_nil.1 keeps.symm
    · rw [trimSlashes_append_of_ne_nil slashes] at keeps
      simp at keeps
  · left
    have plain : c ≠ '/' := by
      rintro rfl
      rw [utf8Char_slash, List.length_singleton] at part
      omega
    have front : (init ++ [Char.ofNat 0xFFFD]).head? = some '/' := by
      rw [List.head?_append, absolute]
      rfl
    have back : ∀ d, (init ++ [Char.ofNat 0xFFFD]).getLast? = some d → ¬ isWhitespace d := by
      intro d last
      rw [List.getLast?_concat] at last
      cases last
      decide
    rw [if_neg none_, trim_eq_self front back, trimSlashes_append_cons (by decide),
      trimSlashes_append_cons plain, List.append_cancel_left_eq] at keeps
    obtain ⟨same, alone⟩ := List.cons.inj keeps
    exact ⟨Nat.pos_of_ne_zero none_, same.symm, alone.symm⟩

/-- A text that is too long is left as it is only in these cases. -/
theorem long_of_keeps {n : ℕ} (absolute : text.head? = some '/') (positive : 0 < n)
    (cut : n < (utf8Bytes text).length)
    (keeps : trimSlashes (trim (fromUtf8Lossy ((utf8Bytes text).take n))) = trimSlashes text) :
    ((utf8Bytes text).length ≤ n + 2 ∧ text.getLast? = some (Char.ofNat 0xFFFD)) ∨
      ∀ c ∈ text, c = '/' := by
  obtain ⟨init, c, after, j, rfl, part, here, decoded⟩ := fromUtf8Lossy_take cut
  have total := @length_utf8Bytes_split init after c
  have front : init.head? = some '/' := by
    cases init with
    | nil =>
      cases absolute
      rw [utf8Char_slash, List.length_singleton] at part
      exact absurd (here.trans (Nat.zero_add j)) (by omega)
    | cons d init => exact absolute
  rw [decoded] at keeps
  refine (cut_of_keeps front part keeps).imp ?_ id
  rintro ⟨some_, rfl, rfl⟩
  rw [length_utf8Char_replacement] at total part
  refine ⟨?_, List.getLast?_concat⟩
  rw [total, here]
  show _ + 0 ≤ _
  omega

/-- Only such a text is not changed. -/
theorem kept_of_keeps (absolute : s.head? = some 0x2F)
    (keeps : utf8Bytes (trimSlashes (trim (fromUtf8Lossy (s.take maxPathLen)))) =
      stripSlashes s) : Kept s := by
  have positive : 0 < maxPathLen := by decide
  have start : (fromUtf8Lossy (s.take maxPathLen)).head? = some '/' := by
    apply head?_fromUtf8Lossy
    rw [List.head?_take, if_neg positive.ne', absolute]
  obtain ⟨slashes, all, whole⟩ := exists_slashes keeps.symm
  refine ⟨_, whole, fun c last => ?_, or_iff_not_imp_left.2 fun long => ?_⟩
  · by_cases none_ : trimSlashes (trim (fromUtf8Lossy (s.take maxPathLen))) = []
    · rw [none_, List.append_nil] at last
      rw [all c (List.mem_of_getLast? last)]
      decide
    · rw [List.getLast?_append_of_ne_nil _ none_] at last
      exact getLast?_trimmed start last
  · have same : trimSlashes (trim (fromUtf8Lossy (s.take maxPathLen))) =
        trimSlashes (slashes ++ trimSlashes (trim (fromUtf8Lossy (s.take maxPathLen)))) := by
      rw [trimSlashes_append all, trimSlashes, trimSlashes, List.dropWhile_idempotent]
    generalize slashes ++ trimSlashes (trim (fromUtf8Lossy (s.take maxPathLen))) = text at whole same
    subst whole
    exact long_of_keeps (head?_utf8Bytes absolute) positive (not_le.1 long) same

theorem keeps_iff_kept (absolute : s.head? = some 0x2F) :
    utf8Bytes (trimSlashes (trim (fromUtf8Lossy (s.take maxPathLen)))) = stripSlashes s ↔ Kept s :=
  ⟨kept_of_keeps absolute, keeps_of_kept absolute⟩

end Bytes

/-! ## The host path -/

namespace GuestPath

variable {s t : GuestPath} {p : Option (List Char)}

/-- The path that a handler acts on. -/
def hostPath (s : GuestPath) : List Char :=
  push s.vk.cfg.rootfs (trimSlashes (trim (fromUtf8Lossy (s.bytes.take maxPathLen))))

theorem getPathAt_hostPath : getPathAt s.vk.cfg.rootfs s.vk.host.cwd s.vk.fdTable s.dirfd
    (fromUtf8Lossy (s.bytes.take maxPathLen)) = some (some s.hostPath) := by
  have positive : maxPathLen ≠ 0 := by decide
  have start : (fromUtf8Lossy (s.bytes.take maxPathLen)).head? = some '/' := by
    apply head?_fromUtf8Lossy
    rw [List.head?_take, if_neg positive, s.absolute]
  exact if_pos (head?_trim start)

theorem translates_hostPath : s.Translates (some s.hostPath) := by
  intro α f r vk'
  rw [(ends_readGuestCstring s.held).bind_iff, ends_bind_guestPathAt, getPathAt_hostPath]
  simp

theorem translates_iff : s.Translates p ↔ p = some s.hostPath := by
  constructor
  · intro translates
    have run : (pure p : VkM (Option (List Char))).Ends s.vk (.ok p) s.vk := ends_pure.2 ⟨rfl, rfl⟩
    have other := (translates_hostPath _ pure _ _).1 ((translates _ pure _ _).2 run)
    exact Except.ok.inj (ends_pure.1 other).1
  · rintro rfl
    exact translates_hostPath

theorem exact_hostPath_iff : s.Exact s.hostPath ↔ Kept s.bytes := by
  have bytes : utf8Bytes s.hostPath = joinBytes (utf8Bytes s.vk.cfg.rootfs) (stripSlashes s.bytes) ↔
      Kept s.bytes := by
    rw [hostPath, utf8Bytes_push trimSlashes_relative, joinBytes_inj, keeps_iff_kept s.absolute]
  constructor
  · exact fun exact => bytes.1 exact.1
  · intro kept
    refine ⟨bytes.2 kept, ?_⟩
    have same := keeps_of_kept s.absolute kept
    obtain ⟨text, here, -, -⟩ := kept
    rw [resolveGuestPath, if_pos (head?_fromUtf8Lossy s.absolute), here, fromUtf8Lossy_utf8Bytes,
      hostPath]
    rw [here, stripSlashes_utf8Bytes] at same
    rw [here, utf8Bytes_inj same]

/-- Only the rootfs puts a zero into the path. -/
theorem zero_mem_hostPath_iff : Char.ofNat 0 ∈ s.hostPath ↔ Char.ofNat 0 ∈ s.vk.cfg.rootfs := by
  have clean : Char.ofNat 0 ∉ trimSlashes (trim (fromUtf8Lossy (s.bytes.take maxPathLen))) := by
    intro mem
    refine zero_not_mem_fromUtf8Lossy (fun zero => s.held.nonzero (List.mem_of_mem_take zero))
      (mem_of_mem_trim ((List.dropWhile_suffix _).subset mem))
  rw [hostPath, push, if_neg trimSlashes_relative]
  split_ifs
  · rw [List.mem_append, or_iff_left clean]
  · rw [List.mem_append, List.mem_cons, or_iff_left]
    rintro (slash | mem)
    · exact absurd slash (by decide)
    · exact clean mem

end GuestPath

/-- `unlink` asks the host about the path, unless the rootfs has a zero in it. -/
theorem ends_sysUnlink {s : GuestPath} {sctx : SubCtx} {r : Except ValkyrieError U64} {vk' : Valkyrie}
    (arg : sctx.arg0 = s.ptr) (cwd : s.dirfd = atFdcwd) : (sysUnlink sctx).Ends s.vk r vk' ↔
      if Char.ofNat 0 ∈ s.vk.cfg.rootfs then r = .ok (negErrno EINVAL) ∧ vk' = s.vk
      else r = .ok (if s.vk.host.answer.ok then 0 else negErrno s.vk.host.answer.errno) ∧
        vk' = s.vk.withHost (s.vk.host.unlink s.hostPath).2 := by
  unfold sysUnlink
  rw [arg, ← cwd]
  refine (GuestPath.translates_hostPath _ _ _ _).trans ?_
  dsimp only
  by_cases zero : Char.ofNat 0 ∈ s.vk.cfg.rootfs
  · rw [if_pos zero, if_pos (GuestPath.zero_mem_hostPath_iff.2 zero), ends_pure]
  · rw [if_neg zero, if_neg fun mem => zero (GuestPath.zero_mem_hostPath_iff.1 mem),
      ends_bind_hostCall, Host.unlink, Host.ask]
    by_cases ok : s.vk.host.answer.ok
    · rw [if_pos ok, if_pos ok, ends_pure]
    · rw [if_neg ok, if_neg ok, ends_lastErrno]
      rfl

/-- The host paths of two guest paths are exact, and different for different paths, exactly when the
guest paths are texts that the translation does not change, or the rootfs is none of a C string. -/
theorem faithful_iff_kept (s t : GuestPath) (same : s.vk.cfg.rootfs = t.vk.cfg.rootfs) :
    Faithful s t ↔ Char.ofNat 0 ∈ s.vk.cfg.rootfs ∨ (Kept s.bytes ∧ Kept t.bytes) := by
  constructor
  · rintro ⟨p, q, first, second, exact, exact', -⟩
    rw [GuestPath.translates_iff] at first second
    refine or_iff_not_imp_left.2 fun clean => ⟨?_, ?_⟩
    · exact GuestPath.exact_hostPath_iff.1
        (exact _ first fun zero => clean (GuestPath.zero_mem_hostPath_iff.1 zero))
    · refine GuestPath.exact_hostPath_iff.1 (exact' _ second fun zero => ?_)
      exact clean (same ▸ GuestPath.zero_mem_hostPath_iff.1 zero)
  · intro kept
    refine ⟨_, _, GuestPath.translates_hostPath, GuestPath.translates_hostPath, ?_, ?_, ?_⟩
    · rintro _ ⟨⟩ clean
      have plain := kept.resolve_left fun zero => clean (GuestPath.zero_mem_hostPath_iff.2 zero)
      exact GuestPath.exact_hostPath_iff.2 plain.1
    · rintro _ ⟨⟩ clean
      have plain := kept.resolve_left fun zero =>
        clean (GuestPath.zero_mem_hostPath_iff.2 (same ▸ zero))
      exact GuestPath.exact_hostPath_iff.2 plain.2
    · rintro differ _ ⟨⟩ clean shared
      have plain := kept.resolve_left fun zero => clean (GuestPath.zero_mem_hostPath_iff.2 zero)
      have first := (GuestPath.exact_hostPath_iff.2 plain.1).1
      have second := (GuestPath.exact_hostPath_iff.2 plain.2).1
      rw [← Option.some.inj shared, second, same, joinBytes_inj] at first
      exact differ first.symm

/-! ## Two names -/

/-- A guest of X86 below the root, with `/a` at `0x1000`, `/a ` at `0x1010` and `/é` at `0x1020`. -/
def namesGuest : Valkyrie :=
  let vk := Valkyrie.ofMemory .x86 ⟨[⟨0x1000, 0x1000, .all, "[data]"⟩], 0, 0⟩
  let text : List U8 := [0x2F, 0x61]
  { vk with uc := { vk.uc with
    bytes := fun a =>
      if a.toNat < 0x1010 then text.getD (a.toNat - 0x1000) 0
      else if a.toNat < 0x1020 then (text ++ [0x20]).getD (a.toNat - 0x1010) 0
      else [0x2F, 0xC3, 0xA9].getD (a.toNat - 0x1020) 0 } }

/-- `/a`. -/
def plainName : GuestPath where
  vk := namesGuest
  dirfd := atFdcwd
  ptr := 0x1000
  bytes := [0x2F, 0x61]
  held := ⟨by decide, by decide, by decide⟩
  absolute := rfl

/-- `/a ` with a space at its end. -/
def spacedName : GuestPath where
  vk := namesGuest
  dirfd := atFdcwd
  ptr := 0x1010
  bytes := [0x2F, 0x61, 0x20]
  held := ⟨by decide, by decide, by decide⟩
  absolute := rfl

/-- `/é`. -/
def accentedName : GuestPath where
  vk := namesGuest
  dirfd := atFdcwd
  ptr := 0x1020
  bytes := [0x2F, 0xC3, 0xA9]
  held := ⟨by decide, by decide, by decide⟩
  absolute := rfl

theorem faithful_iff_kept_accentedName :
    stripSlashes plainName.bytes ≠ stripSlashes accentedName.bytes ∧
      Faithful plainName accentedName := by
  have plain : Kept plainName.bytes := by
    refine ⟨['/', 'a'], by decide, fun c last => ?_, .inl (by decide)⟩
    cases last
    decide
  have accented : Kept accentedName.bytes := by
    refine ⟨['/', 'é'], by decide, fun c last => ?_, .inl (by decide)⟩
    cases last
    decide
  exact ⟨by decide, (faithful_iff_kept plainName accentedName rfl).2 (.inr ⟨plain, accented⟩)⟩

theorem plainName_hostPath : plainName.hostPath = ['/', 'a'] := by
  have text : plainName.bytes.take maxPathLen = utf8Bytes ['/', 'a'] := by decide
  rw [GuestPath.hostPath, text, fromUtf8Lossy_utf8Bytes]
  decide

theorem spacedName_hostPath : spacedName.hostPath = ['/', 'a'] := by
  have text : spacedName.bytes.take maxPathLen = utf8Bytes ['/', 'a', ' '] := by decide
  rw [GuestPath.hostPath, text, fromUtf8Lossy_utf8Bytes]
  decide

/-- Both names are the same file of the host. -/
theorem space_lost : ¬ ∀ s t : GuestPath, s.vk.cfg.rootfs = t.vk.cfg.rootfs → Faithful s t := by
  intro always
  obtain ⟨p, q, first, second, -, -, apart⟩ := always plainName spacedName rfl
  rw [GuestPath.translates_iff, plainName_hostPath] at first
  rw [GuestPath.translates_iff, spacedName_hostPath] at second
  exact apart (by decide) ['/', 'a'] first (by decide) second

end ValkyrieRs
