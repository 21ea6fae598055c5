import ValkyrieRs.Host

/-!
# Paths and guest descriptors

`fs.rs`: the translation of guest paths and the table of guest descriptors.  Texts are lists of
characters; the standard library's lossy UTF-8 decoding, `trim` and `PathBuf::push` are written
out.
-/

namespace ValkyrieRs

/-- A host file owned by the table; `file` is its host descriptor. -/
structure VkFile where
  file : U32
  path : List Char
  flags : U64
  mode : U64
deriving DecidableEq

/-- The open files by their numbers. -/
abbrev FdTable := AList fun _ : U64 => VkFile

/-! ## Text -/

/-- `String::as_bytes`. -/
def utf8Bytes (text : List Char) : List U8 :=
  text.flatMap fun c => (String.utf8EncodeChar c).map (·.toBitVec)

/-- The continuation bytes that a leading byte asks for, and the range of the first of them. -/
def utf8Lead (b : U8) : Option (ℕ × U8 × U8) :=
  if b < 0x80 then some (0, 0, 0)
  else if b < 0xC2 then none
  else if b < 0xE0 then some (1, 0x80, 0xBF)
  else if b = 0xE0 then some (2, 0xA0, 0xBF)
  else if b = 0xED then some (2, 0x80, 0x9F)
  else if b < 0xF0 then some (2, 0x80, 0xBF)
  else if b = 0xF0 then some (3, 0x90, 0xBF)
  else if b < 0xF4 then some (3, 0x80, 0xBF)
  else if b = 0xF4 then some (3, 0x80, 0x8F)
  else none

/-- The longest prefix of continuation bytes, at most `need`, the first in `[lo, hi]`. -/
def utf8Tail (lo hi : U8) : ℕ → List U8 → List U8
  | need + 1, b :: rest => if lo ≤ b ∧ b ≤ hi then b :: utf8Tail 0x80 0xBF need rest else []
  | _, _ => []

/-- The code point of a leading byte and its continuation bytes. -/
def utf8Value (b : U8) (tail : List U8) : ℕ :=
  tail.foldl (fun v c => v * 64 + c.toNat % 64) (b.toNat % 2 ^ (if tail = [] then 7 else 6 - tail.length))

/-- `String::from_utf8_lossy`: each maximal invalid part becomes one U+FFFD. -/
def fromUtf8Lossy : List U8 → List Char
  | [] => []
  | b :: rest =>
    match utf8Lead b with
    | none => Char.ofNat 0xFFFD :: fromUtf8Lossy rest
    | some (need, lo, hi) =>
      let tail := utf8Tail lo hi need rest
      let c := if tail.length = need then utf8Value b tail else 0xFFFD
      Char.ofNat c :: fromUtf8Lossy (rest.drop tail.length)
termination_by l => l.length
decreasing_by all_goals simp only [List.length_drop, List.length_cons]; omega

/-- `char::is_whitespace`. -/
def isWhitespace (c : Char) : Bool :=
  let n := c.toNat
  (9 ≤ n && n ≤ 13) || n == 0x20 || n == 0x85 || n == 0xA0 || n == 0x1680 ||
    (0x2000 ≤ n && n ≤ 0x200A) || n == 0x2028 || n == 0x2029 || n == 0x202F || n == 0x205F ||
    n == 0x3000

/-- `str::trim`. -/
def trim (s : List Char) : List Char :=
  ((s.dropWhile isWhitespace).reverse.dropWhile isWhitespace).reverse

/-- `trim_start_matches('/')`. -/
def trimSlashes (s : List Char) : List Char := s.dropWhile (· == '/')

/-- `PathBuf::push`: an absolute path replaces, another is appended behind a separator. -/
def push (base path : List Char) : List Char :=
  if path.head? = some '/' then path
  else if base = [] ∨ base.getLast? = some '/' then base ++ path
  else base ++ '/' :: path

/-! ## Paths -/

/-- `get_cwd_path`, whose one error is that the host has no current directory. -/
def getCwdPath (rootfs : List Char) (cwd : Option (List Char)) : Option (List Char) :=
  cwd.map fun cwd =>
    if cwd = [] ∨ cwd = ['/'] then rootfs else push rootfs (trimSlashes cwd)

/-- `get_path_at`; the outer `none` is the panic when the host has no current directory. -/
def getPathAt (rootfs : List Char) (cwd : Option (List Char)) (table : FdTable) (dirfd : U32)
    (fileName : List Char) : Option (Option (List Char)) :=
  let stripped := trim fileName
  if stripped.head? = some '/' then some (some (push rootfs (trimSlashes stripped)))
  else if dirfd ≠ atFdcwd then
    some ((table.lookup (dirfd.signExtend 64)).map fun df => push df.path (trimSlashes stripped))
  else (getCwdPath rootfs cwd).map fun dir => some (push dir (trimSlashes stripped))

/-- `resolve_guest_path`. -/
def resolveGuestPath (rootfs path : List Char) : List Char :=
  if path.head? = some '/' then push rootfs (trimSlashes path) else push rootfs path

end ValkyrieRs
