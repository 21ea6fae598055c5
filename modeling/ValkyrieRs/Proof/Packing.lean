import ValkyrieRs.Syscall.Stat

/-!
# The packed structures

The structures that the kernel gives to a guest, read at the offsets and widths of their fields.
Each packer of `fs.rs` and `os/syscall/io.rs` lays out its source fields so that they are read back
there, reduced to the width of the field, with zeroed padding.
-/

namespace ValkyrieRs

/-! ## The kernel's structures -/

/-- `struct stat64` of x86. -/
structure X86Stat64 where
  stDev : U64
  pad0 : U32
  stIno32 : U32
  stMode : U32
  stNlink : U32
  stUid : U32
  stGid : U32
  stRdev : U64
  pad3 : U32
  stSize : U64
  stBlksize : U32
  stBlocks : U64
  stAtime : U32
  stAtimeNsec : U32
  stMtime : U32
  stMtimeNsec : U32
  stCtime : U32
  stCtimeNsec : U32
  stIno : U64
deriving DecidableEq

/-- The structure in memory. -/
def X86Stat64.ofBytes (bytes : List U8) : X86Stat64 where
  stDev := leAt bytes 0 8
  pad0 := (leAt bytes 8 4).setWidth 32
  stIno32 := (leAt bytes 12 4).setWidth 32
  stMode := (leAt bytes 16 4).setWidth 32
  stNlink := (leAt bytes 20 4).setWidth 32
  stUid := (leAt bytes 24 4).setWidth 32
  stGid := (leAt bytes 28 4).setWidth 32
  stRdev := leAt bytes 32 8
  pad3 := (leAt bytes 40 4).setWidth 32
  stSize := leAt bytes 44 8
  stBlksize := (leAt bytes 52 4).setWidth 32
  stBlocks := leAt bytes 56 8
  stAtime := (leAt bytes 64 4).setWidth 32
  stAtimeNsec := (leAt bytes 68 4).setWidth 32
  stMtime := (leAt bytes 72 4).setWidth 32
  stMtimeNsec := (leAt bytes 76 4).setWidth 32
  stCtime := (leAt bytes 80 4).setWidth 32
  stCtimeNsec := (leAt bytes 84 4).setWidth 32
  stIno := leAt bytes 88 8

/-- The fields of the host's structure, reduced to the widths of x86. -/
def Stat.toX86 (st : Stat) : X86Stat64 where
  stDev := st.stDev
  pad0 := 0
  stIno32 := st.stIno.setWidth 32
  stMode := st.stMode
  stNlink := st.stNlink.setWidth 32
  stUid := st.stUid
  stGid := st.stGid
  stRdev := st.stRdev
  pad3 := 0
  stSize := st.stSize
  stBlksize := st.stBlksize.setWidth 32
  stBlocks := st.stBlocks
  stAtime := st.stAtime.setWidth 32
  stAtimeNsec := st.stAtimeNsec.setWidth 32
  stMtime := st.stMtime.setWidth 32
  stMtimeNsec := st.stMtimeNsec.setWidth 32
  stCtime := st.stCtime.setWidth 32
  stCtimeNsec := st.stCtimeNsec.setWidth 32
  stIno := st.stIno

/-- `struct statfs` and `struct statfs64` of x86, whose counts have `bits` bits; `f_fsid` and
`f_spare` by their bytes. -/
structure X86Statfs (bits : ℕ) where
  fType : U32
  fBsize : U32
  fBlocks : BitVec bits
  fBfree : BitVec bits
  fBavail : BitVec bits
  fFiles : BitVec bits
  fFfree : BitVec bits
  fFsid : List U8
  fNamelen : U32
  fFrsize : U32
  fFlags : U32
  fSpare : List U8
deriving DecidableEq

/-- `struct statfs` in memory. -/
def X86Statfs.ofBytes (bytes : List U8) : X86Statfs 32 where
  fType := (leAt bytes 0 4).setWidth 32
  fBsize := (leAt bytes 4 4).setWidth 32
  fBlocks := (leAt bytes 8 4).setWidth 32
  fBfree := (leAt bytes 12 4).setWidth 32
  fBavail := (leAt bytes 16 4).setWidth 32
  fFiles := (leAt bytes 20 4).setWidth 32
  fFfree := (leAt bytes 24 4).setWidth 32
  fFsid := (bytes.drop 28).take 8
  fNamelen := (leAt bytes 36 4).setWidth 32
  fFrsize := (leAt bytes 40 4).setWidth 32
  fFlags := (leAt bytes 44 4).setWidth 32
  fSpare := (bytes.drop 48).take 16

/-- `struct statfs64`, which is packed, in memory. -/
def X86Statfs.ofBytes64 (bytes : List U8) : X86Statfs 64 where
  fType := (leAt bytes 0 4).setWidth 32
  fBsize := (leAt bytes 4 4).setWidth 32
  fBlocks := leAt bytes 8 8
  fBfree := leAt bytes 16 8
  fBavail := leAt bytes 24 8
  fFiles := leAt bytes 32 8
  fFfree := leAt bytes 40 8
  fFsid := (bytes.drop 48).take 8
  fNamelen := (leAt bytes 56 4).setWidth 32
  fFrsize := (leAt bytes 60 4).setWidth 32
  fFlags := (leAt bytes 64 4).setWidth 32
  fSpare := (bytes.drop 68).take 16

/-- The fields of the host's structure, reduced to the widths of x86. -/
def Statfs64.toX86 (bits : ℕ) (st : Statfs64) : X86Statfs bits where
  fType := st.fType.setWidth 32
  fBsize := st.fBsize.setWidth 32
  fBlocks := st.fBlocks.setWidth bits
  fBfree := st.fBfree.setWidth bits
  fBavail := st.fBavail.setWidth bits
  fFiles := st.fFiles.setWidth bits
  fFfree := st.fFfree.setWidth bits
  fFsid := st.fFsid.toList
  fNamelen := st.fNamelen.setWidth 32
  fFrsize := st.fFrsize.setWidth 32
  fFlags := st.fFlags.setWidth 32
  fSpare := List.replicate 16 0

/-! ## Reading in a concatenation -/

section Reading

variable {w n o k : ℕ} (v : BitVec w) (bytes rest : List U8)

theorem drop_skip (h : bytes.length ≤ o) :
    (bytes ++ rest).drop o = rest.drop (o - bytes.length) := by
  rw [List.drop_append, List.drop_eq_nil_of_le h, List.nil_append]

/-- A field is passed over. -/
theorem leAt_skip (h : bytes.length ≤ o) :
    leAt (bytes ++ rest) o k = leAt rest (o - bytes.length) k := by
  rw [leAt, drop_skip bytes rest h, leAt]

/-- A field is read at its place. -/
theorem leAt_here : leAt (toLeBytes n v ++ rest) 0 n = (v.setWidth (8 * n)).setWidth 64 := by
  rw [leAt, List.drop_zero, List.take_left' (length_toLeBytes v), fromLeBytes_toLeBytes]

theorem leAt_last (v : U64) : leAt (toLeBytes 8 v) 0 8 = v := by
  rw [← List.append_nil (toLeBytes 8 v), leAt_here, BitVec.setWidth_setWidth_of_le _ (by decide),
    BitVec.setWidth_eq]

theorem leAt_quad (v : U64) : leAt (toLeBytes 8 v ++ rest) 0 8 = v := by
  rw [leAt_here, BitVec.setWidth_setWidth_of_le _ (by decide), BitVec.setWidth_eq]

/-- A field is read with as many bits as it is asked for. -/
theorem setWidth_leAt_here (fits : k ≤ 8 * n) (small : k ≤ 64) :
    (leAt (toLeBytes n v ++ rest) 0 n).setWidth k = v.setWidth k := by
  rw [leAt_here, BitVec.setWidth_setWidth_of_le _ small, BitVec.setWidth_setWidth_of_le _ fits]

theorem leAt_add (i : ℕ) : leAt bytes (o + i) n = leAt (bytes.drop o) i n := by
  rw [leAt, leAt, List.drop_drop]

/-- A word of an array. -/
theorem leAt_flatMap (words : List U64) {i : ℕ} (hi : i < words.length) :
    leAt (words.flatMap fun x => toLeBytes 8 x) (8 * i) 8 = words[i] := by
  induction words generalizing i with
  | nil => simp at hi
  | cons word words ih =>
    rw [List.flatMap_cons]
    cases i with
    | zero => exact leAt_quad _ _
    | succ i =>
      have next : 8 * (i + 1) - (toLeBytes 8 word).length = 8 * i := by
        rw [length_toLeBytes]
        omega
      rw [leAt_skip _ _ (by rw [length_toLeBytes]; omega), next, ih (by simpa using hi),
        List.getElem_cons_succ]

end Reading

/-! ## The packers -/

variable {o : ℕ} (bytes rest : List U8)

theorem length_packTimestampLe (ts : StatxTimestamp) : (packTimestampLe ts).length = 16 := by
  simp [packTimestampLe]

theorem length_packStatxLe (st : Statx) : (packStatxLe st).length = 256 := by
  unfold packStatxLe
  simp [length_packTimestampLe, List.length_flatMap]

theorem length_packLinuxX86Stat64Le (st : Stat) : (packLinuxX86Stat64Le st).length = 96 := by
  unfold packLinuxX86Stat64Le
  simp

theorem length_packLinuxX86StatfsLe (st : Statfs64) : (packLinuxX86StatfsLe st).length = 64 := by
  unfold packLinuxX86StatfsLe
  simp

theorem length_packLinuxX86Statfs64Le (st : Statfs64) :
    (packLinuxX86Statfs64Le st).length = 84 := by
  unfold packLinuxX86Statfs64Le
  simp

theorem ofBytes_packLinuxX86Stat64Le (st : Stat) :
    X86Stat64.ofBytes (packLinuxX86Stat64Le st) = st.toX86 := by
  unfold packLinuxX86Stat64Le
  simp [X86Stat64.ofBytes, Stat.toX86, leAt_skip, leAt_quad, leAt_last, setWidth_leAt_here]

theorem ofBytes_packLinuxX86StatfsLe (st : Statfs64) :
    X86Statfs.ofBytes (packLinuxX86StatfsLe st) = st.toX86 32 := by
  unfold packLinuxX86StatfsLe
  simp [X86Statfs.ofBytes, Statfs64.toX86, leAt_skip, drop_skip, setWidth_leAt_here]

theorem ofBytes64_packLinuxX86Statfs64Le (st : Statfs64) :
    X86Statfs.ofBytes64 (packLinuxX86Statfs64Le st) = st.toX86 64 := by
  unfold packLinuxX86Statfs64Le
  simp [X86Statfs.ofBytes64, Statfs64.toX86, leAt_skip, leAt_quad, drop_skip, setWidth_leAt_here]

theorem StatxTimestamp.ofBytes_skip (h : bytes.length ≤ o) :
    StatxTimestamp.ofBytes (bytes ++ rest) o = .ofBytes rest (o - bytes.length) := by
  have eight : o + 8 - bytes.length = o - bytes.length + 8 := by omega
  have twelve : o + 12 - bytes.length = o - bytes.length + 12 := by omega
  rw [StatxTimestamp.ofBytes, leAt_skip _ _ h, leAt_skip _ _ (by omega), leAt_skip _ _ (by omega),
    eight, twelve, StatxTimestamp.ofBytes]

theorem StatxTimestamp.ofBytes_here (ts : StatxTimestamp) (rest : List U8) :
    StatxTimestamp.ofBytes (packTimestampLe ts ++ rest) 0 = ts := by
  simp [StatxTimestamp.ofBytes, packTimestampLe, leAt_skip, leAt_quad, setWidth_leAt_here]

theorem statx_round_trip (st : Statx) : Statx.ofBytes (packStatxLe st) = st := by
  have spare : (packStatxLe st).drop 152 = st.spare2.toList.flatMap fun x => toLeBytes 8 x := by
    unfold packStatxLe
    simp [length_packTimestampLe, drop_skip]
  have words : ∀ i : Fin 13, leAt (packStatxLe st) (152 + 8 * i) 8 = st.spare2[i] := by
    intro i
    rw [leAt_add, spare, leAt_flatMap _ (by simp)]
    rfl
  have last : (Vector.ofFn fun i : Fin 13 => leAt (packStatxLe st) (152 + 8 * i) 8) = st.spare2 := by
    refine Vector.ext fun i hi => ?_
    rw [Vector.getElem_ofFn]
    exact words ⟨i, hi⟩
  rw [Statx.ofBytes, last]
  unfold packStatxLe
  simp [length_packTimestampLe, leAt_skip, leAt_quad, setWidth_leAt_here,
    StatxTimestamp.ofBytes_skip, StatxTimestamp.ofBytes_here]

/-- Each packer fills the kernel's structure with its source fields. -/
theorem packers_match (stx : Statx) (st : Stat) (fs : Statfs64) :
    ((packStatxLe stx).length = 256 ∧ Statx.ofBytes (packStatxLe stx) = stx) ∧
    ((packLinuxX86Stat64Le st).length = 96 ∧
      X86Stat64.ofBytes (packLinuxX86Stat64Le st) = st.toX86) ∧
    ((packLinuxX86StatfsLe fs).length = 64 ∧
      X86Statfs.ofBytes (packLinuxX86StatfsLe fs) = fs.toX86 32) ∧
    ((packLinuxX86Statfs64Le fs).length = 84 ∧
      X86Statfs.ofBytes64 (packLinuxX86Statfs64Le fs) = fs.toX86 64) ∧
    Function.Injective packStatxLe := by
  refine ⟨⟨?_, ?_⟩, ⟨?_, ?_⟩, ⟨?_, ?_⟩, ⟨?_, ?_⟩, ?_⟩
  · exact length_packStatxLe stx
  · exact statx_round_trip stx
  · exact length_packLinuxX86Stat64Le st
  · exact ofBytes_packLinuxX86Stat64Le st
  · exact length_packLinuxX86StatfsLe fs
  · exact ofBytes_packLinuxX86StatfsLe fs
  · exact length_packLinuxX86Statfs64Le fs
  · exact ofBytes64_packLinuxX86Statfs64Le fs
  · apply Function.LeftInverse.injective (g := Statx.ofBytes)
    exact statx_round_trip

end ValkyrieRs
