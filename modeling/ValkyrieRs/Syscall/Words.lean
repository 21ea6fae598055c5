import ValkyrieRs.State

/-!
# Words of the guest

The word accesses of `common.rs` and the time values of `os/syscall/io.rs` that are made of them.
-/

namespace ValkyrieRs

open Proc

/-- `write_word`. -/
def writeWord (addr value : U64) (width : ℕ) : VkM Unit := memWrite addr (toLeBytes width value)

/-- `read_word`: the bytes that are not read are zero. -/
def readWord (addr : U64) (width : ℕ) : VkM U64 := do
  let bytes ← memRead addr width
  return fromLeBytes bytes

/-- `archsize / 8`, the width of a word in bytes. -/
def Arch.wordWidth : Arch → ℕ
  | .x86 => 4
  | .x86_64 => 8

/-- `guest_word_width`. -/
def guestWordWidth (vk : Valkyrie) : ℕ := vk.cfg.arch.wordWidth

/-- `libc::timespec`, its signed fields as bit patterns. -/
structure Timespec where
  tvSec : U64
  tvNsec : U64
deriving DecidableEq

/-- A time value in words of the guest. -/
def readGuestTimespec (addr : U64) : VkM Timespec := do
  let width := guestWordWidth (← get)
  let tvSec ← readWord addr width
  let tvNsec ← readWord (addr + BitVec.ofNat 64 width) width
  return { tvSec, tvNsec }

/-- A time value is stored in words of the guest. -/
def writeGuestTimespec (addr : U64) (ts : Timespec) : VkM Unit := do
  let width := guestWordWidth (← get)
  writeWord addr ts.tvSec width
  writeWord (addr + BitVec.ofNat 64 width) ts.tvNsec width

end ValkyrieRs
