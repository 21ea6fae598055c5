import ValkyrieRs.Proof.Descriptors
import ValkyrieRs.Proof.MmapDelivers
import ValkyrieRs.Proof.Stdin
import ValkyrieRs.Syscall.Fd

/-!
# File positions

`sys_pread64` and a file-backed `sys_mmap` read through a duplicate of the descriptor, which shares
its position: they leave the position where their read ends.
-/

namespace ValkyrieRs

open Proc

/-! ## Descriptions -/

/-- The open file description behind a host descriptor. -/
def Host.description (h : Host) (fd : U32) : Option Description :=
  (h.fds.lookup fd).bind fun i => h.descriptions[i]?

/-- The open file description behind a tracked descriptor. -/
def Valkyrie.fileAt (vk : Valkyrie) (k : U64) : Option Description :=
  (vk.fdTable.lookup k).bind fun f => vk.host.description f.file

/-- The duplicate and the seek of a load succeed. -/
def Host.Loads (h : Host) (offset : ℕ) : Prop :=
  h.answer.ok ∧ offset < 2 ^ 63 ∧ (h.answers (h.calls.length + 1)).ok

instance (h : Host) (offset : ℕ) : Decidable (h.Loads offset) :=
  inferInstanceAs (Decidable (_ ∧ _))

/-- Where a load leaves the position. -/
def Host.loadEnd (h : Host) (d : Description) (size offset : ℕ) : ℕ :=
  if (h.answers (h.calls.length + 2)).ok then
    offset + ((d.content.drop offset).take (h.loadCount size)).length
  else offset

section Host

variable {h : Host} {fd clone : U32} {d : Description} {n offset : ℕ}

theorem Host.description_eq_some :
    h.description fd = some d ↔ ∃ i, h.fds.lookup fd = some i ∧ h.descriptions[i]? = some d :=
  Option.bind_eq_some_iff

/-- What a read delivers. -/
def Host.readData (h : Host) (d : Description) (n : ℕ) : List U8 :=
  (d.content.drop d.pos).take (min n (max 1 h.answer.count))

theorem Host.getD_descriptions {i : ℕ} (here : h.descriptions[i]? = some d) :
    h.descriptions.getD i ⟨[], 0⟩ = d := by
  rw [List.getD_eq_getElem?_getD, here]
  rfl

/-- A read is refused, or moves the position behind what it delivers. -/
theorem Host.read_at {i : ℕ} (lookup : h.fds.lookup fd = some i)
    (here : h.descriptions[i]? = some d) :
    ¬ h.answer.ok ∧
      h.read fd n = (.error h.answer.errno, (h.record (.read fd n)).fail h.answer.errno) ∨
    h.answer.ok ∧ h.read fd n = (.ok (h.readData d n), { h.record (.read fd n) with
      descriptions := h.descriptions.set i { d with pos := d.pos + (h.readData d n).length } }) := by
  simp only [Host.read, Host.record_fds, lookup, Host.record_descriptions,
    Host.getD_descriptions here]
  by_cases ok : h.answer.ok
  · rw [if_pos ok]
    exact .inr ⟨ok, rfl⟩
  · rw [if_neg ok]
    exact .inl ⟨ok, rfl⟩

/-- A seek moves the position anywhere, if at all. -/
theorem Host.lseek_description {offset : U64} {whence : U32} (found : h.description fd = some d) :
    ∃ pos, (h.lseek fd offset whence).2.description fd = some { d with pos } := by
  obtain ⟨i, lookup, here⟩ := Host.description_eq_some.1 found
  have lt : i < h.descriptions.length := (List.getElem?_eq_some_iff.1 here).1
  simp only [Host.lseek, Host.onFd, Host.record_fds, lookup, Host.record_descriptions,
    Host.getD_descriptions here]
  split_ifs with ok
  · cases Host.seekTarget d offset whence h.answer with
    | error e => exact ⟨d.pos, found⟩
    | ok pos =>
      dsimp only
      split_ifs
      · exact ⟨d.pos, found⟩
      · refine ⟨pos.toNat, Host.description_eq_some.2 ⟨i, lookup, ?_⟩⟩
        exact List.getElem?_set_self lt
  · exact ⟨d.pos, found⟩

/-- Closing the duplicate leaves the description to the descriptor. -/
theorem Host.description_close (ne : fd ≠ clone) :
    (h.close clone).2.description fd = h.description fd := by
  simp only [Host.close, Host.record_fds]
  cases h.fds.lookup clone with
  | none => rfl
  | some i =>
    have same : (h.fds.erase clone).lookup fd = h.fds.lookup fd := AList.lookup_erase_ne ne
    dsimp only
    split_ifs
    · simp only [Host.description, same]
      rfl
    · simp only [Host.description, Host.fail, same]
      rfl

/-- A seek to an offset from the start is refused, or done. -/
theorem Host.seek_at {i : ℕ} (lookup : h.fds.lookup fd = some i)
    (here : h.descriptions[i]? = some d) :
    ¬ (offset < 2 ^ 63 ∧ h.answer.ok) ∧
      (∃ e, h.seek fd offset = (.error e, (h.record (.seek fd offset)).fail e)) ∨
    (offset < 2 ^ 63 ∧ h.answer.ok) ∧ h.seek fd offset = (.ok (), { h.record (.seek fd offset) with
      descriptions := h.descriptions.set i { d with pos := offset } }) := by
  simp only [Host.seek, Host.record_fds, lookup, Host.record_descriptions,
    Host.getD_descriptions here]
  by_cases big : 2 ^ 63 ≤ offset
  · rw [if_pos big]
    exact .inl ⟨fun small => absurd small.1 (not_lt.2 big), _, rfl⟩
  rw [if_neg big]
  by_cases ok : h.answer.ok
  · rw [if_pos ok]
    exact .inr ⟨⟨not_le.1 big, ok⟩, rfl⟩
  · rw [if_neg ok]
    exact .inl ⟨fun small => ok small.2, _, rfl⟩

/-- A load leaves the shared position at its end, once it has got as far as seeking. -/
theorem Host.description_load (fresh : FreshAnswer h) (found : h.description fd = some d) :
    (h.load fd n offset).2.description fd =
      some (if h.Loads offset then { d with pos := h.loadEnd d n offset } else d) := by
  obtain ⟨i, lookup, here⟩ := Host.description_eq_some.1 found
  have lt : i < h.descriptions.length := (List.getElem?_eq_some_iff.1 here).1
  by_cases ok : h.answer.ok
  swap
  · have refused : h.dup fd = (.error h.answer.errno, (h.record (.dup fd)).fail h.answer.errno) := by
      simp only [Host.dup, Host.record_fds, lookup]
      exact if_neg ok
    have noLoad : ¬ h.Loads offset := fun loads => ok loads.1
    rw [if_neg noLoad, Host.load, refused]
    exact found
  -- the duplicate names the same description
  let shared : Host := { h.record (.dup fd) with fds := h.fds.insert h.answer.fd i }
  have cloned : h.dup fd = (.ok h.answer.fd, shared) := by
    simp only [Host.dup, Host.record_fds, lookup]
    exact if_pos ok
  have ne : fd ≠ h.answer.fd := by
    intro same
    apply fresh ok
    rw [← same, Host.IsOpen, lookup]
    rfl
  have lookupClone : shared.fds.lookup h.answer.fd = some i := AList.lookup_insert _
  have lookupFd : shared.fds.lookup fd = some i := (AList.lookup_insert_ne ne).trans lookup
  have answer : shared.answer = h.answers (h.calls.length + 1) := by
    simp [shared, Host.answer, Host.record]
  rw [Host.load, cloned]
  dsimp only
  rcases @Host.seek_at shared h.answer.fd d offset i lookupClone here with
    ⟨refuses, e, sought⟩ | ⟨⟨small, seeks⟩, sought⟩
  · have noLoad : ¬ h.Loads offset := fun loads => refuses ⟨loads.2.1, answer ▸ loads.2.2⟩
    rw [if_neg noLoad, sought]
    dsimp only
    rw [Host.description_close ne]
    exact Host.description_eq_some.2 ⟨i, lookupFd, here⟩
  have loads : h.Loads offset := ⟨ok, small, answer ▸ seeks⟩
  rw [if_pos loads, sought]
  dsimp only
  set moved : Host := { shared.record (.seek h.answer.fd offset) with
    descriptions := shared.descriptions.set i { d with pos := offset } } with movedEq
  have atOffset : moved.descriptions[i]? = some { d with pos := offset } :=
    List.getElem?_set_self lt
  have lastAnswer : moved.answer = h.answers (h.calls.length + 2) := by
    simp [moved, shared, Host.answer, Host.record]
  have lookupMoved : moved.fds.lookup h.answer.fd = some i := lookupClone
  have data : moved.readData { d with pos := offset } n =
      (d.content.drop offset).take (h.loadCount n) := by
    rw [Host.readData, Host.loadCount, lastAnswer]
  rcases Host.read_at (n := n) lookupMoved atOffset with ⟨refuses, read⟩ | ⟨reads, read⟩
  · rw [read]
    dsimp only
    rw [Host.description_close ne]
    refine Host.description_eq_some.2 ⟨i, lookupFd, ?_⟩
    rw [Host.loadEnd, if_neg (lastAnswer ▸ refuses)]
    exact atOffset
  · rw [read, data]
    dsimp only
    rw [Host.description_close ne]
    refine Host.description_eq_some.2 ⟨i, lookupFd, ?_⟩
    rw [Host.loadEnd, if_pos (lastAnswer ▸ reads)]
    exact List.getElem?_set_self (by rw [List.length_set]; exact lt)

end Host

/-! ## Positional reads -/

/-- The calls that read a file at an offset of their own. -/
inductive Positional where
  | pread64
  | mmap
deriving DecidableEq

namespace Positional

/-- The handler of the call. -/
def handler : Positional → SubCtx → VkM U64
  | .pread64 => sysPread64
  | .mmap => sysMmap

/-- The call is on the descriptor; a mapping is file-backed. -/
def On (sctx : SubCtx) (k : U64) : Positional → Prop
  | .pread64 => sctx.arg0 = k
  | .mmap => sctx.IsFile ∧ sctx.arg4 = k

/-- The offset of the call. -/
def offset (arch : Arch) (sctx : SubCtx) : Positional → U64
  | .pread64 => match arch with
    | .x86 => sctx.arg3 ||| (sctx.arg4 <<< 32)
    | .x86_64 => sctx.arg3
  | .mmap => sctx.arg5

/-- The count of the call. -/
def count (sctx : SubCtx) : Positional → U64
  | .pread64 => sctx.arg2
  | .mmap => sctx.mapLen

/-- The call gets as far as the file: something is to be read, and the engine accepts the range of
a mapping. -/
def Reaches (vk : Valkyrie) (sctx : SubCtx) : Positional → Prop
  | .pread64 => sctx.arg2 ≠ 0
  | .mmap => ¬ sctx.MmapRefused ∧ ∃ addr, vk.mem.mmapAddr sctx = some addr ∧ vk.Accepts sctx addr

/-- The call does not get as far as seeking, or its read ends at the very position of the file. -/
def Harmless (k : U64) (p : Positional) (sctx : SubCtx) (vk : Valkyrie) : Prop :=
  p.Reaches vk sctx → vk.host.Loads (p.offset vk.cfg.arch sctx).toNat → ∀ d, vk.fileAt k = some d →
    vk.host.loadEnd d (p.count sctx).toNat (p.offset vk.cfg.arch sctx).toNat = d.pos

end Positional

variable {vk vk' : Valkyrie} {sctx : SubCtx} {r : Except ValkyrieError U64} {k : U64}
  {d : Description} {f : VkFile}

theorem fileAt_eq_some : vk.fileAt k = some d ↔
    ∃ f, vk.fdTable.lookup k = some f ∧ vk.host.description f.file = some d :=
  Option.bind_eq_some_iff

theorem fileAt_congr (table : vk'.fdTable = vk.fdTable) (host : vk'.host = vk.host) :
    vk'.fileAt k = vk.fileAt k := by
  rw [Valkyrie.fileAt, Valkyrie.fileAt, table, host]

/-- The part of `sys_pread64` that reads the duplicate. -/
def readClone (clone : U32) (count offset : ℕ) : VkM (Except U64 (List U8)) :=
  withFile clone do
    match ← hostCall fun h => h.seek clone offset with
    | .error _ => return .error (negErrno EIO)
    | .ok () =>
      match ← hostCall fun h => h.read clone count with
      | .error _ => return .error (← lastErrno)
      | .ok bytes => return .ok bytes

/-- The part of `sys_pread64` that stores what has been read. -/
def storeRead (sctx : SubCtx) (bytesRead : Except U64 (List U8)) : VkM U64 := do
  match bytesRead with
  | .error errno => return errno
  | .ok bytes =>
    if bytes ≠ [] then
      memWrite sctx.arg1 bytes
    return BitVec.ofNat 64 bytes.length

theorem readClone_load {file clone : U32} {count offset : ℕ} {h : Host}
    {x : Except ValkyrieError (Except U64 (List U8))}
    (cloned : vk.host.dup file = (.ok clone, h))
    (run : (readClone clone count offset).Ends (vk.withHost h) x vk') :
    vk' = vk.withHost (vk.host.load file count offset).2 := by
  rw [readClone, ends_withFile] at run
  simp only [ends_bind_hostCall] at run
  obtain ⟨t, run, rfl⟩ := run
  simp only [Host.load, cloned]
  rcases sought : h.seek clone offset with ⟨_ | _, h₂⟩
  · simp only [Valkyrie.withHost_host, sought, ends_pure] at run
    rw [run.2]
    rfl
  simp only [Valkyrie.withHost_host, sought, ends_bind_hostCall] at run
  rcases delivered : h₂.read clone count with ⟨_ | data, h₃⟩
  · simp only [delivered] at run
    obtain ⟨_, _, last, rest⟩ := (ends_bind.1 run).resolve_left (by simp)
    obtain ⟨-, rfl⟩ := ends_lastErrno.1 last
    rw [(ends_pure.1 rest).2]
    simp [delivered]
  · simp only [delivered, ends_pure] at run
    rw [run.2]
    simp [delivered]

theorem storeRead_keeps {taken : Except U64 (List U8)} (run : (storeRead sctx taken).Ends vk r vk') :
    vk'.fdTable = vk.fdTable ∧ vk'.host = vk.host := by
  cases taken with
  | error errno =>
    rw [(ends_pure.1 run).2]
    exact ⟨rfl, rfl⟩
  | ok bytes =>
    simp only [storeRead] at run
    split_ifs at run
    · rcases ends_bind_memWrite.1 run with ⟨uc, -, last⟩ | ⟨e, -, -, rfl⟩
      · rw [(ends_pure.1 last).2]
        exact ⟨rfl, rfl⟩
      · exact ⟨rfl, rfl⟩
    · rw [(ends_pure.1 run).2]
      exact ⟨rfl, rfl⟩

theorem sysPread64_load (tracked : vk.fdTable.lookup sctx.arg0 = some f) (nonzero : sctx.arg2 ≠ 0)
    (run : (sysPread64 sctx).Ends vk r vk') :
    vk'.fdTable = vk.fdTable ∧ vk'.host = (vk.host.load f.file sctx.arg2.toNat
      (Positional.pread64.offset vk.cfg.arch sctx).toNat).2 := by
  simp only [sysPread64, nonzero, if_false] at run
  rw [ends_bind_get, ends_bind_hostAlloc] at run
  simp only [tracked] at run
  obtain ⟨-, run⟩ := run
  rw [ends_bind_hostCall] at run
  rcases cloned : vk.host.dup f.file with ⟨_ | clone, h₁⟩
  · rw [cloned] at run
    change (storeRead sctx (.error (negErrno EIO))).Ends (vk.withHost h₁) r vk' at run
    obtain ⟨table, host⟩ := storeRead_keeps run
    refine ⟨table, host.trans ?_⟩
    simp only [Host.load, cloned]
    rfl
  rw [cloned] at run
  change (readClone clone sctx.arg2.toNat (Positional.pread64.offset vk.cfg.arch sctx).toNat >>=
    storeRead sctx).Ends (vk.withHost h₁) r vk' at run
  rcases ends_bind.1 run with ⟨e, first, -⟩ | ⟨taken, t, first, rest⟩
  · rw [readClone_load cloned first]
    exact ⟨rfl, rfl⟩
  obtain ⟨table, host⟩ := storeRead_keeps rest
  rw [table, host, readClone_load cloned first]
  exact ⟨rfl, rfl⟩

/-- A file-backed mapping leaves the host alone or loads. -/
theorem sysMmap_load (file : sctx.IsFile) (tracked : vk.fdTable.lookup sctx.arg4 = some f)
    (run : (sysMmap sctx).Ends vk r vk') :
    vk'.fdTable = vk.fdTable ∧
      (¬ Positional.mmap.Reaches vk sctx ∧ vk'.host = vk.host ∨
        Positional.mmap.Reaches vk sctx ∧
          vk'.host = (vk.host.load f.file sctx.mapLen.toNat sctx.arg5.toNat).2) := by
  obtain ⟨early, rfl, rfl⟩ | ⟨accepted, addr, chosen, run⟩ := ends_sysMmap.1 run
  · exact ⟨rfl, .inl ⟨fun reaches => reaches.1 early, rfl⟩⟩
  obtain ⟨refused, rfl, rfl⟩ | ⟨uc, ok, run⟩ := ends_mmapAt.1 run
  · refine ⟨cleared_fdTable, .inl ⟨fun reaches => ?_, cleared_host⟩⟩
    obtain ⟨addr', chosen', accepts⟩ := reaches.2
    cases chosen.symm.trans chosen'
    exact refused (mappable_cleared_iff.2 accepts)
  have range := Unicorn.Mappable.of_memMap ok
  have reaches : Positional.mmap.Reaches vk sctx :=
    ⟨accepted, addr, chosen, mappable_cleared_iff.1 range⟩
  obtain ⟨prots, -⟩ := Unicorn.memMap_effect ok
  have mapped : uc.Mapped addr sctx.mapLen.toNat := by
    refine ⟨range.bound, fun x inside => ?_⟩
    rw [prots x, if_pos inside]
    rfl
  have host : ((vk.cleared sctx addr).mapped sctx addr uc).host = vk.host := cleared_host
  have table : ((vk.cleared sctx addr).mapped sctx addr uc).fdTable = vk.fdTable :=
    cleared_fdTable
  obtain ⟨no, -⟩ | ⟨-, absent, -⟩ | ⟨-, g, host', found, loaded, -, rfl⟩ |
    ⟨-, g, host', data, uc', found, loaded, -, -, rfl⟩ := mmapLoad_cases run range.size_ne mapped
  · exact (no file).elim
  · rw [table, tracked] at absent
    cases absent
  · rw [table, tracked] at found
    cases found
    rw [host] at loaded
    exact ⟨table, .inr ⟨reaches, (congrArg Prod.snd loaded).symm⟩⟩
  · rw [table, tracked] at found
    cases found
    rw [host] at loaded
    exact ⟨table, .inr ⟨reaches, (congrArg Prod.snd loaded).symm⟩⟩

/-- A load that has got as far as seeking, and the other calls. -/
theorem fileAt_load {p : Positional} (fresh : FreshAnswer vk.host)
    (tracked : vk.fdTable.lookup k = some f) (description : vk.host.description f.file = some d)
    (table : vk'.fdTable = vk.fdTable)
    (host : vk'.host = (vk.host.load f.file (p.count sctx).toNat
      (p.offset vk.cfg.arch sctx).toNat).2) :
    vk'.fileAt k = some (if vk.host.Loads (p.offset vk.cfg.arch sctx).toNat then
      { d with pos := vk.host.loadEnd d (p.count sctx).toNat (p.offset vk.cfg.arch sctx).toNat }
      else d) := by
  refine fileAt_eq_some.2 ⟨f, table ▸ tracked, ?_⟩
  rw [host]
  exact Host.description_load fresh description

/-- A positional read leaves the position at the end of its read, once it has got as far as
seeking. -/
theorem fileAt_positional {p : Positional} (fresh : FreshAnswer vk.host) (on : p.On sctx k)
    (found : vk.fileAt k = some d) (run : (p.handler sctx).Ends vk r vk') :
    ¬ p.Reaches vk sctx ∧ vk'.fileAt k = some d ∨
    p.Reaches vk sctx ∧
      vk'.fileAt k = some (if vk.host.Loads (p.offset vk.cfg.arch sctx).toNat then
        { d with pos := vk.host.loadEnd d (p.count sctx).toNat (p.offset vk.cfg.arch sctx).toNat }
        else d) := by
  obtain ⟨f, tracked, description⟩ := fileAt_eq_some.1 found
  cases p with
  | pread64 =>
    have number : sctx.arg0 = k := on
    by_cases zero : sctx.arg2 = 0
    · have steps : (sysPread64 sctx).Ends vk r vk' := run
      simp only [sysPread64, zero, if_true] at steps
      rw [ends_bind_get] at steps
      rw [(ends_pure.1 steps).2]
      exact .inl ⟨fun reaches => reaches zero, found⟩
    · obtain ⟨table, host⟩ := sysPread64_load (number ▸ tracked) zero run
      exact .inr ⟨zero, fileAt_load (p := .pread64) fresh tracked description table host⟩
  | mmap =>
    obtain ⟨file, number⟩ := on
    obtain ⟨table, ⟨no, host⟩ | ⟨reaches, host⟩⟩ := sysMmap_load file (number ▸ tracked) run
    · exact .inl ⟨no, (fileAt_congr table host).trans found⟩
    · exact .inr ⟨reaches, fileAt_load (p := .mmap) fresh tracked description table host⟩

theorem fileAt_harmless {p : Positional} (fresh : FreshAnswer vk.host) (on : p.On sctx k)
    (found : vk.fileAt k = some d) (harmless : p.Harmless k sctx vk)
    (run : (p.handler sctx).Ends vk r vk') : vk'.fileAt k = vk.fileAt k := by
  rcases fileAt_positional fresh on found run with ⟨-, same⟩ | ⟨reaches, moved⟩
  · rw [same, found]
  · rw [moved, found]
    split_ifs with loads
    · rw [harmless reaches loads d found]
    · rfl

/-! ## Reads and seeks -/

theorem take_length_take {α : Type} (l : List α) (n : ℕ) : l.take (l.take n).length = l.take n := by
  rw [List.length_take]
  rcases Nat.le_total n l.length with le | ge
  · rw [Nat.min_eq_left le]
  · rw [Nat.min_eq_right ge, List.take_length, List.take_of_length_le ge]

/-- A read of a tracked file ends without an effect on it, or has taken the bytes at the position
and goes on to store them. -/
theorem sysRead_taken (other : ¬ k ≤ 2) (number : sctx.arg0 = k) (found : vk.fileAt k = some d)
    (run : (sysRead sctx).Ends vk r vk') :
    vk'.fileAt k = some d ∧ (r = .ok 0 ∨ r = .ok (negErrno vk.host.answer.errno)) ∨
    ∃ t, (storeRead sctx (.ok (vk.host.readData d sctx.arg2.toNat))).Ends t r vk' ∧
      (vk.host.readData d sctx.arg2.toNat).length < 2 ^ 63 ∧
      t.fileAt k = some { d with
        pos := d.pos + (vk.host.readData d sctx.arg2.toNat).length } := by
  obtain ⟨f, tracked, description⟩ := fileAt_eq_some.1 found
  obtain ⟨i, lookup, here⟩ := Host.description_eq_some.1 description
  by_cases zero : sctx.arg2 = 0
  · simp only [sysRead, zero, if_true] at run
    obtain ⟨rfl, rfl⟩ := ends_pure.1 run
    exact .inl ⟨found, .inl rfl⟩
  have notStdin : ¬ sctx.arg0 = 0 := by
    rintro stdin
    rw [stdin] at number
    exact other (number ▸ (by decide))
  simp only [sysRead, zero, if_false] at run
  rw [ends_bind_hostAlloc, readFd] at run
  obtain ⟨lt, run⟩ := run
  have short : (vk.host.readData d sctx.arg2.toNat).length < 2 ^ 63 := by
    rw [Host.readData, List.length_take]
    omega
  rcases Host.read_at (n := sctx.arg2.toNat) lookup here with ⟨-, read⟩ | ⟨-, read⟩
  · have taken : (readFd sctx.arg0 sctx.arg2.toNat).Ends vk
        (.ok (.error (negErrno vk.host.answer.errno)))
        (vk.withHost (vk.host.read f.file sctx.arg2.toNat).2) := by
      rw [readFd, ends_bind_get, if_neg notStdin, number]
      simp only [tracked]
      rw [ends_bind_hostCall, read]
      exact Ends.bind (ends_lastErrno.2 ⟨rfl, rfl⟩) (ends_pure.2 ⟨rfl, rfl⟩)
    rw [← readFd, taken.bind_iff] at run
    obtain ⟨rfl, rfl⟩ := ends_pure.1 run
    refine .inl ⟨fileAt_eq_some.2 ⟨f, tracked, ?_⟩, .inr rfl⟩
    rw [Valkyrie.withHost_host, read]
    exact description
  · have taken : (readFd sctx.arg0 sctx.arg2.toNat).Ends vk
        (.ok (.ok (vk.host.readData d sctx.arg2.toNat)))
        (vk.withHost (vk.host.read f.file sctx.arg2.toNat).2) := by
      rw [readFd, ends_bind_get, if_neg notStdin, number]
      simp only [tracked]
      rw [ends_bind_hostCall, read]
      exact ends_pure.2 ⟨rfl, rfl⟩
    rw [← readFd, taken.bind_iff] at run
    refine .inr ⟨_, run, short, fileAt_eq_some.2 ⟨f, tracked, ?_⟩⟩
    rw [Valkyrie.withHost_host, read]
    have lt : i < vk.host.descriptions.length := (List.getElem?_eq_some_iff.1 here).1
    exact Host.description_eq_some.2 ⟨i, lookup, List.getElem?_set_self lt⟩

/-- The store of what has been read. -/
theorem stored_storeRead {bytes : List U8} {v : U64} (short : bytes.length < 2 ^ 63)
    (run : (storeRead sctx (.ok bytes)).Ends vk (.ok v) vk') : stored sctx vk' (.ok v) = bytes := by
  have number : (BitVec.ofNat 64 bytes.length).toNat = bytes.length := by
    rw [BitVec.toNat_ofNat]
    omega
  have notErrno : ¬ IsNegErrno (BitVec.ofNat 64 bytes.length) := by
    rw [IsNegErrno, number]
    omega
  simp only [storeRead] at run
  split_ifs at run with nonempty
  · rcases ends_bind_memWrite.1 run with ⟨uc, written, last⟩ | ⟨e, -, ⟨⟩, -⟩
    obtain ⟨⟨⟩, rfl⟩ := ends_pure.1 last
    rw [stored, if_neg notErrno, number]
    exact Unicorn.contents_of_memWrite (VMemory.write_ok_iff.1 written).2
  · obtain ⟨⟨⟩, rfl⟩ := ends_pure.1 run
    rw [stored, if_neg notErrno, number, not_not.1 nonempty]
    rfl

/-- A read of a tracked file that returns delivers the bytes at the position and moves it behind
them. -/
theorem sysRead_file {v : U64} (other : ¬ k ≤ 2) (number : sctx.arg0 = k)
    (legal : IsNegErrno (negErrno vk.host.answer.errno)) (found : vk.fileAt k = some d)
    (run : (sysRead sctx).Ends vk (.ok v) vk') :
    (∃ n, stored sctx vk' (.ok v) = (d.content.drop d.pos).take n) ∧
      vk'.fileAt k = some { d with pos := d.pos + (stored sctx vk' (.ok v)).length } := by
  rcases sysRead_taken other number found run with ⟨same, result⟩ | ⟨t, last, short, moved⟩
  · have nothing : stored sctx vk' (.ok v) = [] := by
      rcases result with ⟨⟨⟩⟩ | ⟨⟨⟩⟩
      · rfl
      · exact if_pos legal
    rw [nothing]
    exact ⟨⟨0, rfl⟩, same⟩
  · rw [stored_storeRead short last]
    obtain ⟨table, host⟩ := storeRead_keeps last
    exact ⟨⟨_, rfl⟩, (fileAt_congr table host).trans moved⟩

/-- Reads and seeks leave the content of the file alone. -/
theorem fileAt_sysRead (other : ¬ k ≤ 2) (number : sctx.arg0 = k) (found : vk.fileAt k = some d)
    (run : (sysRead sctx).Ends vk r vk') : ∃ pos, vk'.fileAt k = some { d with pos } := by
  rcases sysRead_taken other number found run with ⟨same, -⟩ | ⟨t, last, -, moved⟩
  · exact ⟨d.pos, same⟩
  · obtain ⟨table, host⟩ := storeRead_keeps last
    exact ⟨_, (fileAt_congr table host).trans moved⟩

theorem fileAt_sysLseek (other : ¬ k ≤ 2) (number : sctx.arg0 = k) (found : vk.fileAt k = some d)
    (run : (sysLseek sctx).Ends vk r vk') : ∃ pos, vk'.fileAt k = some { d with pos } := by
  obtain ⟨f, tracked, description⟩ := fileAt_eq_some.1 found
  have sought : ∀ {x t}, (seekFd sctx.arg0 sctx.arg1 (sctx.arg2.setWidth 32)).Ends vk x t →
      ∃ pos, t.fileAt k = some { d with pos } := by
    intro x t first
    rw [seekFd, ends_bind_get, number, if_neg other] at first
    simp only [tracked] at first
    split_ifs at first
    · have moves : ∃ pos, (vk.host.lseek f.file sctx.arg1 (sctx.arg2.setWidth 32)).2.description
          f.file = some { d with pos } := Host.lseek_description description
      obtain ⟨pos, moved⟩ := moves
      rw [(ends_hostCall.1 first).2]
      exact ⟨pos, fileAt_eq_some.2 ⟨f, tracked, moved⟩⟩
    · rw [(ends_pure.1 first).2]
      exact ⟨d.pos, found⟩
  rcases ends_bind.1 run with ⟨e, first, -⟩ | ⟨out, t, first, rest⟩
  · exact sought first
  · obtain ⟨pos, moved⟩ := sought first
    cases out with
    | error e =>
      rw [(ends_pure.1 rest).2]
      exact ⟨pos, moved⟩
    | ok v =>
      rw [(ends_pure.1 rest).2]
      exact ⟨pos, moved⟩

/-! ## Interleavings -/

/-- Reads, seeks and allowed positional reads on a descriptor, with anything in between that leaves
its file alone.  The number is the position that the file was moved to last, by a seek or by a read
that failed; the bytes are those that the reads since then have returned. -/
inductive FileRun (allowed : Positional → SubCtx → Valkyrie → Prop) (k : U64) (start : Valkyrie) :
    ℕ → List U8 → Valkyrie → Prop
  | start {d : Description} : start.fileAt k = some d → FileRun allowed k start d.pos [] start
  | read {base : ℕ} {out : List U8} {vk vk' : Valkyrie} {sctx : SubCtx} {v : U64} :
      FileRun allowed k start base out vk → sctx.arg0 = k →
      IsNegErrno (negErrno vk.host.answer.errno) → (sysRead sctx).Ends vk (.ok v) vk' →
      FileRun allowed k start base (out ++ stored sctx vk' (.ok v)) vk'
  | readFails {base : ℕ} {out : List U8} {vk vk' : Valkyrie} {sctx : SubCtx} {e : ValkyrieError}
      {d : Description} : FileRun allowed k start base out vk → sctx.arg0 = k →
      (sysRead sctx).Ends vk (.error e) vk' → vk'.fileAt k = some d →
      FileRun allowed k start d.pos [] vk'
  | lseek {base : ℕ} {out : List U8} {vk vk' : Valkyrie} {sctx : SubCtx}
      {r : Except ValkyrieError U64} {d : Description} : FileRun allowed k start base out vk →
      sctx.arg0 = k → (sysLseek sctx).Ends vk r vk' → vk'.fileAt k = some d →
      FileRun allowed k start d.pos [] vk'
  | positional {base : ℕ} {out : List U8} {vk vk' : Valkyrie} {sctx : SubCtx}
      {r : Except ValkyrieError U64} (p : Positional) : FileRun allowed k start base out vk →
      FreshAnswer vk.host → p.On sctx k → allowed p sctx vk → (p.handler sctx).Ends vk r vk' →
      FileRun allowed k start base out vk'
  | other {base : ℕ} {out : List U8} {vk vk' : Valkyrie} : FileRun allowed k start base out vk →
      vk'.fileAt k = vk.fileAt k → FileRun allowed k start base out vk'

/-- The bytes are the file's from the base on, and the position is behind them. -/
def Consecutive (k : U64) (base : ℕ) (out : List U8) (vk : Valkyrie) : Prop :=
  ∃ d, vk.fileAt k = some d ∧ out = (d.content.drop base).take out.length ∧
    d.pos = base + out.length

/-- Positional reads leave the position alone, and the reads in between return consecutive bytes of
the file. -/
structure PositionsKept (allowed : Positional → SubCtx → Valkyrie → Prop) (k : U64)
    (start : Valkyrie) : Prop where
  position : ∀ base out vk p sctx r vk', FileRun allowed k start base out vk →
    FreshAnswer vk.host → Positional.On sctx k p → allowed p sctx vk →
    (p.handler sctx).Ends vk r vk' → vk'.fileAt k = vk.fileAt k
  consecutive : ∀ base out vk, FileRun allowed k start base out vk → Consecutive k base out vk

theorem consecutive_nil (found : vk.fileAt k = some d) : Consecutive k d.pos [] vk :=
  ⟨d, found, rfl, rfl⟩

theorem Consecutive.congr {base : ℕ} {out : List U8} (h : Consecutive k base out vk)
    (same : vk'.fileAt k = vk.fileAt k) : Consecutive k base out vk' := by
  obtain ⟨d, found, bytes, pos⟩ := h
  exact ⟨d, same.trans found, bytes, pos⟩

theorem Consecutive.read {base : ℕ} {out : List U8} {v : U64} (h : Consecutive k base out vk)
    (other : ¬ k ≤ 2) (number : sctx.arg0 = k) (legal : IsNegErrno (negErrno vk.host.answer.errno))
    (run : (sysRead sctx).Ends vk (.ok v) vk') :
    Consecutive k base (out ++ stored sctx vk' (.ok v)) vk' := by
  obtain ⟨d, found, bytes, pos⟩ := h
  obtain ⟨⟨n, delivered⟩, moved⟩ := sysRead_file other number legal found run
  refine ⟨_, moved, ?_, ?_⟩
  · have rest : (d.content.drop base).drop out.length = d.content.drop d.pos := by
      rw [List.drop_drop, pos]
    have next : stored sctx vk' (.ok v) =
        ((d.content.drop base).drop out.length).take (stored sctx vk' (.ok v)).length := by
      rw [rest, delivered, take_length_take]
    rw [List.length_append, List.take_add, ← bytes, ← next]
  · show d.pos + _ = _
    rw [pos, List.length_append, Nat.add_assoc]

theorem Consecutive.of_run {start : Valkyrie} {base : ℕ} {out : List U8} (other : ¬ k ≤ 2)
    (run : FileRun (Positional.Harmless k) k start base out vk) : Consecutive k base out vk := by
  induction run with
  | start found => exact consecutive_nil found
  | read _ number legal last ih => exact ih.read other number legal last
  | readFails _ _ _ found _ => exact consecutive_nil found
  | lseek _ _ _ found _ => exact consecutive_nil found
  | positional p _ fresh on harmless last ih =>
    have before := ih
    obtain ⟨d, found, -⟩ := ih
    exact before.congr (fileAt_harmless fresh on found harmless last)
  | other _ same ih => exact ih.congr same

/-- An emulator with a file of four bytes at descriptor 3, on a host that grants everything. -/
def fourBytes : Valkyrie :=
  { emptyTable with
    fdTable := AList.insert 3 fileThree ∅
    host := { emptyTable.host with
      answers := fun _ => ⟨true, EIO, 5, 4, []⟩
      descriptions := [⟨[1, 2, 3, 4], 0⟩] } }

/-- Two bytes from offset 2 of descriptor 3. -/
def preadTwo : SubCtx := ⟨3, 0, 2, 2, 0, 0⟩

/-- `sys_pread64` moves the position. -/
theorem pread_moves_position : ¬ PositionsKept (fun _ _ _ => True) 3 fourBytes := by
  intro kept
  have found : fourBytes.fileAt 3 = some ⟨[1, 2, 3, 4], 0⟩ := rfl
  have fresh : FreshAnswer fourBytes.host := fun _ => by decide
  have run : ∃ r vk', (Positional.pread64.handler preadTwo).Ends fourBytes r vk' ∧
      vk'.fileAt 3 = some ⟨[1, 2, 3, 4], 4⟩ := ⟨_, _, rfl, rfl⟩
  obtain ⟨r, vk', run, moved⟩ := run
  have same := kept.position _ _ _ .pread64 preadTwo _ _ (.start found) fresh rfl trivial run
  rw [moved, found] at same
  exact absurd same (by decide)

/-- In every interleaving of reads, seeks and harmless positional reads on a tracked descriptor,
positional reads leave its position alone and the reads return consecutive bytes. -/
theorem positions_kept_of_run (start : Valkyrie) (k : U64) (other : ¬ k ≤ 2) :
    PositionsKept (Positional.Harmless k) k start := by
  constructor
  · intro base out vk p sctx r vk' run fresh on harmless last
    obtain ⟨d, found, -⟩ := Consecutive.of_run other run
    exact fileAt_harmless fresh on found harmless last
  · exact fun base out vk run => Consecutive.of_run other run

theorem positions_kept_of_run_fourBytes : PositionsKept (Positional.Harmless 3) 3 fourBytes :=
  positions_kept_of_run fourBytes 3 (by decide)

end ValkyrieRs
