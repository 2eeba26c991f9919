import Msm8909w.Lib.Prog
import Msm8909w.Lib.Bytes

/-!
# The block device behind `gpt-utils.cpp`

`gpt-utils.cpp` reaches the device through a handful of calls (`Sys`): `open`, `lseek64`, `read`,
`write`, `calloc` and the final `fsync`/`close`.  Its header buffers are uninitialised arrays on
the stack; `Sys.stack` supplies their contents.

`dev env` is the device as a machine.  The choices of the outside world are in the `Env`: whether
`open`, `lseek64` and `calloc` succeed, how many bytes the `n`-th transfer moves, and what the
stack holds.  `Env.Ideal` is the device on which every call succeeds and every transfer is
complete.  Only the disk contents (`Dev.disk`) survive a crash.
-/

namespace Msm8909w

namespace Gpt

/-- The calls `gpt-utils.cpp` makes. -/
inductive Sys where
  /-- `open(BLK_DEV_FILE, O_RDWR)`. -/
  | openDev
  /-- `lseek64(fd, 0, SEEK_END)`. -/
  | seekEnd
  /-- `lseek64(fd, offset, SEEK_SET)`. -/
  | seekSet (offset : ℤ)
  /-- `read(fd, buf, len)`. -/
  | read (len : ℕ)
  /-- `write(fd, buf, len)`. -/
  | write (buf : Bytes)
  /-- An uninitialised local array of `n` bytes. -/
  | stack (n : ℕ)
  /-- `calloc(1, n)`. -/
  | calloc (n : ℕ)
  /-- `fsync(fd)` and `close(fd)`. -/
  | closeDev
  deriving DecidableEq

/-- The replies: success flags, the offset returned by `SEEK_END`, and for a transfer the bytes
read or the count written (`none` when the call returns `-1`). -/
abbrev Sys.Reply : Sys → Type
  | .openDev => Bool
  | .seekEnd => ℤ
  | .seekSet _ => Bool
  | .read _ => Option Bytes
  | .write _ => Option ℕ
  | .stack _ => Bytes
  | .calloc _ => Bool
  | .closeDev => Unit

/-- Programs over these calls. -/
abbrev SysProg := Prog Sys Sys.Reply

/-- `open(BLK_DEV_FILE, O_RDWR)`. -/
def openDev : SysProg Bool := Prog.issue Sys.openDev
/-- `lseek64(fd, 0, SEEK_END)`. -/
def lseekEnd : SysProg ℤ := Prog.issue Sys.seekEnd
/-- `lseek64(fd, offset, SEEK_SET)`. -/
def lseekSet (offset : ℤ) : SysProg Bool := Prog.issue (Sys.seekSet offset)
/-- `read`. -/
def sysRead (len : ℕ) : SysProg (Option Bytes) := Prog.issue (Sys.read len)
/-- `write`. -/
def sysWrite (buf : Bytes) : SysProg (Option ℕ) := Prog.issue (Sys.write buf)
/-- A local array. -/
def stackArray (n : ℕ) : SysProg Bytes := Prog.issue (Sys.stack n)
/-- `calloc`. -/
def calloc (n : ℕ) : SysProg Bool := Prog.issue (Sys.calloc n)
/-- `fsync` and `close`. -/
def closeDev : SysProg Unit := Prog.issue Sys.closeDev

/-- One `read` or `write` call: where it started, what was asked for, and how many bytes moved
(`none` when the call failed). -/
inductive Transfer where
  /-- A read of `len` bytes at `pos`. -/
  | read (pos len : ℕ) (done : Option ℕ)
  /-- A write of `buf` at `pos`. -/
  | write (pos : ℕ) (buf : Bytes) (done : Option ℕ)
  deriving DecidableEq

namespace Transfer

/-- All the bytes asked for were moved. -/
def Complete : Transfer → Prop
  | read _ len done => done = some len
  | write _ buf done => done = some buf.length

instance (t : Transfer) : Decidable t.Complete :=
  match t with
  | read _ len done => inferInstanceAs (Decidable (done = some len))
  | write _ buf done => inferInstanceAs (Decidable (done = some buf.length))

/-- The call failed. -/
def Failed : Transfer → Prop
  | read _ _ done => done = none
  | write _ _ done => done = none

instance (t : Transfer) : Decidable t.Failed :=
  match t with
  | read _ _ done => inferInstanceAs (Decidable (done = none))
  | write _ _ done => inferInstanceAs (Decidable (done = none))

end Transfer

/-- The choices of the outside world. -/
structure Env where
  /-- `open` succeeds. -/
  openOk : Bool
  /-- The `lseek64` call at this point of the run succeeds. -/
  seekOk : ℕ → Bool
  /-- `calloc` returns memory. -/
  callocOk : Bool
  /-- The number of bytes the `n`-th transfer would move of `len` (`none`: it fails). -/
  xfer : ℕ → ℕ → Option ℕ
  /-- The contents of uninitialised stack memory. -/
  junk : ℕ → ℕ → UInt8

/-- Every call succeeds and every transfer is complete. -/
structure Env.Ideal (env : Env) : Prop where
  openOk : env.openOk = true
  seekOk : ∀ n, env.seekOk n = true
  callocOk : env.callocOk = true
  xfer : ∀ n len, env.xfer n len = some len

/-- The state of the device and of the file descriptor. -/
structure Dev where
  /-- The disk contents. -/
  disk : Bytes
  /-- The file position. -/
  pos : ℕ
  /-- The calls made so far. -/
  clock : ℕ
  /-- The transfers made so far. -/
  log : List Transfer

namespace Dev

/-- A device with these contents, before any call. -/
def start (disk : Bytes) : Dev := ⟨disk, 0, 0, []⟩

/-- `lseek64(fd, 0, SEEK_END)`: the size of the device, or `-1`. -/
def seekEnd (env : Env) (s : Dev) : ℤ × Dev :=
  if env.seekOk s.clock then
    (s.disk.length, { s with pos := s.disk.length, clock := s.clock + 1 })
  else (-1, { s with clock := s.clock + 1 })

/-- `lseek64(fd, offset, SEEK_SET)`; a negative offset is an error. -/
def seekSet (env : Env) (s : Dev) (offset : ℤ) : Bool × Dev :=
  if env.seekOk s.clock && decide (0 ≤ offset) then
    (true, { s with pos := offset.toNat, clock := s.clock + 1 })
  else (false, { s with clock := s.clock + 1 })

/-- `read`: at most the bytes up to the end of the device. -/
def read (env : Env) (s : Dev) (len : ℕ) : Option Bytes × Dev :=
  match env.xfer s.log.length len with
  | none => (none, { s with log := s.log ++ [.read s.pos len none], clock := s.clock + 1 })
  | some n =>
    let bs := slice s.disk s.pos (min n len)
    (some bs, { s with
      pos := s.pos + bs.length
      log := s.log ++ [.read s.pos len (some bs.length)]
      clock := s.clock + 1 })

/-- `write`: at most up to the end of the device. -/
def write (env : Env) (s : Dev) (buf : Bytes) : Option ℕ × Dev :=
  match env.xfer s.log.length buf.length with
  | none => (none, { s with log := s.log ++ [.write s.pos buf none], clock := s.clock + 1 })
  | some n =>
    let bs := (buf.take n).take (s.disk.length - s.pos)
    (some bs.length, {
      disk := patch s.disk s.pos bs
      pos := s.pos + bs.length
      log := s.log ++ [.write s.pos buf (some bs.length)]
      clock := s.clock + 1 })

/-- The reply to a call and the state after it. -/
def exec (env : Env) (s : Dev) : (c : Sys) → c.Reply × Dev
  | .openDev => (env.openOk, { s with pos := 0, clock := s.clock + 1 })
  | .seekEnd => s.seekEnd env
  | .seekSet offset => s.seekSet env offset
  | .read len => s.read env len
  | .write buf => s.write env buf
  | .stack n => ((List.range n).map (env.junk s.clock), { s with clock := s.clock + 1 })
  | .calloc _ => (env.callocOk, { s with clock := s.clock + 1 })
  | .closeDev => ((), { s with clock := s.clock + 1 })

end Dev

/-- The device in the environment `env`. -/
def dev (env : Env) : Machine Dev Sys Sys.Reply := ⟨Dev.exec env⟩

end Gpt

end Msm8909w
