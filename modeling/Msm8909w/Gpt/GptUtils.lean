import Msm8909w.Gpt.Device

/-!
# `gpt-utils.cpp`

The safe boot update keeps two copies of the GUID partition table and switches between them by
corrupting and repairing header signatures.  This file is the model of
`common/recovery/oem-recovery/gpt-utils.cpp`, function by function; messages to `stderr` are left
out.

`sparse_crc32` is a parameter (`crc`): nothing below depends on which function of the bytes it
is.  A header CRC covers `gpt_header_size` bytes of the 512-byte buffer, and a name is read
through `getD`, so that bytes beyond a buffer never matter to the model.
-/

namespace Msm8909w

namespace Gpt

open Prog

/-- `LBA_SIZE`. -/
def lbaSize : ℕ := 512

/-- `GPT_SIGNATURE`, with the terminating zero that `sizeof` counts. -/
def gptSignature : Bytes := ascii "EFI PART" ++ [0]

/-- `HEADER_SIZE_OFFSET`. -/
def headerSizeOffset : ℕ := 12
/-- `HEADER_CRC_OFFSET`. -/
def headerCrcOffset : ℕ := 16
/-- `PENTRIES_OFFSET`. -/
def pentriesOffset : ℕ := 72
/-- `PARTITION_COUNT_OFFSET`. -/
def partitionCountOffset : ℕ := 80
/-- `PENTRY_SIZE_OFFSET`. -/
def pentrySizeOffset : ℕ := 84
/-- `PARTITION_CRC_OFFSET`. -/
def partitionCrcOffset : ℕ := 88

/-- `TYPE_GUID_OFFSET`. -/
def typeGuidOffset : ℕ := 0
/-- `TYPE_GUID_SIZE`. -/
def typeGuidSize : ℕ := 16
/-- `PARTITION_NAME_OFFSET`. -/
def partitionNameOffset : ℕ := 56
/-- `MAX_GPT_NAME_SIZE`. -/
def maxGptNameSize : ℕ := 72

/-- `PTN_SWAP_LIST`: the names of the backed-up partitions to be swapped. -/
def ptnSwapList : List Bytes := [ascii "sbl1", ascii "rpm", ascii "tz", ascii "aboot"]
/-- `BAK_PTN_NAME_EXT`: the extension of the backup partitions. -/
def bakPtnNameExt : Bytes := ascii "bak"

/-- `GET_4_BYTES(buf + off)`. -/
def get4Bytes (buf : Bytes) (off : ℕ) : ℕ := ofLE (slice buf off 4)

/-- `GET_8_BYTES(buf + off)`. -/
def get8Bytes (buf : Bytes) (off : ℕ) : ℕ := ofLE (slice buf off 8)

/-- `PUT_4_BYTES(buf + off, y)`. -/
def put4Bytes (buf : Bytes) (off y : ℕ) : Bytes := patch buf off (toLE 4 y)

/-- Conversion of a transfer count to `int`. -/
def toInt32 (n : ℕ) : ℤ :=
  if n % 2 ^ 32 < 2 ^ 31 then (n % 2 ^ 32 : ℕ) else (n % 2 ^ 32 : ℕ) - 2 ^ 32

/-- Conversion of a `uint64_t` to `int64_t`. -/
def toInt64 (n : ℕ) : ℤ :=
  if n % 2 ^ 64 < 2 ^ 63 then (n % 2 ^ 64 : ℕ) else (n % 2 ^ 64 : ℕ) - 2 ^ 64

/-- `enum gpt_instance`. -/
inductive GptInstance where
  | primaryGpt
  | secondaryGpt
  deriving DecidableEq, Repr

/-- `enum boot_chain`. -/
inductive BootChain where
  | normalBoot
  | backupBoot
  deriving DecidableEq, Repr

/-- `enum gpt_state`. -/
inductive GptState where
  | gptOk
  | gptBadSignature
  | gptBadCrc
  deriving DecidableEq, Repr

/-- `enum boot_update_stage`. -/
inductive BootUpdateStage where
  | updateMain
  | updateBackup
  | updateFinalize
  deriving DecidableEq, Repr

/-- The value of a stage as an `int`. -/
def BootUpdateStage.toInt : BootUpdateStage → ℤ
  | .updateMain => 1
  | .updateBackup => 2
  | .updateFinalize => 3

/-- The result code of a transfer that moved `n` bytes: a short count is not an error. -/
def xferCode (n : ℕ) : ℤ := if toInt32 n < 0 then toInt32 n else 0

/-- The result of `read` into `buf`: the code, and the buffer afterwards. -/
def readResult (buf : Bytes) : Option Bytes → ℤ × Bytes
  | none => (-1, buf)
  | some bs => (xferCode bs.length, bs ++ buf.drop bs.length)

/-- The result of `write`. -/
def writeResult (buf : Bytes) : Option ℕ → ℤ × Bytes
  | none => (-1, buf)
  | some n => (xferCode n, buf)

/-- `blk_rw`: read `buf.length` bytes into `buf` (`rw = false`) or write `buf` (`rw = true`) at
`offset`.  Returns the result code and the buffer afterwards. -/
def blkRw (rw : Bool) (offset : ℤ) (buf : Bytes) : SysProg (ℤ × Bytes) := do
  let ok ← lseekSet offset
  if !ok then return (-1, buf)
  else if rw then return writeResult buf (← sysWrite buf)
  else return readResult buf (← sysRead buf.length)

/-! ### The partition entries -/

/-- `name8[i]`: a partition name is UTF-16, its second bytes are ignored. -/
def name8 (pentries : Bytes) (entry i : ℕ) : UInt8 :=
  pentries.getD (entry + partitionNameOffset + i * 2) 0

/-- The test of `gpt_pentry_seek`: the name is `ptnName`, or `ptnName` followed by `bak`. -/
def nameMatches (ptnName pentries : Bytes) (entry : ℕ) : Bool :=
  let name := (List.range (maxGptNameSize / 2)).map (name8 pentries entry)
  let len := ptnName.length
  name.take len == ptnName &&
    (name.getD len 0 == 0 || slice name len 4 == bakPtnNameExt ++ [0])

/-- The loop of `gpt_pentry_seek`, from the entry at offset `entry` on. -/
def gptPentrySeekLoop (ptnName pentries : Bytes) (pentrySize : ℕ) : ℕ → ℕ → Option ℕ
  | 0, _ => none
  | fuel + 1, entry =>
    if entry + partitionNameOffset < pentries.length then
      if nameMatches ptnName pentries entry then some entry
      else gptPentrySeekLoop ptnName pentries pentrySize fuel (entry + pentrySize)
    else none

/-- `gpt_pentry_seek`: the offset of the first entry from `start` on whose name matches.  An entry
size of zero makes the array empty, so every step advances and `pentries.length` steps are
enough. -/
def gptPentrySeek (ptnName pentries : Bytes) (start pentrySize : ℕ) : Option ℕ :=
  gptPentrySeekLoop ptnName pentries pentrySize pentries.length start

/-- The type GUID of the entry at offset `entry`. -/
def typeGuid (pentries : Bytes) (entry : ℕ) : Bytes :=
  slice pentries (entry + typeGuidOffset) typeGuidSize

/-- Exchange the type GUIDs of two entries. -/
def swapTypeGuids (pentries : Bytes) (entry bakEntry : ℕ) : Bytes :=
  patch (patch pentries (entry + typeGuidOffset) (typeGuid pentries bakEntry))
    (bakEntry + typeGuidOffset) (typeGuid pentries entry)

/-- The pair of entries found for a name: the first match, and the next match after it. -/
def findPair (pentries : Bytes) (pentrySize : ℕ) (ptnName : Bytes) : Option (ℕ × ℕ) :=
  match gptPentrySeek ptnName pentries 0 pentrySize with
  | none => none
  | some entry =>
    match gptPentrySeek ptnName pentries (entry + pentrySize) pentrySize with
    | none => none
    | some bakEntry => some (entry, bakEntry)

/-- One round of the loop of `gpt_boot_chain_swap`. -/
def swapRound (pentrySize : ℕ) (acc : ℤ × Bytes) (ptnName : Bytes) : ℤ × Bytes :=
  match findPair acc.2 pentrySize ptnName with
  | none => acc
  | some (entry, bakEntry) => (0, swapTypeGuids acc.2 entry bakEntry)

/-- `gpt_boot_chain_swap`: returns `backup_not_found` and the array afterwards. -/
def gptBootChainSwap (pentries : Bytes) (pentrySize : ℕ) : ℤ × Bytes :=
  ptnSwapList.foldl (swapRound pentrySize) (1, pentries)

/-! ### Headers -/

variable (crc : Bytes → UInt32)

/-- The header CRC, calculated with the CRC field cleared. -/
def headerCrc (header : Bytes) : ℕ :=
  (crc ((put4Bytes header headerCrcOffset 0).take (get4Bytes header headerSizeOffset))).toNat

/-- Recompute the header CRC. -/
def updateHeaderCrc (header : Bytes) : Bytes :=
  put4Bytes (put4Bytes header headerCrcOffset 0) headerCrcOffset (headerCrc crc header)

/-- The classification made by `gpt_get_state`. -/
def headerState (header : Bytes) : GptState :=
  if headerCrc crc header ≠ get4Bytes header headerCrcOffset then .gptBadCrc
  else if header.take gptSignature.length ≠ gptSignature then .gptBadSignature
  else .gptOk

/-- The offset of a GPT header; `none` when the size of the device is not known or too small. -/
def gptHeaderOffset (gpt : GptInstance) : SysProg (Option ℤ) :=
  match gpt with
  | .primaryGpt => return some lbaSize
  | .secondaryGpt => do
    let size ← lseekEnd
    return if size - lbaSize < 0 then none else some (size - lbaSize)

/-- `gpt_get_state`; `none` is the result `-1`. -/
def gptGetState (gpt : GptInstance) : SysProg (Option GptState) := do
  let buf ← stackArray lbaSize
  match ← gptHeaderOffset gpt with
  | none => return none
  | some offset =>
    let (r, header) ← blkRw false offset buf
    if r ≠ 0 then return none
    else return some (headerState crc header)

/-- The change `gpt_set_state` makes to a header; `none` for a state it does not set. -/
def setSignature (state : GptState) (header : Bytes) : Option Bytes :=
  match state with
  | .gptOk => some (patch header 0 gptSignature)
  | .gptBadSignature => some (patch header 0 [0])
  | .gptBadCrc => none

/-- `gpt_set_state`. -/
def gptSetState (gpt : GptInstance) (state : GptState) : SysProg ℤ := do
  let buf ← stackArray lbaSize
  match ← gptHeaderOffset gpt with
  | none => return -1
  | some offset =>
    let (r, header) ← blkRw false offset buf
    if r ≠ 0 then return -1
    else match setSignature state header with
      | none => return -1
      | some header =>
        let (r, _) ← blkRw true offset (updateHeaderCrc crc header)
        if r ≠ 0 then return -1 else return 0

/-- `GET_8_BYTES(gpt_header + PENTRIES_OFFSET) * LBA_SIZE`, as a `uint64_t`. -/
def pentriesStartOffset (header : Bytes) : ℕ := get8Bytes header pentriesOffset * lbaSize % 2 ^ 64

/-- The size of one entry. -/
def pentrySize (header : Bytes) : ℕ := get4Bytes header pentrySizeOffset

/-- The size of the entry array, as a `uint32_t`. -/
def pentriesArraySize (header : Bytes) : ℕ :=
  get4Bytes header partitionCountOffset * pentrySize header % 2 ^ 32

/-- The new secondary header of `gpt2_set_boot_chain`: the entries CRC of `pentries`, and a fresh
header CRC. -/
def setPartitionCrc (header pentries : Bytes) : Bytes :=
  updateHeaderCrc crc (put4Bytes header partitionCrcOffset (crc pentries).toNat)

/-- The entries `gpt2_set_boot_chain` writes; the code is not `0` when nothing is to be written. -/
def chainEntries (boot : BootChain) (pentries : Bytes) (size : ℕ) : ℤ × Bytes :=
  match boot with
  | .backupBoot => gptBootChainSwap pentries size
  | .normalBoot => (0, pentries)

/-- `gpt2_set_boot_chain`. -/
def gpt2SetBootChain (boot : BootChain) : SysProg ℤ := do
  let buf ← stackArray lbaSize
  let size ← lseekEnd
  let gpt2HeaderOffset := size - lbaSize
  if gpt2HeaderOffset < 0 then return -1
  else
    -- the primary header and its entries
    let (r, header) ← blkRw false lbaSize buf
    if r ≠ 0 then return r
    else
      let ok ← calloc (pentriesArraySize header)
      if !ok then return -1
      else
        let (r, pentries) ← blkRw false (toInt64 (pentriesStartOffset header))
          (List.replicate (pentriesArraySize header) 0)
        if r ≠ 0 then return r
        else if get4Bytes header partitionCrcOffset ≠ (crc pentries).toNat then return -1
        else
          -- the secondary header, into the same buffer
          let (r, header2) ← blkRw false gpt2HeaderOffset header
          if r ≠ 0 then return r
          else
            let (r, pentries) := chainEntries boot pentries (pentrySize header)
            if r ≠ 0 then return r
            else
              let (r, _) ← blkRw true gpt2HeaderOffset (setPartitionCrc crc header2 pentries)
              if r ≠ 0 then return r
              else
                let (r, _) ← blkRw true (toInt64 (pentriesStartOffset header2)) pentries
                return r

/-! ### The update -/

/-- The stage the two header states stand for; `none` for the states `prepare_boot_update`
refuses. -/
def internalStage (prim second : GptState) : Option BootUpdateStage :=
  match prim, second with
  | .gptOk, .gptOk => some .updateMain
  | .gptBadSignature, .gptOk => some .updateBackup
  | .gptOk, .gptBadSignature => some .updateFinalize
  | _, _ => none

/-- The `switch (stage)` of `prepare_boot_update`. -/
def updateStage (stage : BootUpdateStage) : SysProg ℤ :=
  match stage with
  | .updateMain => do
    let r ← gpt2SetBootChain crc .backupBoot
    -- no backup partitions: the GPT is not corrupted and no error is flagged
    if r ≠ 0 then return if r < 0 then r else 0
    else gptSetState crc .primaryGpt .gptBadSignature
  | .updateBackup => do
    let r ← gptSetState crc .primaryGpt .gptOk
    if r ≠ 0 then return r
    else gptSetState crc .secondaryGpt .gptBadSignature
  | .updateFinalize => do
    let r ← gpt2SetBootChain crc .normalBoot
    if r < 0 then return r
    else gptSetState crc .secondaryGpt .gptOk

/-- The body of `prepare_boot_update` between `open` and `EXIT`. -/
def prepareOpened (stage : BootUpdateStage) : SysProg ℤ := do
  match ← gptGetState crc .primaryGpt with
  | none => return 1
  | some prim =>
    match ← gptGetState crc .secondaryGpt with
    | none => return 1
    | some second =>
      match internalStage prim second with
      | none => return -1
      | some internal =>
        -- the stage is already set
        if stage.toInt = internal.toInt - 1 then return 0
        else if stage ≠ internal then return -1
        else updateStage crc stage

/-- `prepare_boot_update`. -/
def prepareBootUpdate (stage : BootUpdateStage) : SysProg ℤ := do
  let ok ← openDev
  if !ok then return -1
  else
    let r ← prepareOpened crc stage
    let _ ← closeDev
    return r

/-- The calls `InstallBootImages` puts into the updater script; the next call is always made. -/
def installBootImages : SysProg PUnit := do
  let _ ← prepareBootUpdate crc .updateMain
  let _ ← prepareBootUpdate crc .updateBackup
  let _ ← prepareBootUpdate crc .updateFinalize

end Gpt

end Msm8909w
