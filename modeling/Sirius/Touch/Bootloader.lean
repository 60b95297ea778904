import Mathlib.Data.List.Range
import Sirius.Lib.Dialog
import Sirius.Touch.Packets

/-!
# The boot loader of the chip

The driver talks to it through two registers of two bytes. The data register is read together with the status register;
after each access the driver writes to the status register that it is complete. A file is written in blocks. What the
bus and the chip answer is a list, transfer by transfer.
-/
namespace Sirius.Touch.Boot
open Dialog

@[simp] def MXM_BL_STATUS_ADDR_H : BitVec 8 := 0x00
@[simp] def MXM_BL_STATUS_ADDR_L : BitVec 8 := 0xFF
@[simp] def MXM_BL_DATA_ADDR_H : BitVec 8 := 0x00
@[simp] def MXM_BL_DATA_ADDR_L : BitVec 8 := 0xFE
@[simp] def MXM_BL_STATUS_READY_H : BitVec 8 := 0xAB
@[simp] def MXM_BL_STATUS_READY_L : BitVec 8 := 0xCC
@[simp] def MXM_BL_DATA_READY_H : BitVec 8 := 0x00
@[simp] def MXM_BL_DATA_READY_L : BitVec 8 := 0x3E
@[simp] def MXM_BL_RXTX_COMPLETE_H : BitVec 8 := 0x54
@[simp] def MXM_BL_RXTX_COMPLETE_L : BitVec 8 := 0x32
@[simp] def MXM_BL_ENTER_SEQ_L : BitVec 16 := 0x7F00
@[simp] def MXM_BL_ENTER_SEQ_H1 : BitVec 16 := 0x0047
@[simp] def MXM_BL_ENTER_SEQ_H2 : BitVec 16 := 0x00C7
@[simp] def MXM_BL_ENTER_SEQ_H3 : BitVec 16 := 0x0007
@[simp] def MXM_BL_ENTER_CONF_RETRY : ℤ := 5
@[simp] def MXM_BL_SET_BYTE_MODE_H : BitVec 8 := 0x00
@[simp] def MXM_BL_SET_BYTE_MODE_L : BitVec 8 := 0x0A
@[simp] def MXM_BL_ERASE_CONF_RETRY : ℕ := 10
@[simp] def MXM_BL_ERASE_FLASH_L : BitVec 8 := 0x02
@[simp] def MXM_BL_ERASE_FLASH_H : BitVec 8 := 0x00
@[simp] def MXM_BL_RD_STATUS_RETRY : ℕ := 3
@[simp] def MXM_BL_WR_FAST_FLASH_L : BitVec 8 := 0xF0
@[simp] def MXM_BL_WR_FAST_FLASH_H : BitVec 8 := 0x00
@[simp] def MXM_BL_WR_START_ADDR : BitVec 8 := 0x00
@[simp] def MXM_BL_WR_DBUF0_ADDR : BitVec 8 := 0x00
@[simp] def MXM_BL_WR_DBUF1_ADDR : BitVec 8 := 0x40
@[simp] def MXM_BL_WR_BLK_SIZE : ℕ := 128
@[simp] def MXM_BL_WR_TX_SZ : ℕ := 130
@[simp] def MXM_BL_WR_STATUS_RETRY : ℕ := 100
@[simp] def MXM_BL_WR_CONF_RETRY : ℤ := 5
@[simp] def MXM_BL_GET_CRC_L : BitVec 8 := 0x30
@[simp] def MXM_BL_GET_CRC_H : BitVec 8 := 0x02
@[simp] def MXM_BL_CRC_GET_RETRY : ℤ := 5
@[simp] def MXM_BL_EXIT_SEQ_L : BitVec 16 := 0x7F00
@[simp] def MXM_BL_EXIT_SEQ_H1 : BitVec 16 := 0x0040
@[simp] def MXM_BL_EXIT_SEQ_H2 : BitVec 16 := 0x00C0
@[simp] def MXM_BL_EXIT_SEQ_H3 : BitVec 16 := 0x0000

/-- What a transfer answers: an error or how many bytes went over, and the bytes if the chip sends. -/
structure Answer where
  ret : ℤ
  data : ℕ → BitVec 8

/-- A transfer, with what it returned. -/
inductive Transfer
  | tx (buf : List (BitVec 8)) (ret : ℤ)
  | rx (buf : List (BitVec 8)) (ret : ℤ)
  deriving DecidableEq, Repr

abbrev Driver (α : Type) : Type := Talk Answer Transfer ℤ α

/-- `i2c_master_send` and `i2c_master_recv` of `n` bytes, again as long as the bus says so. Behind the list the bus does
not answer. -/
def i2cMaster (n : ℕ) (transfer : Answer → ℤ → Transfer) : Driver (ℤ × (ℕ → BitVec 8)) := ⟨fun as =>
  match as.dropWhile (·.ret = - EAGAIN) with
  | [] => (.ok (- EIO, fun _ => 0), [], [transfer ⟨- EIO, fun _ => 0⟩ (- EIO)])
  | a :: as => (.ok (min a.ret n, a.data), as, [transfer a (min a.ret n)])⟩

/-- What the functions for bytes make of it. -/
def countOf (ret : ℤ) : ℤ := if ret < 0 then ret else (BitVec.ofInt 16 ret).toNat

def i2cTxBytes (buf : List (BitVec 8)) : Driver ℤ := do
  let (ret, _) ← i2cMaster buf.length fun _ ret => .tx buf ret
  return countOf ret

def i2cRxBytes (len : ℕ) : Driver (ℤ × (ℕ → BitVec 8)) := do
  let (ret, buf) ← i2cMaster len fun a ret => .rx ((List.range len).map a.data) ret
  return (countOf ret, buf)

def bytesOf (words : List (BitVec 16)) : List (BitVec 8) :=
  words.flatMap fun w : BitVec 16 => [w.setWidth 8, (w >>> 8).setWidth 8]

/-- And those for words. -/
def wordCountOf (ret : ℤ) : ℤ :=
  if ret < 0 then ret else if ret % 2 ≠ 0 then - EIO else (BitVec.ofInt 16 (ret / 2)).toNat

def i2cTxWords (words : List (BitVec 16)) : Driver ℤ := do
  let (ret, _) ← i2cMaster (bytesOf words).length fun _ ret => .tx (bytesOf words) ret
  return wordCountOf ret

/-- The loop of `bootloader_read_status_reg`; what was received is what the next round sends. -/
def readStatusReg (byteL byteH : BitVec 8) : ℕ → List (BitVec 8) → Driver Unit
  | 0, _ => fail (- EIO)
  | rounds + 1, buffer => do
      let sent ← i2cTxBytes buffer
      check (sent = 2) (- EIO)
      let (received, data) ← i2cRxBytes 2
      check (received = 2) (- EIO)
      if data 0 = byteL ∧ data 1 = byteH then pure () else readStatusReg byteL byteH rounds [data 0, data 1]

def bootloaderReadStatusReg (byteL byteH : BitVec 8) : Driver Unit :=
  readStatusReg byteL byteH MXM_BL_RD_STATUS_RETRY [MXM_BL_STATUS_ADDR_L, MXM_BL_STATUS_ADDR_H]

def bootloaderWriteStatusReg (byteL byteH : BitVec 8) : Driver Unit := do
  let sent ← i2cTxBytes [MXM_BL_STATUS_ADDR_L, MXM_BL_STATUS_ADDR_H, byteL, byteH]
  check (sent = 4) (- EIO)

def bootloaderRxtxComplete : Driver Unit := bootloaderWriteStatusReg MXM_BL_RXTX_COMPLETE_L MXM_BL_RXTX_COMPLETE_H

def bootloaderReadDataReg : Driver (BitVec 8 × BitVec 8) := do
  let sent ← i2cTxBytes [MXM_BL_DATA_ADDR_L, MXM_BL_DATA_ADDR_H]
  check (sent = 2) (- EIO)
  let (received, buffer) ← i2cRxBytes 4
  check (received = 4) (- EIO)
  check (¬(buffer 2 ≠ MXM_BL_STATUS_READY_L ∧ buffer 3 ≠ MXM_BL_STATUS_READY_H)) (- EIO)
  bootloaderRxtxComplete
  return (buffer 0, buffer 1)

def bootloaderWriteDataReg (byteL byteH : BitVec 8) : Driver Unit := do
  bootloaderReadStatusReg MXM_BL_STATUS_READY_L MXM_BL_STATUS_READY_H
  let sent ← i2cTxBytes [MXM_BL_DATA_ADDR_L, MXM_BL_DATA_ADDR_H, byteL, byteH,
    MXM_BL_RXTX_COMPLETE_L, MXM_BL_RXTX_COMPLETE_H]
  check (sent = 6) (- EIO)

def bootloaderRxtx (byteL byteH : BitVec 8) (tx : ℤ) : Driver (BitVec 8 × BitVec 8) :=
  if tx > 0 then do
    bootloaderWriteDataReg byteL byteH
    return (byteL, byteH)
  else bootloaderReadDataReg

/-- The loop of `bootloader_get_cmd_conf`, with the number of its rounds. -/
def getCmdConf : ℕ → Driver Unit
  | 0 => fail (- EIO)
  | rounds + 1 => do
      let bytes ← attempt bootloaderReadDataReg
      if bytes = .ok (MXM_BL_DATA_READY_L, MXM_BL_DATA_READY_H) then pure () else getCmdConf rounds

/-- One round at least. -/
def bootloaderGetCmdConf (retries : ℤ) : Driver Unit := getCmdConf (max 1 retries).toNat

def bootloaderWriteBuffer : List (BitVec 8) → Driver Unit
  | [] => pure ()
  | byte :: buffer => do
      let _ ← bootloaderRxtx byte MXM_BL_WR_START_ADDR 1
      bootloaderWriteBuffer buffer

/-- The loop of `bootloader_enter` and `bootloader_exit`. -/
def sendSequence : List (List (BitVec 16)) → Driver Unit
  | [] => pure ()
  | words :: rest => do
      let sent ← i2cTxWords words
      check (sent = 2) (- EIO)
      sendSequence rest

def bootloaderEnter : Driver Unit := do
  sendSequence [[MXM_BL_ENTER_SEQ_L, MXM_BL_ENTER_SEQ_H1], [MXM_BL_ENTER_SEQ_L, MXM_BL_ENTER_SEQ_H2],
    [MXM_BL_ENTER_SEQ_L, MXM_BL_ENTER_SEQ_H3]]
  bootloaderGetCmdConf MXM_BL_ENTER_CONF_RETRY

def bootloaderExit : Driver Unit :=
  sendSequence [[MXM_BL_EXIT_SEQ_L, MXM_BL_EXIT_SEQ_H1], [MXM_BL_EXIT_SEQ_L, MXM_BL_EXIT_SEQ_H2],
    [MXM_BL_EXIT_SEQ_L, MXM_BL_EXIT_SEQ_H3]]

def crcCommand (addr len : BitVec 16) : List (BitVec 8) :=
  [MXM_BL_GET_CRC_L, MXM_BL_GET_CRC_H, (BYTEL addr).setWidth 8, (BYTEH addr).setWidth 8, (BYTEL len).setWidth 8,
    (BYTEH len).setWidth 8]

def bootloaderGetCrc (addr len : BitVec 16) : Driver (BitVec 16) := do
  bootloaderWriteBuffer (crcCommand addr len)
  let (low, byteH) ← bootloaderRxtx 0 0 0
  let (high, _) ← bootloaderRxtx low byteH 0
  bootloaderGetCmdConf MXM_BL_CRC_GET_RETRY
  return high.setWidth 16 <<< 8 ||| low.setWidth 16

def bootloaderSetByteMode : Driver Unit := do
  bootloaderWriteBuffer [MXM_BL_SET_BYTE_MODE_L, MXM_BL_SET_BYTE_MODE_H]
  bootloaderGetCmdConf 10

/-- The loop of `bootloader_erase_flash`. -/
def eraseConf : ℕ → Driver Unit
  | 0 => fail (- EIO)
  | rounds + 1 => do
      let conf ← attempt (bootloaderGetCmdConf 0)
      if conf = .ok () then pure () else eraseConf rounds

def bootloaderEraseFlash : Driver Unit := do
  let _ ← bootloaderRxtx MXM_BL_ERASE_FLASH_L MXM_BL_ERASE_FLASH_H 1
  eraseConf MXM_BL_ERASE_CONF_RETRY

/-- The inner loop of `bootloader_write_flash`. -/
def awaitReady : ℕ → Driver Unit
  | 0 => fail (- EIO)
  | rounds + 1 => do
      let status ← attempt (bootloaderReadStatusReg MXM_BL_STATUS_READY_L MXM_BL_STATUS_READY_H)
      if status = .ok () then pure () else awaitReady rounds

/-- Block `i` of a file, as it is sent. -/
def blockBuffer (image : List (BitVec 8)) (i : ℕ) : List (BitVec 8) :=
  (if i % 2 = 0 then MXM_BL_WR_DBUF0_ADDR else MXM_BL_WR_DBUF1_ADDR) :: 0x00 ::
    (image.drop (i * MXM_BL_WR_BLK_SIZE)).take MXM_BL_WR_BLK_SIZE

/-- The outer loop of `bootloader_write_flash` from block `i` on, with the number of blocks that are left. -/
def writeBlocks (image : List (BitVec 8)) : (blocks i : ℕ) → Driver Unit
  | 0, _ => pure ()
  | blocks + 1, i => do
      awaitReady MXM_BL_WR_STATUS_RETRY
      let sent ← i2cTxBytes (blockBuffer image i)
      check (sent = MXM_BL_WR_TX_SZ) (- EIO)
      bootloaderRxtxComplete
      writeBlocks image blocks (i + 1)

def bootloaderWriteFlash (image : List (BitVec 8)) (length : BitVec 16) : Driver Unit := do
  bootloaderWriteBuffer [MXM_BL_WR_FAST_FLASH_L, MXM_BL_WR_FAST_FLASH_H, ((length >>> 8) &&& 0xFF).setWidth 8,
    (length &&& 0xFF).setWidth 8, MXM_BL_WR_START_ADDR]
  writeBlocks image (length >>> 7).toNat 0
  bootloaderGetCmdConf MXM_BL_WR_CONF_RETRY

/-- How many bytes a transfer was to send or to receive. -/
def Sizes (tx rx : ℕ → Prop) : Transfer → Prop
  | .tx buf _ => tx buf.length
  | .rx buf _ => rx buf.length

section
variable {T R : ℕ → Prop}

theorem only_master {n : ℕ} {transfer : Answer → ℤ → Transfer} (h : ∀ a ret, Sizes T R (transfer a ret)) :
    Only (Sizes T R) (i2cMaster n transfer) := by
  intro as e he
  simp only [i2cMaster] at he
  split at he
  · exact List.mem_singleton.mp he ▸ h _ _
  · exact List.mem_singleton.mp he ▸ h _ _

theorem only_txBytes {buf : List (BitVec 8)} (h : T buf.length) : Only (Sizes T R) (i2cTxBytes buf) :=
  Only.bind (only_master fun _ _ => h) fun _ => Only.pure _

theorem only_rxBytes {n : ℕ} (h : R n) : Only (Sizes T R) (i2cRxBytes n) := by
  refine Only.bind (only_master fun a _ => ?_) fun _ => Only.pure _
  rwa [Sizes, List.length_map, List.length_range]

theorem only_readStatusReg (htx : T 2) (hrx : R 2) (byteL byteH : BitVec 8) :
    Only (Sizes T R) (bootloaderReadStatusReg byteL byteH) := by
  have hloop : ∀ rounds (buffer : List (BitVec 8)), buffer.length = 2 →
      Only (Sizes T R) (readStatusReg byteL byteH rounds buffer) := by
    intro rounds
    induction rounds with
    | zero => exact fun _ _ => Only.fail _
    | succ rounds ih =>
        intro buffer hbuffer
        refine Only.bind (only_txBytes (hbuffer ▸ htx)) fun sent => Only.bind (Only.check _ _) fun _ =>
          Only.bind (only_rxBytes hrx) fun received => Only.bind (Only.check _ _) fun _ => ?_
        split
        · exact Only.pure _
        · exact ih _ rfl
  exact hloop _ _ rfl

theorem only_rxtxComplete (htx : T 4) : Only (Sizes T R) bootloaderRxtxComplete :=
  Only.bind (only_txBytes htx) fun _ => Only.check _ _

theorem only_readDataReg (htx : T 2) (hack : T 4) (hrx : R 4) : Only (Sizes T R) bootloaderReadDataReg :=
  Only.bind (only_txBytes htx) fun _ => Only.bind (Only.check _ _) fun _ =>
    Only.bind (only_rxBytes hrx) fun _ => Only.bind (Only.check _ _) fun _ => Only.bind (Only.check _ _) fun _ =>
      Only.bind (only_rxtxComplete hack) fun _ => Only.pure _

theorem only_getCmdConf (htx : T 2) (hack : T 4) (hrx : R 4) (rounds : ℕ) :
    Only (Sizes T R) (getCmdConf rounds) := by
  induction rounds with
  | zero => exact Only.fail _
  | succ rounds ih =>
      refine Only.bind (Only.attempt (only_readDataReg htx hack hrx)) fun bytes => ?_
      split
      · exact Only.pure _
      · exact ih

theorem only_writeDataReg (htx : T 2) (hrx : R 2) (hdata : T 6) (byteL byteH : BitVec 8) :
    Only (Sizes T R) (bootloaderWriteDataReg byteL byteH) :=
  Only.bind (only_readStatusReg htx hrx _ _) fun _ => Only.bind (only_txBytes hdata) fun _ => Only.check _ _

theorem only_writeBuffer (htx : T 2) (hrx : R 2) (hdata : T 6) (buffer : List (BitVec 8)) :
    Only (Sizes T R) (bootloaderWriteBuffer buffer) := by
  induction buffer with
  | nil => exact Only.pure _
  | cons byte buffer ih =>
      exact Only.bind (Only.bind (only_writeDataReg htx hrx hdata _ _) fun _ => Only.pure _) fun _ => ih

end

end Sirius.Touch.Boot
