import Sirius.Touch.Handshake

/-!
# Loading the firmware: device_fw_load

The chip is reprogrammed unless its CRC over the file's length is that of the file. The length is kept in 16 bits, and
the file is written in blocks of 128 bytes. What the driver takes for the chip's CRC may come from a register that was
not ready.
-/
namespace Sirius.Touch.Boot
open Dialog

@[simp] def MXM_FW_RETRIES_MAX : ℕ := 5
@[simp] def MXM_FW_UPDATE_FORCE : ℕ := 1

/-- What `device_fw_load` returns, and whether it came to reprogram the chip. -/
structure Load where
  ret : ℤ
  reprogrammed : Bool
  deriving DecidableEq, Repr

/-- The first loop of `device_fw_load`; `chip_crc16_1` at its end. -/
def readChipCrc (codesize : BitVec 16) : ℕ → Driver ℤ
  | 0 => pure (-1)
  | rounds + 1 => do
      let crc ← attempt do
        bootloaderEnter
        bootloaderGetCrc 0 codesize
      let _ ← attempt bootloaderExit
      match crc with
      | .ok c => pure c.toNat
      | .error _ => readChipCrc codesize rounds

/-- A round of the second loop, up to the exit from the boot loader. -/
def programOnce (fw : List (BitVec 8)) (filesize : BitVec 16) : Driver (BitVec 16) := do
  bootloaderEnter
  bootloaderEraseFlash
  bootloaderSetByteMode
  bootloaderWriteFlash fw filesize
  bootloaderGetCrc 0 filesize

/-- The second loop; `chip_crc16_2` at its end. -/
def reprogram (fw : List (BitVec 8)) (filesize : BitVec 16) (fileCrc : ℤ) : ℕ → ℤ → Driver ℤ
  | 0, chipCrc => pure chipCrc
  | rounds + 1, chipCrc =>
      if fileCrc = chipCrc then pure chipCrc
      else do
        let crc ← attempt (programOnce fw filesize)
        let _ ← attempt bootloaderExit
        reprogram fw filesize fileCrc rounds (match crc with
          | .ok c => c.toNat
          | .error _ => chipCrc)

/-- The third loop. -/
def leaveBootloader : ℕ → Driver Unit
  | 0 => fail (- EIO)
  | rounds + 1 => do
      let exited ← attempt bootloaderExit
      if exited = .ok () then pure () else leaveBootloader rounds

def finishLoad (reprogrammed : Bool) : Driver Load := do
  let exited ← attempt (leaveBootloader MXM_FW_RETRIES_MAX)
  return ⟨if exited = .ok () then 0 else - EIO, reprogrammed⟩

/-- `device_fw_load` -/
def deviceFwLoad (crc16 : List (BitVec 8) → BitVec 16) (fwUpdateMode : ℕ) (fw : List (BitVec 8)) : Driver Load := do
  let filesize := BitVec.ofNat 16 fw.length
  let fileCrc : ℤ := (crc16 (fw.take filesize.toNat)).toNat
  let chipCrc ← readChipCrc filesize MXM_FW_RETRIES_MAX
  if fwUpdateMode = MXM_FW_UPDATE_FORCE ∨ fileCrc ≠ chipCrc then do
    let chipCrc ← reprogram fw filesize fileCrc MXM_FW_RETRIES_MAX (-1)
    if fileCrc ≠ chipCrc then return ⟨- EAGAIN, true⟩
    finishLoad true
  else finishLoad false

/-- The byte that is written to the data register. -/
def commandByte : Transfer → Option (BitVec 8)
  | .tx [0xFE, 0x00, byteL, _, 0x32, 0x54] 6 => some byteL
  | _ => none

/-- The bytes of a block. -/
def payload : Transfer → List (BitVec 8)
  | .tx buf ret => if buf.length = MXM_BL_WR_TX_SZ ∧ ret = MXM_BL_WR_TX_SZ then buf.drop 2 else []
  | .rx _ _ => []

def commandBytes (es : List Transfer) : List (BitVec 8) := es.filterMap commandByte

def payloads (es : List Transfer) : List (BitVec 8) := es.flatMap payload

/-- A transcript that begins with the command for a CRC over `size` bytes from the start and the two reads of the data
register behind it. -/
def CrcAsked (es : List Transfer) (size : BitVec 16) (low high : Reg) : Prop :=
  ∃ command rest, es = command ++ (readOf low ++ (readOf high ++ rest)) ∧
    commandBytes command = crcCommand 0 size ∧ presented command = []

/-- The chip has been asked for the CRC over `len` bytes from the start and has answered `c`: each of the two bytes was
read from a ready register. -/
def CrcExchange (es : List Transfer) (len : ℕ) (c : BitVec 16) : Prop :=
  ∃ size low high, CrcAsked es size low high ∧ size.toNat = len ∧ low.Ready ∧ high.Ready ∧
    c = high.lo.setWidth 16 <<< 8 ||| low.lo.setWidth 16

/-- No byte of a CRC was read from a half-ready register. -/
def CrcWhole (es : List Transfer) : Prop :=
  ∀ before exchange size low high, es = before ++ exchange → CrcAsked exchange size low high →
    ¬low.HalfReady ∧ ¬high.HalfReady

/-- The chip was asked for the CRC over the whole of the file and it was that of the file; where it had been
reprogrammed, all bytes of the file were written before. -/
def HoldsFile (crc16 : List (BitVec 8) → BitVec 16) (fw : List (BitVec 8)) (reprogrammed : Bool)
    (es : List Transfer) : Prop :=
  ∃ before written exchange after, es = before ++ (written ++ (exchange ++ after)) ∧
    CrcExchange exchange fw.length (crc16 fw) ∧ (reprogrammed = true → payloads written = fw)

theorem commandBytes_append (es es' : List Transfer) : commandBytes (es ++ es') = commandBytes es ++ commandBytes es' :=
  List.filterMap_append

theorem payloads_append (es es' : List Transfer) : payloads (es ++ es') = payloads es ++ payloads es' :=
  List.flatMap_append

theorem commandByte_eq_none {e : Transfer} (h : Sizes (· ≠ 6) (fun _ => True) e) : commandByte e = none := by
  unfold commandByte
  split
  · exact absurd rfl h
  · rfl

theorem payload_eq_nil {e : Transfer} (h : Sizes (· ≠ 130) (fun _ => True) e) : payload e = [] := by
  cases e with
  | tx buf ret => exact if_neg fun hblock => h hblock.1
  | rx buf ret => rfl

theorem commandBytes_eq_nil {α : Type} {x : Driver α} (hx : Only (Sizes (· ≠ 6) fun _ => True) x)
    {as as' : List Answer} {r : Except ℤ α} {es : List Transfer} (h : x.run as = (r, as', es)) :
    commandBytes es = [] := by
  have hsizes := hx as
  rw [h] at hsizes
  exact List.filterMap_eq_nil_iff.mpr fun e he => commandByte_eq_none (hsizes e he)

theorem payloads_eq_nil {α : Type} {x : Driver α} (hx : Only (Sizes (· ≠ 130) fun _ => True) x)
    {as as' : List Answer} {r : Except ℤ α} {es : List Transfer} (h : x.run as = (r, as', es)) :
    payloads es = [] := by
  have hsizes := hx as
  rw [h] at hsizes
  exact List.flatMap_eq_nil_iff.mpr fun e he => payload_eq_nil (hsizes e he)

theorem bootloaderWriteBuffer_eq_ok {buffer : List (BitVec 8)} {as as' : List Answer} {es : List Transfer} {u : Unit}
    (h : (bootloaderWriteBuffer buffer).run as = (.ok u, as', es)) : commandBytes es = buffer := by
  induction buffer generalizing as es with
  | nil =>
      obtain ⟨-, -, rfl⟩ := pure_eq_ok h
      rfl
  | cons byte buffer ih =>
      obtain ⟨_, as₁, es₁, es₂, hbyte, hrest, rfl⟩ := bind_eq_ok h
      obtain ⟨_, as₂, es₃, es₄, hwrite, hpure, rfl⟩ := bind_eq_ok hbyte
      obtain ⟨-, -, rfl⟩ := pure_eq_ok hpure
      obtain ⟨_, as₃, es₅, es₆, hstatus, hdata, rfl⟩ := bind_eq_ok hwrite
      obtain ⟨sent, as₄, es₇, es₈, hsend, hcheck, rfl⟩ := bind_eq_ok hdata
      obtain ⟨rfl, -, rfl⟩ := check_eq_ok hcheck
      have hnone := commandBytes_eq_nil (only_readStatusReg (by decide) trivial _ _) hstatus
      rw [i2cTxBytes_eq_ok hsend rfl, commandBytes_append, commandBytes_append, commandBytes_append,
        commandBytes_append, hnone, ih hrest]
      rfl

/-- A CRC that the driver has been returned was asked for, and its bytes were taken. -/
def CrcTaken (es : List Transfer) (size c : BitVec 16) : Prop :=
  ∃ low high, CrcAsked es size low high ∧ low.Taken ∧ high.Taken ∧
    c = high.lo.setWidth 16 <<< 8 ||| low.lo.setWidth 16

theorem crcTaken_of_getCrc {len c : BitVec 16} {as as' : List Answer} {es : List Transfer}
    (h : (bootloaderGetCrc 0 len).run as = (.ok c, as', es)) : CrcTaken es len c := by
  obtain ⟨_, as₁, es₁, es₂, hcommand, h₁, rfl⟩ := bind_eq_ok h
  obtain ⟨⟨lo, hi⟩, as₂, es₃, es₄, hlow, h₂, rfl⟩ := bind_eq_ok h₁
  obtain ⟨⟨lo', hi'⟩, as₃, es₅, es₆, hhigh, h₃, rfl⟩ := bind_eq_ok h₂
  obtain ⟨_, as₄, es₇, es₈, hconf, h₄, rfl⟩ := bind_eq_ok h₃
  obtain ⟨rfl, -, -⟩ := pure_eq_ok h₄
  obtain ⟨low, rfl, -, hlowTaken, rfl⟩ := bootloaderRxtx_read_eq_ok hlow
  obtain ⟨high, rfl, -, hhighTaken, rfl⟩ := bootloaderRxtx_read_eq_ok hhigh
  exact ⟨low, high, ⟨es₁, es₇ ++ es₈, rfl, bootloaderWriteBuffer_eq_ok hcommand,
    (bootloaderWriteBuffer_silent hcommand).1⟩, hlowTaken, hhighTaken, rfl⟩

/-- What was taken is the chip's answer, unless a register was half ready. -/
theorem CrcTaken.exchange {before exchange after : List Transfer} {size c : BitVec 16} (h : CrcTaken exchange size c)
    (hwhole : CrcWhole (before ++ (exchange ++ after))) : CrcExchange exchange size.toNat c := by
  obtain ⟨low, high, hasked, hlow, hhigh, hc⟩ := h
  have hlonger : CrcAsked (exchange ++ after) size low high := by
    obtain ⟨command, rest, rfl, hcommand⟩ := hasked
    exact ⟨command, rest ++ after, by simp only [List.append_assoc], hcommand⟩
  obtain ⟨hlowWhole, hhighWhole⟩ := hwhole before _ size low high rfl hlonger
  exact ⟨size, low, high, hasked, rfl, low.ready_of_taken hlow hlowWhole, high.ready_of_taken hhigh hhighWhole, hc⟩

section
variable {T R : ℕ → Prop}

theorem only_sendSequence (htx : T 4) {seq : List (List (BitVec 16))} (hseq : ∀ words ∈ seq, words.length = 2) :
    Only (Sizes T R) (sendSequence seq) := by
  induction seq with
  | nil => exact Only.pure _
  | cons words seq ih =>
      obtain ⟨hwords, hrest⟩ := List.forall_mem_cons.mp hseq
      obtain ⟨a, b, rfl⟩ := List.length_eq_two.mp hwords
      exact Only.bind (Only.bind (only_master fun _ _ => htx) fun _ => Only.pure _) fun _ =>
        Only.bind (Only.check _ _) fun _ => ih hrest

theorem only_enter (htx : T 2) (hack : T 4) (hrx : R 4) : Only (Sizes T R) bootloaderEnter :=
  Only.bind (only_sendSequence hack (by decide)) fun _ => only_getCmdConf htx hack hrx _

theorem only_eraseFlash (htx : T 2) (hack : T 4) (hdata : T 6) (hrx : R 2) (hread : R 4) :
    Only (Sizes T R) bootloaderEraseFlash := by
  refine Only.bind (Only.bind (only_writeDataReg htx hrx hdata _ _) fun _ => Only.pure _) fun _ => ?_
  have hloop : ∀ rounds, Only (Sizes T R) (eraseConf rounds) := by
    intro rounds
    induction rounds with
    | zero => exact Only.fail _
    | succ rounds ih =>
        refine Only.bind (Only.attempt (only_getCmdConf htx hack hread _)) fun conf => ?_
        split
        · exact Only.pure _
        · exact ih
  exact hloop _

theorem only_setByteMode (htx : T 2) (hack : T 4) (hdata : T 6) (hrx : R 2) (hread : R 4) :
    Only (Sizes T R) bootloaderSetByteMode :=
  Only.bind (only_writeBuffer htx hrx hdata _) fun _ => only_getCmdConf htx hack hread _

theorem only_awaitReady (htx : T 2) (hrx : R 2) (rounds : ℕ) : Only (Sizes T R) (awaitReady rounds) := by
  induction rounds with
  | zero => exact Only.fail _
  | succ rounds ih =>
      refine Only.bind (Only.attempt (only_readStatusReg htx hrx _ _)) fun status => ?_
      split
      · exact Only.pure _
      · exact ih

end

theorem length_blockBuffer {image : List (BitVec 8)} {i : ℕ} (h : (i + 1) * 128 ≤ image.length) :
    (blockBuffer image i).length = MXM_BL_WR_TX_SZ := by
  simp only [blockBuffer, List.length_cons, List.length_take, List.length_drop, MXM_BL_WR_BLK_SIZE, MXM_BL_WR_TX_SZ]
  omega

/-- The blocks that are written are the next part of the file. -/
theorem writeBlocks_eq_ok {image : List (BitVec 8)} {blocks i : ℕ} {as as' : List Answer} {es : List Transfer}
    {u : Unit} (h : (writeBlocks image blocks i).run as = (.ok u, as', es))
    (hlength : (i + blocks) * 128 ≤ image.length) : payloads es = (image.drop (i * 128)).take (blocks * 128) := by
  induction blocks generalizing i as es with
  | zero =>
      obtain ⟨-, -, rfl⟩ := pure_eq_ok h
      rw [Nat.zero_mul, List.take_zero]
      rfl
  | succ blocks ih =>
      obtain ⟨_, as₁, es₁, es₂, hready, h₁, rfl⟩ := bind_eq_ok h
      obtain ⟨sent, as₂, es₃, es₄, hsend, h₂, rfl⟩ := bind_eq_ok h₁
      obtain ⟨rfl, h₃⟩ := check_bind_eq_ok h₂
      obtain ⟨_, as₃, es₅, es₆, hcomplete, hrest, rfl⟩ := bind_eq_ok h₃
      have hblock : (blockBuffer image i).length = MXM_BL_WR_TX_SZ := length_blockBuffer (by omega)
      have hready := payloads_eq_nil (only_awaitReady (by decide) trivial _) hready
      have hcomplete := payloads_eq_nil (only_rxtxComplete (by decide)) hcomplete
      have hsend := i2cTxBytes_eq_ok hsend (by rw [hblock])
      have hpayload : payloads [.tx (blockBuffer image i) MXM_BL_WR_TX_SZ] = (image.drop (i * 128)).take 128 := by
        rw [payloads, List.flatMap_singleton]
        exact if_pos ⟨hblock, rfl⟩
      have hrest := ih hrest (by omega)
      have hlater : (blocks + 1) * 128 = 128 + blocks * 128 := by omega
      have hnext : i * 128 + 128 = (i + 1) * 128 := by omega
      simp only [payloads_append, hready, hcomplete, hsend, hpayload, hrest, List.nil_append]
      rw [hlater, List.take_add, List.drop_drop, hnext]

theorem bootloaderWriteFlash_eq_ok {image : List (BitVec 8)} {length : BitVec 16} {as as' : List Answer}
    {es : List Transfer} {u : Unit} (h : (bootloaderWriteFlash image length).run as = (.ok u, as', es))
    (hlength : length.toNat ≤ image.length) : payloads es = image.take (length.toNat / 128 * 128) := by
  obtain ⟨_, as₁, es₁, es₂, hcommand, h₁, rfl⟩ := bind_eq_ok h
  obtain ⟨_, as₂, es₃, es₄, hblocks, hconf, rfl⟩ := bind_eq_ok h₁
  have hshift : (length >>> 7).toNat = length.toNat / 128 := by
    rw [BitVec.toNat_ushiftRight, Nat.shiftRight_eq_div_pow]
  rw [hshift] at hblocks
  have hcommand := payloads_eq_nil (only_writeBuffer (by decide) trivial (by decide) _) hcommand
  have hblocks := writeBlocks_eq_ok hblocks (by omega)
  have hconf := payloads_eq_nil (only_getCmdConf (by decide) (by decide) trivial _) hconf
  rw [payloads_append, payloads_append, hcommand, hblocks, hconf, List.nil_append, List.append_nil, Nat.zero_mul,
    List.drop_zero]

/-- A round that returns a CRC has written the whole blocks of the file before it asked for it. -/
theorem programOnce_eq_ok {fw : List (BitVec 8)} {filesize c : BitVec 16} {as as' : List Answer} {es : List Transfer}
    (h : (programOnce fw filesize).run as = (.ok c, as', es)) (hsize : filesize.toNat ≤ fw.length) :
    ∃ written exchange, es = written ++ exchange ∧ payloads written = fw.take (filesize.toNat / 128 * 128) ∧
      CrcTaken exchange filesize c := by
  obtain ⟨_, as₁, es₁, es₂, henter, h₁, rfl⟩ := bind_eq_ok h
  obtain ⟨_, as₂, es₃, es₄, herase, h₂, rfl⟩ := bind_eq_ok h₁
  obtain ⟨_, as₃, es₅, es₆, hmode, h₃, rfl⟩ := bind_eq_ok h₂
  obtain ⟨_, as₄, es₇, es₈, hwrite, hcrc, rfl⟩ := bind_eq_ok h₃
  have henter := payloads_eq_nil (only_enter (by decide) (by decide) trivial) henter
  have herase := payloads_eq_nil (only_eraseFlash (by decide) (by decide) (by decide) trivial trivial) herase
  have hmode := payloads_eq_nil (only_setByteMode (by decide) (by decide) (by decide) trivial trivial) hmode
  refine ⟨es₁ ++ (es₃ ++ (es₅ ++ es₇)), es₈, by simp only [List.append_assoc], ?_, crcTaken_of_getCrc hcrc⟩
  rw [payloads_append, payloads_append, payloads_append, henter, herase, hmode, bootloaderWriteFlash_eq_ok hwrite hsize]
  rfl

theorem readChipCrc_eq_ok {codesize : BitVec 16} {rounds : ℕ} {as as' : List Answer} {es : List Transfer} {crc : ℤ}
    (h : (readChipCrc codesize rounds).run as = (.ok crc, as', es)) (hcrc : crc ≠ -1) :
    ∃ before exchange after c, es = before ++ (exchange ++ after) ∧ CrcTaken exchange codesize c ∧ crc = c.toNat := by
  induction rounds generalizing as es with
  | zero => exact absurd (pure_eq_ok h).1.symm hcrc
  | succ rounds ih =>
      obtain ⟨result, as₁, es₁, es₂, htry, h₁, rfl⟩ := bind_eq_ok h
      obtain ⟨exited, as₂, es₃, es₄, hexit, h₂, rfl⟩ := bind_eq_ok h₁
      cases result with
      | ok c =>
          obtain ⟨rfl, -, rfl⟩ := pure_eq_ok h₂
          obtain ⟨_, as₃, es₅, es₆, henter, hget, rfl⟩ := bind_eq_ok (attempt_eq_ok htry)
          exact ⟨es₅, es₆, es₃ ++ [], c, by simp only [List.append_assoc], crcTaken_of_getCrc hget, rfl⟩
      | error e =>
          obtain ⟨before, exchange, after, c, rfl, hexchange, hc⟩ := ih h₂
          exact ⟨es₁ ++ (es₃ ++ before), exchange, after, c, by simp only [List.append_assoc], hexchange, hc⟩

/-- The loop ends with the file's CRC only right after a round that has read it. -/
theorem reprogram_eq_ok {fw : List (BitVec 8)} {filesize : BitVec 16} {fileCrc chipCrc crc : ℤ} {rounds : ℕ}
    {as as' : List Answer} {es : List Transfer}
    (h : (reprogram fw filesize fileCrc rounds chipCrc).run as = (.ok crc, as', es)) (hcrc : crc = fileCrc)
    (hchip : chipCrc ≠ fileCrc) (hsize : filesize.toNat ≤ fw.length) :
    ∃ before written exchange after c, es = before ++ (written ++ (exchange ++ after)) ∧
      payloads written = fw.take (filesize.toNat / 128 * 128) ∧ CrcTaken exchange filesize c ∧
      fileCrc = c.toNat := by
  induction rounds generalizing chipCrc as es with
  | zero => exact absurd ((pure_eq_ok h).1.trans hcrc) hchip
  | succ rounds ih =>
      rw [reprogram, if_neg fun heq => hchip heq.symm] at h
      obtain ⟨result, as₁, es₁, es₂, htry, h₁, rfl⟩ := bind_eq_ok h
      obtain ⟨exited, as₂, es₃, es₄, hexit, h₂, rfl⟩ := bind_eq_ok h₁
      cases result with
      | error e =>
          obtain ⟨before, written, exchange, after, c, rfl, hrest⟩ := ih h₂ hchip
          exact ⟨es₁ ++ (es₃ ++ before), written, exchange, after, c, by simp only [List.append_assoc], hrest⟩
      | ok c =>
          by_cases hc : (c.toNat : ℤ) = fileCrc
          · obtain ⟨written, exchange, rfl, hwritten, hexchange⟩ := programOnce_eq_ok (attempt_eq_ok htry) hsize
            exact ⟨[], written, exchange, es₃ ++ es₄, c, by simp only [List.append_assoc, List.nil_append], hwritten,
              hexchange, hc.symm⟩
          · obtain ⟨before, written, exchange, after, c, rfl, hrest⟩ := ih h₂ hc
            exact ⟨es₁ ++ (es₃ ++ before), written, exchange, after, c, by simp only [List.append_assoc], hrest⟩

theorem finishLoad_eq_ok {reprogrammed : Bool} {as as' : List Answer} {es : List Transfer} {load : Load}
    (h : (finishLoad reprogrammed).run as = (.ok load, as', es)) : load.reprogrammed = reprogrammed := by
  obtain ⟨exited, as₁, es₁, es₂, -, hpure, rfl⟩ := bind_eq_ok h
  rw [← (pure_eq_ok hpure).1]

variable {crc16 : List (BitVec 8) → BitVec 16} {fw : List (BitVec 8)}

/-- A file of whole blocks whose length fits is in the chip when the load succeeds. -/
theorem holdsFile_of_ret_eq_zero {fwUpdateMode : ℕ} {as as' : List Answer} {es : List Transfer} {load : Load}
    (h : (deviceFwLoad crc16 fwUpdateMode fw).run as = (.ok load, as', es)) (hret : load.ret = 0)
    (hwhole : CrcWhole es) (hlength : fw.length < 65536) (hblocks : 128 ∣ fw.length) :
    HoldsFile crc16 fw load.reprogrammed es := by
  have hsize : (BitVec.ofNat 16 fw.length).toNat = fw.length := by
    rw [BitVec.toNat_ofNat]
    exact Nat.mod_eq_of_lt hlength
  have hfile : fw.take (BitVec.ofNat 16 fw.length).toNat = fw := by rw [hsize, List.take_length]
  obtain ⟨chipCrc, as₁, es₁, es₂, hread, h₁, rfl⟩ := bind_eq_ok h
  rw [hfile] at h₁
  split at h₁
  · obtain ⟨chipCrc', as₂, es₃, es₄, hprogram, h₂, rfl⟩ := bind_eq_ok h₁
    split at h₂
    · rw [← (pure_eq_ok h₂).1] at hret
      exact absurd hret (by decide)
    · rename_i hequal
      obtain ⟨before, written, exchange, after, c, rfl, hwritten, htaken, hc⟩ :=
        reprogram_eq_ok hprogram (not_not.mp hequal).symm (by omega) hsize.le
      have hsplit : es₁ ++ (before ++ (written ++ (exchange ++ after)) ++ es₄) =
          es₁ ++ before ++ written ++ (exchange ++ (after ++ es₄)) := by simp only [List.append_assoc]
      rw [hsplit] at hwhole
      have hexchange := htaken.exchange hwhole
      rw [hsize] at hwritten hexchange
      rw [Nat.div_mul_cancel hblocks, List.take_length] at hwritten
      have hcrc : crc16 fw = c := BitVec.eq_of_toNat_eq (Int.ofNat.inj hc)
      exact ⟨es₁ ++ before, written, exchange, after ++ es₄, by simp only [List.append_assoc], hcrc ▸ hexchange,
        fun _ => hwritten⟩
  · rename_i hskip
    have hequal : ((crc16 fw).toNat : ℤ) = chipCrc := not_not.mp fun hne => hskip (.inr hne)
    obtain ⟨before, exchange, after, c, rfl, htaken, hc⟩ := readChipCrc_eq_ok hread (by omega)
    have hsplit : before ++ (exchange ++ after) ++ es₂ = before ++ (exchange ++ (after ++ es₂)) := by
      simp only [List.append_assoc]
    rw [hsplit] at hwhole
    have hexchange := htaken.exchange hwhole
    rw [hsize] at hexchange
    have hcrc : crc16 fw = c := BitVec.eq_of_toNat_eq (Int.ofNat.inj (hequal.trans hc))
    refine ⟨before, [], exchange, after ++ es₂, by simp only [List.append_assoc, List.nil_append], hcrc ▸ hexchange, ?_⟩
    rw [finishLoad_eq_ok h₁]
    exact fun hprogrammed => nomatch hprogrammed

/-- If the transfer is a read of the data register, this is the status word it brings. -/
def WithStatus (statusL statusH : BitVec 8) (e : Transfer) : Prop :=
  ∀ r, regOf e = some r → r.statusL = statusL ∧ r.statusH = statusH

/-- A chip that shows this status word at every read of the data register can make the program return `a`. -/
abbrev Yields (statusL statusH : BitVec 8) {α : Type} (x : Driver α) (a : α) : Prop :=
  CanReturn (WithStatus statusL statusH) x a

section
variable {statusL statusH : BitVec 8}

theorem yields_master {n : ℕ} {transfer : Answer → ℤ → Transfer} (data : ℕ → BitVec 8)
    (hstatus : WithStatus statusL statusH (transfer ⟨n, data⟩ n)) :
    Yields statusL statusH (i2cMaster n transfer) (n, data) := by
  refine ⟨[⟨n, data⟩], [transfer ⟨n, data⟩ n], fun rest => ?_, List.forall_mem_singleton.mpr hstatus⟩
  have hdrop : ([⟨n, data⟩] ++ rest : List Answer).dropWhile (·.ret = - EAGAIN) = ⟨n, data⟩ :: rest :=
    List.dropWhile_cons_of_neg (by simp)
  simp only [i2cMaster, hdrop, min_self]

theorem countOf_natCast {n : ℕ} (h : n < 65536) : countOf n = n := by
  unfold countOf
  rw [if_neg (by omega), BitVec.toNat_ofInt]
  omega

theorem yields_txBytes {buf : List (BitVec 8)} (h : buf.length < 65536) :
    Yields statusL statusH (i2cTxBytes buf) buf.length := by
  refine CanReturn.bind (yields_master (fun _ => 0) nofun) ?_
  change Yields statusL statusH (pure (countOf buf.length)) _
  rw [countOf_natCast h]
  exact CanReturn.pure _

theorem yields_rxBytes {n : ℕ} (h : n < 65536) (data : ℕ → BitVec 8)
    (hstatus : WithStatus statusL statusH (.rx ((List.range n).map data) n)) :
    Yields statusL statusH (i2cRxBytes n) (n, data) := by
  refine CanReturn.bind (yields_master data hstatus) ?_
  change Yields statusL statusH (pure (countOf n, data)) _
  rw [countOf_natCast h]
  exact CanReturn.pure _

theorem yields_readStatusReg (byteL byteH : BitVec 8) :
    Yields statusL statusH (bootloaderReadStatusReg byteL byteH) () := by
  refine CanReturn.bind (yields_txBytes (by decide)) (CanReturn.bind (CanReturn.check rfl _) ?_)
  refine CanReturn.bind (yields_rxBytes (by decide) (fun i => if i = 0 then byteL else byteH) nofun)
    (CanReturn.bind (CanReturn.check rfl _) ?_)
  change Yields statusL statusH (if byteL = byteL ∧ byteH = byteH then pure () else _) ()
  rw [if_pos ⟨rfl, rfl⟩]
  exact CanReturn.pure ()

theorem yields_rxtxComplete : Yields statusL statusH bootloaderRxtxComplete () :=
  CanReturn.bind (yields_txBytes (by decide)) (CanReturn.check rfl _)

theorem yields_writeDataReg (byteL byteH : BitVec 8) :
    Yields statusL statusH (bootloaderWriteDataReg byteL byteH) () :=
  CanReturn.bind (yields_readStatusReg _ _)
    (CanReturn.bind (yields_txBytes (show 6 < 65536 by decide)) (CanReturn.check rfl _))

theorem yields_writeBuffer (buffer : List (BitVec 8)) :
    Yields statusL statusH (bootloaderWriteBuffer buffer) () := by
  induction buffer with
  | nil => exact CanReturn.pure ()
  | cons byte buffer ih =>
      exact CanReturn.bind (CanReturn.bind (yields_writeDataReg _ _) (CanReturn.pure _)) ih

theorem yields_sendSequence {seq : List (List (BitVec 16))} (hseq : ∀ words ∈ seq, words.length = 2) :
    Yields statusL statusH (sendSequence seq) () := by
  induction seq with
  | nil => exact CanReturn.pure ()
  | cons words seq ih =>
      obtain ⟨hwords, hrest⟩ := List.forall_mem_cons.mp hseq
      obtain ⟨a, b, rfl⟩ := List.length_eq_two.mp hwords
      have hsend : Yields statusL statusH (i2cTxWords [a, b]) 2 := by
        have hcount : wordCountOf 4 = 2 := by decide
        refine CanReturn.bind (yields_master (fun _ => 0) nofun) ?_
        change Yields statusL statusH (pure (wordCountOf 4)) 2
        rw [hcount]
        exact CanReturn.pure 2
      exact CanReturn.bind hsend (CanReturn.bind (CanReturn.check rfl _) (ih hrest))

theorem yields_exit : Yields statusL statusH bootloaderExit () := yields_sendSequence (by decide)

theorem yields_writeBlocks {image : List (BitVec 8)} {blocks i : ℕ} (h : (i + blocks) * 128 ≤ image.length) :
    Yields statusL statusH (writeBlocks image blocks i) () := by
  induction blocks generalizing i with
  | zero => exact CanReturn.pure ()
  | succ blocks ih =>
      have hready : Yields statusL statusH (awaitReady MXM_BL_WR_STATUS_RETRY) () :=
        CanReturn.bind (CanReturn.attempt (yields_readStatusReg _ _)) (CanReturn.pure ())
      have hblock : (blockBuffer image i).length = MXM_BL_WR_TX_SZ := length_blockBuffer (by omega)
      refine CanReturn.bind hready (CanReturn.bind (yields_txBytes (hblock ▸ by decide)) ?_)
      exact CanReturn.bind (CanReturn.check (congrArg _ hblock) _)
        (CanReturn.bind yields_rxtxComplete (ih (by omega)))

theorem yields_finishLoad (reprogrammed : Bool) :
    Yields statusL statusH (finishLoad reprogrammed) ⟨0, reprogrammed⟩ := by
  have hleave : Yields statusL statusH (leaveBootloader MXM_FW_RETRIES_MAX) () :=
    CanReturn.bind (CanReturn.attempt yields_exit) (CanReturn.pure ())
  exact CanReturn.bind (CanReturn.attempt hleave) (CanReturn.pure _)

theorem bytes_of_crc (c : BitVec 16) :
    ((c >>> 8).setWidth 8).setWidth 16 <<< 8 ||| (c.setWidth 8).setWidth 16 = c := by
  ext i hi
  simp only [BitVec.getElem_or, BitVec.getElem_shiftLeft, BitVec.getElem_setWidth, BitVec.getLsbD_setWidth,
    BitVec.getLsbD_ushiftRight]
  by_cases h : i < 8
  · simp [h, BitVec.getLsbD_eq_getElem hi]
  · simp [h]
    grind

variable (htaken : statusL = MXM_BL_STATUS_READY_L ∨ statusH = MXM_BL_STATUS_READY_H)
include htaken

/-- One ready byte in the status word is enough. -/
theorem yields_readDataReg (lo hi : BitVec 8) : Yields statusL statusH bootloaderReadDataReg (lo, hi) := by
  have hstatus : WithStatus statusL statusH
      (.rx ((List.range 4).map fun i => [lo, hi, statusL, statusH].getD i 0) (4 : ℕ)) := by
    rintro r hr
    cases hr
    exact ⟨rfl, rfl⟩
  have hready : ¬(statusL ≠ MXM_BL_STATUS_READY_L ∧ statusH ≠ MXM_BL_STATUS_READY_H) := fun h => htaken.elim h.1 h.2
  refine CanReturn.bind (yields_txBytes (by decide)) (CanReturn.bind (CanReturn.check rfl _) ?_)
  refine CanReturn.bind (yields_rxBytes (by decide) _ hstatus) (CanReturn.bind (CanReturn.check rfl _) ?_)
  exact CanReturn.bind (CanReturn.check hready _)
    (CanReturn.bind yields_rxtxComplete (CanReturn.pure _))

theorem yields_getCmdConf (rounds : ℕ) : Yields statusL statusH (getCmdConf (rounds + 1)) () :=
  CanReturn.bind (CanReturn.attempt (yields_readDataReg htaken MXM_BL_DATA_READY_L MXM_BL_DATA_READY_H))
    (CanReturn.pure ())

theorem yields_enter : Yields statusL statusH bootloaderEnter () :=
  CanReturn.bind (yields_sendSequence (by decide)) (yields_getCmdConf htaken 4)

theorem yields_eraseFlash : Yields statusL statusH bootloaderEraseFlash () :=
  CanReturn.bind (CanReturn.bind (yields_writeDataReg _ _) (CanReturn.pure _))
    (CanReturn.bind (CanReturn.attempt (yields_getCmdConf htaken 0)) (CanReturn.pure ()))

theorem yields_setByteMode : Yields statusL statusH bootloaderSetByteMode () :=
  CanReturn.bind (yields_writeBuffer _) (yields_getCmdConf htaken 9)

theorem yields_writeFlash {image : List (BitVec 8)} {length : BitVec 16} (h : length.toNat ≤ image.length) :
    Yields statusL statusH (bootloaderWriteFlash image length) () := by
  have hblocks : (0 + (length >>> 7).toNat) * 128 ≤ image.length := by
    rw [BitVec.toNat_ushiftRight, Nat.shiftRight_eq_div_pow]
    omega
  exact CanReturn.bind (yields_writeBuffer _)
    (CanReturn.bind (yields_writeBlocks hblocks) (yields_getCmdConf htaken 4))

/-- Any CRC can be the answer. -/
theorem yields_getCrc (addr len c : BitVec 16) : Yields statusL statusH (bootloaderGetCrc addr len) c := by
  refine CanReturn.bind (yields_writeBuffer _) (CanReturn.bind (yields_readDataReg htaken (c.setWidth 8) 0) ?_)
  refine CanReturn.bind (yields_readDataReg htaken ((c >>> 8).setWidth 8) 0)
    (CanReturn.bind (yields_getCmdConf htaken 4) ?_)
  rw [bytes_of_crc]
  exact CanReturn.pure c

theorem yields_readChipCrc (codesize c : BitVec 16) (rounds : ℕ) :
    Yields statusL statusH (readChipCrc codesize (rounds + 1)) c.toNat :=
  CanReturn.bind (CanReturn.attempt (CanReturn.bind (yields_enter htaken) (yields_getCrc htaken _ _ c)))
    (CanReturn.bind (CanReturn.attempt yields_exit) (CanReturn.pure _))

theorem yields_reprogram {filesize c : BitVec 16} (rounds : ℕ) (h : filesize.toNat ≤ fw.length) :
    Yields statusL statusH (reprogram fw filesize c.toNat (rounds + 1) (-1)) c.toNat := by
  rw [reprogram, if_neg (by omega)]
  have hround : Yields statusL statusH (programOnce fw filesize) c :=
    CanReturn.bind (yields_enter htaken) (CanReturn.bind (yields_eraseFlash htaken)
      (CanReturn.bind (yields_setByteMode htaken)
      (CanReturn.bind (yields_writeFlash htaken h) (yields_getCrc htaken _ _ c))))
  refine CanReturn.bind (CanReturn.attempt hround) (CanReturn.bind (CanReturn.attempt yields_exit) ?_)
  change Yields statusL statusH (reprogram fw filesize c.toNat rounds c.toNat) _
  cases rounds with
  | zero => exact CanReturn.pure _
  | succ rounds =>
      rw [reprogram, if_pos rfl]
      exact CanReturn.pure _

/-- With the update forced, a load of any file can succeed. -/
theorem yields_forced (crc16 : List (BitVec 8) → BitVec 16) (fw : List (BitVec 8)) :
    Yields statusL statusH (deviceFwLoad crc16 MXM_FW_UPDATE_FORCE fw) ⟨0, true⟩ := by
  have hsize : (BitVec.ofNat 16 fw.length).toNat ≤ fw.length := by
    rw [BitVec.toNat_ofNat]
    exact Nat.mod_le _ _
  refine CanReturn.bind (yields_readChipCrc htaken _ 0 4) ?_
  rw [if_pos (.inl rfl)]
  refine CanReturn.bind (yields_reprogram htaken 4 hsize) ?_
  rw [if_neg (not_not.mpr rfl)]
  exact yields_finishLoad true

end

theorem length_payloads (es : List Transfer) : 128 ∣ (payloads es).length := by
  induction es with
  | nil => exact Nat.dvd_zero _
  | cons e es ih =>
      rw [payloads, List.flatMap_cons, List.length_append]
      refine Nat.dvd_add ?_ ih
      cases e with
      | rx buf ret => exact Nat.dvd_zero _
      | tx buf ret =>
          rw [payload]
          split
          · rename_i hblock
            rw [List.length_drop, hblock.1]
            decide
          · exact Nat.dvd_zero _

theorem mem_presented_of_asked {exchange : List Transfer} {size : BitVec 16} {low high : Reg}
    (h : CrcAsked exchange size low high) : low ∈ presented exchange ∧ high ∈ presented exchange := by
  obtain ⟨command, rest, rfl, -, -⟩ := h
  simp only [presented_append, presented_readOf]
  exact ⟨by simp, by simp⟩

theorem withStatus_of_mem {statusL statusH : BitVec 8} {es : List Transfer}
    (hes : ∀ e ∈ es, WithStatus statusL statusH e) {r : Reg} (hr : r ∈ presented es) :
    r.statusL = statusL ∧ r.statusH = statusH := by
  obtain ⟨e, he, hreg⟩ := List.mem_filterMap.mp hr
  exact hes e he r hreg

/-- A chip that is always ready leaves no CRC in doubt. -/
theorem crcWhole_of_ready {es : List Transfer}
    (hes : ∀ e ∈ es, WithStatus MXM_BL_STATUS_READY_L MXM_BL_STATUS_READY_H e) : CrcWhole es := by
  rintro before exchange size low high rfl hasked
  obtain ⟨hlow, hhigh⟩ := mem_presented_of_asked hasked
  have hready : ∀ r ∈ presented exchange, ¬r.HalfReady := fun r hr =>
    r.not_halfReady_of_ready (withStatus_of_mem (fun e he => hes e (List.mem_append_right _ he)) hr)
  exact ⟨hready low hlow, hready high hhigh⟩

/-- A chip that is never ready has answered no CRC. -/
theorem not_holdsFile_of_halfReady {statusL statusH : BitVec 8}
    (hstatus : ¬(statusL = MXM_BL_STATUS_READY_L ∧ statusH = MXM_BL_STATUS_READY_H)) {es : List Transfer}
    (hes : ∀ e ∈ es, WithStatus statusL statusH e) (reprogrammed : Bool) : ¬HoldsFile crc16 fw reprogrammed es := by
  rintro ⟨before, written, exchange, after, rfl, ⟨size, low, high, hasked, -, hready, -⟩, -⟩
  have hmem : low ∈ presented (before ++ (written ++ (exchange ++ after))) := by
    simp only [presented_append, List.mem_append]
    exact .inr (.inr (.inl (mem_presented_of_asked hasked).1))
  obtain ⟨hl, hh⟩ := withStatus_of_mem hes hmem
  exact hstatus ⟨hl ▸ hready.1, hh ▸ hready.2⟩

/-- For every file and every CRC function: in all modes and with all answers a load that succeeds without a CRC byte
from a half-ready register leaves the file in the chip exactly if the file's length fits into 16 bits and is a whole
number of blocks; where registers may be half ready, it does so for no file. -/
theorem deviceFwLoad_right_iff (crc16 : List (BitVec 8) → BitVec 16) (fw : List (BitVec 8)) :
    ((∀ fwUpdateMode as load as' es, (deviceFwLoad crc16 fwUpdateMode fw).run as = (.ok load, as', es) →
        load.ret = 0 → CrcWhole es → HoldsFile crc16 fw load.reprogrammed es) ↔
      fw.length < 65536 ∧ 128 ∣ fw.length) ∧
    ¬∀ fwUpdateMode as load as' es, (deviceFwLoad crc16 fwUpdateMode fw).run as = (.ok load, as', es) →
        load.ret = 0 → HoldsFile crc16 fw load.reprogrammed es := by
  refine ⟨⟨fun hright => ?_, ?_⟩, fun hright => ?_⟩
  · obtain ⟨as, es, hrun, hes⟩ := yields_forced (.inl rfl) crc16 fw
    obtain ⟨before, written, exchange, after, -, ⟨size, low, high, -, hsize, -⟩, hwritten⟩ :=
      hright _ _ _ _ _ (hrun []) rfl (crcWhole_of_ready hes)
    exact ⟨hsize ▸ size.isLt, hwritten rfl ▸ length_payloads written⟩
  · rintro ⟨hlength, hblocks⟩ fwUpdateMode as load as' es hrun hret hwhole
    exact holdsFile_of_ret_eq_zero hrun hret hwhole hlength hblocks
  · obtain ⟨as, es, hrun, hes⟩ : Yields MXM_BL_STATUS_READY_L 0x00 _ _ := yields_forced (.inl rfl) crc16 fw
    exact not_holdsFile_of_halfReady (by decide) hes true (hright _ _ _ _ _ (hrun []) rfl)

theorem deviceFwLoad_one_byte : ¬∀ fwUpdateMode as load as' es,
    (deviceFwLoad (fun _ => 0) fwUpdateMode [0x5A]).run as = (.ok load, as', es) → load.ret = 0 →
      HoldsFile (fun _ => 0) [0x5A] load.reprogrammed es := by
  intro hright
  obtain ⟨as, es, hrun, -⟩ : Yields MXM_BL_STATUS_READY_L MXM_BL_STATUS_READY_H _ _ :=
    yields_forced (.inl rfl) (fun _ => 0) [0x5A]
  obtain ⟨before, written, exchange, after, -, -, hwritten⟩ := hright _ _ _ _ _ (hrun []) rfl
  have hlength := length_payloads written
  rw [hwritten rfl] at hlength
  exact absurd hlength (by decide)

end Sirius.Touch.Boot
