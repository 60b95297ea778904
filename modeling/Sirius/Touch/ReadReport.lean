import Mathlib.Data.List.Range
import Sirius.Lib.Dialog
import Sirius.Touch.Packets

/-!
# Reading a packet: read_mtp_report

The driver sets the address and reads the header, or as many words as `i2c_words` says, and then the rest. The packet
is what the chip has from the start address on; what the bus answers is a list, transfer by transfer.
-/
namespace Sirius.Touch.Report
open Dialog

@[simp] def MXM_RPT_START_ADDR : BitVec 16 := 0x000A
@[simp] def MXM_RPT_PKT_HDR_LEN : ℕ := 1

/-- `rx_packet` has this many words. -/
@[simp] def RX_PACKET_WORDS : ℕ := MXM_RPT_LEN_PACKET_MAX + 1

/-- Words stored from the start of `rx_packet` on. -/
structure Store where
  offset : ℕ
  count : ℕ
  deriving DecidableEq, Repr

abbrev Reader (α : Type) : Type := Talk ℤ Store ℤ α

/-- `i2c_master_send` and `i2c_master_recv` of `n` bytes, again as long as the bus says so; the answers are errors or
how many bytes went over. Behind the list the bus does not answer. -/
def i2cMaster (n : ℕ) (stored : ℤ → List Store) : Reader ℤ := ⟨fun as =>
  match as.dropWhile (· = - EAGAIN) with
  | [] => (.ok (- EIO), [], [])
  | ret :: as => (.ok (min ret n), as, stored (min ret n))⟩

def wordsOf (ret : ℤ) : ℤ := if ret < 0 then ret else if ret % 2 ≠ 0 then - EIO else (BitVec.ofInt 16 (ret / 2)).toNat

/-- `i2c_tx_words` of the address alone. -/
def i2cTxAddress : Reader ℤ := do
  let ret ← i2cMaster 2 fun _ => []
  return wordsOf ret

/-- The buffer after `ret` bytes of what the chip has at `address`; of an odd last byte, half a word. -/
def received (pkt : ℕ → BitVec 16) (address : BitVec 16) (buf : ℕ → BitVec 16) (offset : ℕ) (ret : ℤ) :
    ℕ → BitVec 16 :=
  fun i =>
    let word := pkt ((address - MXM_RPT_START_ADDR).toNat + (i - offset))
    if i < offset then buf i
    else if (2 * (i - offset) + 2 : ℕ) ≤ ret then word
    else if (2 * (i - offset) + 1 : ℕ) ≤ ret then (buf i &&& 0xFF00) ||| (word &&& 0x00FF)
    else buf i

/-- `i2c_rx_words(ts, &buf[offset], len)`, where the chip's address was set to `address`. -/
def i2cRxWords (pkt : ℕ → BitVec 16) (address : BitVec 16) (buf : ℕ → BitVec 16) (offset len : ℕ) :
    Reader (ℤ × (ℕ → BitVec 16)) := do
  let ret ← i2cMaster (2 * len) fun ret => [⟨offset, ((ret + 1) / 2).toNat⟩]
  return (wordsOf ret, received pkt address buf offset ret)

/-- `words`, limited to `i2c_words`. -/
def clampWords (words limit : ℕ) : ℕ := if words > limit then limit else words

/-- `offset`: if the first read was too short, where it ended. -/
def offsetAfter (words limit : ℕ) : ℕ := if words > limit then limit else 0

/-- How both modes end: the address is set, and all words are read. -/
def readAt (pkt : ℕ → BitVec 16) (address : BitVec 16) (buf : ℕ → BitVec 16) (offset len : ℕ) :
    Reader (ℕ → BitVec 16) := do
  let wordsTx ← i2cTxAddress
  check (wordsTx = 1) (- EIO)
  let (wordsRx, buf) ← i2cRxWords pkt address buf offset len
  check (wordsRx = len) (- EIO)
  return buf

/-- `read_mtp_report`; `rx_packet` where it returns 0. -/
def readMtpReport (pkt : ℕ → BitVec 16) (isRawMode : Bool) (i2cWords : BitVec 32) (buf : ℕ → BitVec 16) :
    Reader (ℕ → BitVec 16) := do
  let limit := (i2cWords.setWidth 16).toNat
  let wordsTx ← i2cTxAddress
  check (wordsTx = 1) (- EIO)
  if isRawMode = false then do
    let (wordsRx, buf) ← i2cRxWords pkt MXM_RPT_START_ADDR buf 0 MXM_RPT_PKT_HDR_LEN
    check (¬(wordsRx ≠ MXM_RPT_PKT_HDR_LEN ∨ (BYTEL (buf 0)).toNat > MXM_RPT_LEN_PACKET_MAX)) (- EIO)
    let words := (BYTEL (buf 0)).toNat + MXM_RPT_PKT_HDR_LEN
    readAt pkt MXM_RPT_START_ADDR buf 0 (clampWords words limit)
  else do
    let (wordsRx, buf) ← i2cRxWords pkt MXM_RPT_START_ADDR buf 0 limit
    check (¬(wordsRx ≠ limit ∨ (BYTEL (buf 0)).toNat > MXM_RPT_LEN_PACKET_MAX)) (- EIO)
    let words := (BYTEL (buf 0)).toNat + MXM_RPT_PKT_HDR_LEN
    let offset := offsetAfter words limit
    readAt pkt (MXM_RPT_START_ADDR + BitVec.ofNat 16 offset) buf offset (words - offset)

/-- `rx_packet` holds the header and all words of the packet. -/
structure Holds (pkt buf : ℕ → BitVec 16) : Prop where
  fits : (BYTEL (pkt 0)).toNat < RX_PACKET_WORDS
  words : ∀ k ≤ (BYTEL (pkt 0)).toNat, buf k = pkt k

def InBounds (s : Store) : Prop := s.offset + s.count ≤ RX_PACKET_WORDS

/-- The sizes that a mode reads completely: without raw mode no packet is longer than `i2c_words`; in raw mode
`i2c_words` is within the buffer, and it is not zero unless the packet is empty. -/
def Suits (isRawMode : Bool) (limit size : ℕ) : Prop :=
  if isRawMode = false then MXM_RPT_LEN_PACKET_MAX < size ∨ size < max limit 1
  else limit ≤ RX_PACKET_WORDS ∧ (limit = 0 → size = 0)

/-- The buffer with `len` words of the chip's, from the address `more` words after the start. -/
def filled (pkt buf : ℕ → BitVec 16) (more offset len : ℕ) : ℕ → BitVec 16 :=
  fun i => if offset ≤ i ∧ i < offset + len then pkt (more + (i - offset)) else buf i

section
variable {pkt buf buf' : ℕ → BitVec 16} {more offset len : ℕ} {as as' : List ℤ} {es : List Store}

theorem received_eq_filled {address : BitVec 16} (h : address = MXM_RPT_START_ADDR + BitVec.ofNat 16 more)
    (hmore : more < 65536) : received pkt address buf offset (2 * len : ℕ) = filled pkt buf more offset len := by
  have hoffset : (address - MXM_RPT_START_ADDR).toNat = more := by
    rw [h, BitVec.add_comm, BitVec.add_sub_cancel, BitVec.toNat_ofNat]
    exact Nat.mod_eq_of_lt hmore
  funext i
  simp only [received, filled, hoffset]
  by_cases hbefore : i < offset
  · rw [if_pos hbefore, if_neg (by omega)]
  · rw [if_neg hbefore]
    by_cases hin : i < offset + len
    · rw [if_pos (by omega), if_pos (by omega)]
    · rw [if_neg (by omega), if_neg (by omega), if_neg (by omega)]

theorem wordsOf_eq {ret : ℤ} {len : ℕ} (h : wordsOf ret = len) (hle : ret ≤ (2 * len : ℕ)) (hlen : len < 65536) :
    ret = (2 * len : ℕ) := by
  unfold wordsOf at h
  split at h
  · omega
  · split at h
    · simp only [ EIO] at h
      omega
    · rw [BitVec.toNat_ofInt] at h
      omega

theorem wordsOf_double {len : ℕ} (hlen : len < 65536) : wordsOf (2 * len : ℕ) = len := by
  unfold wordsOf
  rw [if_neg (by omega), if_neg (by omega), BitVec.toNat_ofInt]
  omega

theorem i2cMaster_eq_ok {n : ℕ} {stored : ℤ → List Store} {ret : ℤ}
    (h : (i2cMaster n stored).run as = (.ok ret, as', es)) : ret ≤ n := by
  simp only [i2cMaster] at h
  split at h
  · cases h
    simp only [ EIO]
    omega
  · cases h
    exact min_le_right _ _

theorem i2cRxWords_eq_ok (more : ℕ) {address : BitVec 16}
    (haddress : address = MXM_RPT_START_ADDR + BitVec.ofNat 16 more) (hmore : more < 65536) (hlen : len < 65536)
    (h : (i2cRxWords pkt address buf offset len).run as = (.ok ((len : ℤ), buf'), as', es)) :
    buf' = filled pkt buf more offset len := by
  obtain ⟨ret, as₁, es₁, es₂, hrun, hpure, rfl⟩ := bind_eq_ok h
  obtain ⟨hpair, -, -⟩ := pure_eq_ok hpure
  obtain ⟨hwords, rfl⟩ := Prod.mk.inj hpair
  rw [wordsOf_eq hwords (i2cMaster_eq_ok hrun) hlen]
  exact received_eq_filled haddress hmore

theorem readAt_eq_ok (more : ℕ) {address : BitVec 16} (haddress : address = MXM_RPT_START_ADDR + BitVec.ofNat 16 more)
    (hmore : more < 65536) (hlen : len < 65536) (h : (readAt pkt address buf offset len).run as = (.ok buf', as', es)) :
    buf' = filled pkt buf more offset len := by
  obtain ⟨wordsTx, as₁, es₁, es₂, -, h₁, rfl⟩ := bind_eq_ok h
  obtain ⟨-, h₂⟩ := check_bind_eq_ok h₁
  obtain ⟨⟨wordsRx, buf''⟩, as₂, es₃, es₄, hread, h₃, rfl⟩ := bind_eq_ok h₂
  obtain ⟨rfl, h₄⟩ := check_bind_eq_ok h₃
  rw [← (pure_eq_ok h₄).1]
  exact i2cRxWords_eq_ok more haddress hmore hlen hread

theorem only_txAddress : Only InBounds i2cTxAddress := by
  refine Only.bind ?_ fun _ => Only.pure _
  intro as s hs
  simp only [i2cMaster] at hs
  split at hs <;> exact absurd hs List.not_mem_nil

theorem only_rxWords {address : BitVec 16} (h : offset + len ≤ RX_PACKET_WORDS) :
    Only InBounds (i2cRxWords pkt address buf offset len) := by
  refine Only.bind ?_ fun _ => Only.pure _
  intro as s hs
  simp only [i2cMaster] at hs
  split at hs
  · exact absurd hs List.not_mem_nil
  · rw [List.mem_singleton.mp hs]
    change offset + ((min _ ((2 * len : ℕ) : ℤ) + 1) / 2).toNat ≤ RX_PACKET_WORDS
    omega

theorem only_readAt {address : BitVec 16} (h : offset + len ≤ RX_PACKET_WORDS) :
    Only InBounds (readAt pkt address buf offset len) :=
  Only.bind only_txAddress fun _ => Only.check_bind fun _ => Only.bind (only_rxWords h) fun _ =>
    Only.check_bind fun _ => Only.pure _

theorem clampWords_le (words limit : ℕ) : clampWords words limit ≤ words := by
  unfold clampWords
  split <;> omega

theorem offsetAfter_le (words limit : ℕ) : offsetAfter words limit ≤ words := by
  unfold offsetAfter
  split <;> omega

theorem only_readMtpReport {isRawMode : Bool} {i2cWords : BitVec 32}
    (h : isRawMode = true → (i2cWords.setWidth 16).toNat ≤ RX_PACKET_WORDS) :
    Only InBounds (readMtpReport pkt isRawMode i2cWords buf) := by
  have hwords : ∀ size ≤ MXM_RPT_LEN_PACKET_MAX, size + MXM_RPT_PKT_HDR_LEN ≤ RX_PACKET_WORDS := by
    intro size hsize
    exact Nat.add_le_add_right hsize 1
  refine Only.bind only_txAddress fun wordsTx => Only.check_bind fun _ => ?_
  split
  · refine Only.bind (only_rxWords (by decide)) fun ⟨wordsRx, buf'⟩ => Only.check_bind fun hheader => only_readAt ?_
    have hsize := hwords _ (Nat.le_of_not_gt (not_or.mp hheader).2)
    rw [Nat.zero_add]
    exact Nat.le_trans (clampWords_le _ _) hsize
  · rename_i hraw
    have hlimit := h (Bool.not_eq_false _ ▸ hraw)
    refine Only.bind (only_rxWords (by omega)) fun ⟨wordsRx, buf'⟩ => Only.check_bind fun hheader => only_readAt ?_
    have hsize := hwords _ (Nat.le_of_not_gt (not_or.mp hheader).2)
    rw [Nat.add_sub_cancel' (offsetAfter_le _ _)]
    exact hsize

theorem filled_apply {k : ℕ} (hoffset : offset ≤ k) (hk : k < offset + len) :
    filled pkt buf offset offset len k = pkt k := by
  rw [filled, if_pos ⟨hoffset, hk⟩, Nat.add_sub_cancel' hoffset]

theorem filled_before {k : ℕ} (hk : k < offset) : filled pkt buf more offset len k = buf k :=
  if_neg fun h => absurd h.1 (Nat.not_le_of_lt hk)

theorem filled_behind {k : ℕ} (hk : offset + len ≤ k) : filled pkt buf more offset len k = buf k :=
  if_neg fun h => absurd h.2 (Nat.not_lt_of_le hk)

variable {i2cWords : BitVec 32}

theorem readMtpReport_eq_ok (h : (readMtpReport pkt false i2cWords buf).run as = (.ok buf', as', es)) :
    (BYTEL (pkt 0)).toNat ≤ MXM_RPT_LEN_PACKET_MAX ∧
      buf' = filled pkt (filled pkt buf 0 0 1) 0 0
        (clampWords ((BYTEL (pkt 0)).toNat + 1) (i2cWords.setWidth 16).toNat) := by
  obtain ⟨wordsTx, as₁, es₁, es₂, -, h₁, rfl⟩ := bind_eq_ok h
  obtain ⟨-, h₂⟩ := check_bind_eq_ok h₁
  rw [if_pos rfl] at h₂
  obtain ⟨⟨wordsRx, buf₁⟩, as₂, es₃, es₄, hread, h₃, rfl⟩ := bind_eq_ok h₂
  obtain ⟨hin, h₄⟩ := check_bind_eq_ok h₃
  obtain ⟨hwords, hsize⟩ := not_or.mp hin
  rw [not_not.mp hwords] at hread
  have hbuf := i2cRxWords_eq_ok 0 rfl (by decide) (by decide) hread
  have hheader : buf₁ 0 = pkt 0 := by
    rw [hbuf]
    exact filled_apply (Nat.le_refl 0) Nat.one_pos
  rw [hheader] at hsize
  have hsize := Nat.le_of_not_gt hsize
  have hclamp := clampWords_le ((BYTEL (pkt 0)).toNat + 1) (i2cWords.setWidth 16).toNat
  rw [hheader] at h₄
  have hlen : clampWords ((BYTEL (pkt 0)).toNat + 1) (i2cWords.setWidth 16).toNat < 65536 := by
    simp only [MXM_RPT_LEN_PACKET_MAX] at hsize
    omega
  have hrest := readAt_eq_ok 0 rfl (by decide) hlen h₄
  refine ⟨hsize, ?_⟩
  rw [hrest, hbuf]
  rfl

theorem readMtpReport_raw_eq_ok (h : (readMtpReport pkt true i2cWords buf).run as = (.ok buf', as', es)) :
    ∃ words, words = (BYTEL (filled pkt buf 0 0 (i2cWords.setWidth 16).toNat 0)).toNat + 1 ∧
      words ≤ RX_PACKET_WORDS ∧
      buf' = filled pkt (filled pkt buf 0 0 (i2cWords.setWidth 16).toNat)
        (offsetAfter words (i2cWords.setWidth 16).toNat) (offsetAfter words (i2cWords.setWidth 16).toNat)
        (words - offsetAfter words (i2cWords.setWidth 16).toNat) := by
  obtain ⟨wordsTx, as₁, es₁, es₂, -, h₁, rfl⟩ := bind_eq_ok h
  obtain ⟨-, h₂⟩ := check_bind_eq_ok h₁
  rw [if_neg (by decide)] at h₂
  obtain ⟨⟨wordsRx, buf₁⟩, as₂, es₃, es₄, hread, h₃, rfl⟩ := bind_eq_ok h₂
  obtain ⟨hin, h₄⟩ := check_bind_eq_ok h₃
  obtain ⟨hwords, hsize⟩ := not_or.mp hin
  rw [not_not.mp hwords] at hread
  have hbuf := i2cRxWords_eq_ok 0 rfl (by decide) (i2cWords.setWidth 16).isLt hread
  rw [hbuf] at hsize h₄
  have hsize := Nat.le_of_not_gt hsize
  refine ⟨_, rfl, Nat.add_le_add_right hsize 1, ?_⟩
  simp only [MXM_RPT_LEN_PACKET_MAX] at hsize
  have hoffset := offsetAfter_le ((BYTEL (filled pkt buf 0 0 (i2cWords.setWidth 16).toNat 0)).toNat + 1)
    (i2cWords.setWidth 16).toNat
  exact readAt_eq_ok _ rfl (by omega) (by omega) h₄

/-- What suits the mode is read completely. -/
theorem holds_of_suits {isRawMode : Bool}
    (hsuits : Suits isRawMode (i2cWords.setWidth 16).toNat (BYTEL (pkt 0)).toNat)
    (h : (readMtpReport pkt isRawMode i2cWords buf).run as = (.ok buf', as', es)) : Holds pkt buf' := by
  cases isRawMode with
  | false =>
      obtain ⟨hsize, rfl⟩ := readMtpReport_eq_ok h
      refine ⟨Nat.lt_succ_of_le hsize, fun k hk => ?_⟩
      have hlimit : (BYTEL (pkt 0)).toNat < max (i2cWords.setWidth 16).toNat 1 :=
        hsuits.resolve_left (Nat.not_lt_of_le hsize)
      by_cases hin : k < clampWords ((BYTEL (pkt 0)).toNat + 1) (i2cWords.setWidth 16).toNat
      · exact filled_apply (Nat.zero_le k) (by omega)
      · have hzero : k < 0 + 1 := by
          unfold clampWords at hin
          split at hin <;> omega
        rw [filled_behind (by omega)]
        exact filled_apply (Nat.zero_le k) hzero
  | true =>
      obtain ⟨words, hwords, hfits, rfl⟩ := readMtpReport_raw_eq_ok h
      obtain ⟨hlimit, hzero⟩ : (i2cWords.setWidth 16).toNat ≤ RX_PACKET_WORDS ∧
        ((i2cWords.setWidth 16).toNat = 0 → (BYTEL (pkt 0)).toNat = 0) := hsuits
      have hsize : (BYTEL (pkt 0)).toNat < words := by
        rcases Nat.eq_zero_or_pos (i2cWords.setWidth 16).toNat with hnone | hsome
        · rw [hzero hnone, hwords]
          exact Nat.succ_pos _
        · rw [hwords, filled_apply (Nat.le_refl 0) (by omega)]
          exact Nat.lt_succ_self _
      refine ⟨Nat.lt_of_lt_of_le hsize hfits, fun k hk => ?_⟩
      by_cases hbefore : k < offsetAfter words (i2cWords.setWidth 16).toNat
      · rw [filled_before hbefore]
        refine filled_apply (Nat.zero_le k) ?_
        unfold offsetAfter at hbefore
        split at hbefore <;> omega
      · exact filled_apply (Nat.le_of_not_lt hbefore) (by omega)

theorem run_master {n : ℕ} (stored : ℤ → List Store) (rest : List ℤ) :
    (i2cMaster n stored).run ((n : ℤ) :: rest) = (.ok (n : ℤ), rest, stored n) := by
  have hdrop : ((n : ℤ) :: rest).dropWhile (· = - EAGAIN) = (n : ℤ) :: rest :=
    List.dropWhile_cons_of_neg (by simp)
  simp only [i2cMaster, hdrop, min_self]

theorem run_txAddress (rest : List ℤ) : i2cTxAddress.run (2 :: rest) = (.ok 1, rest, []) :=
  run_bind_ok (run_master _ rest) (run_pure _)

theorem run_rxWords (more : ℕ) {address : BitVec 16} (haddress : address = MXM_RPT_START_ADDR + BitVec.ofNat 16 more)
    (hmore : more < 65536) (hlen : len < 65536) (rest : List ℤ) :
    (i2cRxWords pkt address buf offset len).run (((2 * len : ℕ) : ℤ) :: rest) =
      (.ok ((len : ℤ), filled pkt buf more offset len), rest, [⟨offset, len⟩]) := by
  have hcount : ((((2 * len : ℕ) : ℤ) + 1) / 2).toNat = len := by omega
  have hmaster := run_master (n := 2 * len) (fun ret => [⟨offset, ((ret + 1) / 2).toNat⟩]) rest
  rw [hcount] at hmaster
  refine run_bind_ok hmaster ?_
  rw [wordsOf_double hlen, received_eq_filled haddress hmore]
  exact run_pure _

theorem canReturn_txAddress : CanReturn (fun _ => True) i2cTxAddress 1 := ⟨[2], [], run_txAddress, fun _ _ => trivial⟩

theorem canReturn_rxWords (more : ℕ) {address : BitVec 16}
    (haddress : address = MXM_RPT_START_ADDR + BitVec.ofNat 16 more) (hmore : more < 65536) (hlen : len < 65536) :
    CanReturn (fun _ => True) (i2cRxWords pkt address buf offset len) (len, filled pkt buf more offset len) :=
  ⟨[((2 * len : ℕ) : ℤ)], [⟨offset, len⟩], run_rxWords more haddress hmore hlen, fun _ _ => trivial⟩

theorem canReturn_readAt (more : ℕ) {address : BitVec 16}
    (haddress : address = MXM_RPT_START_ADDR + BitVec.ofNat 16 more) (hmore : more < 65536) (hlen : len < 65536) :
    CanReturn (fun _ => True) (readAt pkt address buf offset len) (filled pkt buf more offset len) :=
  CanReturn.bind canReturn_txAddress (CanReturn.bind (CanReturn.check rfl _)
    (CanReturn.bind (canReturn_rxWords more haddress hmore hlen)
      (CanReturn.bind (CanReturn.check rfl _) (CanReturn.pure _))))

/-- Without raw mode any packet of an allowed size is taken, as far as `i2c_words` reaches. -/
theorem canReturn_clamped (pkt buf : ℕ → BitVec 16) (i2cWords : BitVec 32)
    (hsize : (BYTEL (pkt 0)).toNat ≤ MXM_RPT_LEN_PACKET_MAX) :
    CanReturn (fun _ => True) (readMtpReport pkt false i2cWords buf) (filled pkt (filled pkt buf 0 0 1) 0 0
      (clampWords ((BYTEL (pkt 0)).toNat + 1) (i2cWords.setWidth 16).toNat)) := by
  have hheader : filled pkt buf 0 0 1 0 = pkt 0 := filled_apply (Nat.le_refl 0) Nat.one_pos
  have hclamp := clampWords_le ((BYTEL (pkt 0)).toNat + 1) (i2cWords.setWidth 16).toNat
  have hlen : clampWords ((BYTEL (pkt 0)).toNat + 1) (i2cWords.setWidth 16).toNat < 65536 := by
    simp only [MXM_RPT_LEN_PACKET_MAX] at hsize
    omega
  refine CanReturn.bind canReturn_txAddress (CanReturn.bind (CanReturn.check rfl _) ?_)
  rw [if_pos rfl]
  refine CanReturn.bind (canReturn_rxWords 0 rfl (by decide) (by decide)) ?_
  refine CanReturn.bind (CanReturn.check (not_or.mpr ⟨not_not.mpr rfl, ?_⟩) _) ?_
  · change ¬(BYTEL (filled pkt buf 0 0 1 0)).toNat > MXM_RPT_LEN_PACKET_MAX
    rw [hheader]
    exact Nat.not_lt_of_le hsize
  · change CanReturn (fun _ => True) (readAt pkt MXM_RPT_START_ADDR (filled pkt buf 0 0 1) 0
      (clampWords ((BYTEL (filled pkt buf 0 0 1 0)).toNat + 1) (i2cWords.setWidth 16).toNat)) _
    rw [hheader]
    exact canReturn_readAt 0 rfl (by decide) hlen

/-- In raw mode the first read stores as many words as `i2c_words` says. -/
theorem raw_stores (pkt buf : ℕ → BitVec 16) (i2cWords : BitVec 32) :
    ∃ as, (⟨0, (i2cWords.setWidth 16).toNat⟩ : Store) ∈ ((readMtpReport pkt true i2cWords buf).run as).2.2 := by
  refine ⟨[2, ((2 * (i2cWords.setWidth 16).toNat : ℕ) : ℤ)], ?_⟩
  have hread : (i2cRxWords pkt MXM_RPT_START_ADDR buf 0 (i2cWords.setWidth 16).toNat).run _ = _ :=
    run_rxWords 0 rfl (by decide) (i2cWords.setWidth 16).isLt []
  have hcheck : (check ((1 : ℤ) = 1) (- EIO) : Reader Unit).run
      [((2 * (i2cWords.setWidth 16).toNat : ℕ) : ℤ)] = (.ok (), _, []) := rfl
  rw [readMtpReport, run_bind_ok (run_txAddress _) (run_bind_ok hcheck (run_bind_ok hread rfl))]
  exact List.mem_cons_self

/-- In raw mode with nothing read first the length is what the buffer had. -/
theorem canReturn_stale (pkt : ℕ → BitVec 16) {buf : ℕ → BitVec 16} {i2cWords : BitVec 32}
    (hzero : (i2cWords.setWidth 16).toNat = 0) (hbuf : buf 0 = 0) :
    CanReturn (fun _ => True) (readMtpReport pkt true i2cWords buf) (filled pkt buf 0 0 1) := by
  have hnone : filled pkt buf 0 0 0 = buf := by
    funext k
    exact filled_behind (Nat.zero_le k)
  refine CanReturn.bind canReturn_txAddress (CanReturn.bind (CanReturn.check rfl _) ?_)
  rw [if_neg (by decide), hzero]
  refine CanReturn.bind (canReturn_rxWords 0 rfl (by decide) (by decide)) ?_
  rw [hnone]
  refine CanReturn.bind (CanReturn.check (not_or.mpr ⟨not_not.mpr rfl, ?_⟩) _) ?_
  · rw [hbuf]
    decide
  · rw [hbuf]
    exact canReturn_readAt 0 rfl (by decide) (by decide)

/-- For every packet, mode and `i2c_words`: whatever the buffer held and the bus answers, nothing is stored outside the
buffer and a packet that is reported as read is in it completely, exactly if the mode suits the packet's size. -/
theorem readMtpReport_right_iff (pkt : ℕ → BitVec 16) (isRawMode : Bool) (i2cWords : BitVec 32) :
    (∀ buf as r as' es, (readMtpReport pkt isRawMode i2cWords buf).run as = (r, as', es) →
      (∀ s ∈ es, InBounds s) ∧ ∀ buf', r = .ok buf' → Holds pkt buf') ↔
    Suits isRawMode (i2cWords.setWidth 16).toNat (BYTEL (pkt 0)).toNat := by
  constructor
  · intro hright
    -- a buffer that has no word of the packet yet
    have hother : ∀ k, ~~~(pkt k) ≠ pkt k := fun k h => by
      have := congrArg (fun w => w.getLsbD 0) h
      simp at this
    cases isRawMode with
    | false =>
        by_contra hsuits
        obtain ⟨hsize, hlimit⟩ := not_or.mp hsuits
        have hsize := Nat.le_of_not_lt hsize
        have hlimit := Nat.le_of_not_lt hlimit
        obtain ⟨as, es, hrun, -⟩ := canReturn_clamped pkt (fun k => ~~~(pkt k)) i2cWords hsize
        have hword := ((hright _ _ _ _ _ (hrun [])).2 _ rfl).words _ hlimit
        have hclamp : clampWords ((BYTEL (pkt 0)).toNat + 1) (i2cWords.setWidth 16).toNat ≤
            max (i2cWords.setWidth 16).toNat 1 := by
          unfold clampWords
          split <;> omega
        rw [filled_behind (by omega), filled_behind (by omega)] at hword
        exact hother _ hword
    | true =>
        constructor
        · obtain ⟨as, hmem⟩ := raw_stores pkt pkt i2cWords
          have hstore := (hright _ _ _ _ _ rfl).1 _ hmem
          rwa [InBounds, Nat.zero_add] at hstore
        · intro hzero
          by_contra hsome
          have hstale : CanReturn (fun _ => True)
              (readMtpReport pkt true i2cWords fun k => if k = 0 then 0 else ~~~(pkt k)) _ :=
            canReturn_stale pkt hzero (if_pos rfl)
          obtain ⟨as, es, hrun, -⟩ := hstale
          have hword := ((hright _ _ _ _ _ (hrun [])).2 _ rfl).words 1 (Nat.one_le_iff_ne_zero.mpr hsome)
          rw [filled_behind (by decide)] at hword
          exact hother 1 hword
  · intro hsuits buf as r as' es hrun
    refine ⟨?_, fun buf' hr => holds_of_suits hsuits (hr ▸ hrun)⟩
    have hlimit : isRawMode = true → (i2cWords.setWidth 16).toNat ≤ RX_PACKET_WORDS := by
      rintro rfl
      exact hsuits.1
    have hbounds : Only InBounds (readMtpReport pkt isRawMode i2cWords buf) := only_readMtpReport hlimit
    have hes := hbounds as
    rwa [hrun] at hes

/-- With `i2c_words` 1 a packet of one word is reported as read, and its word is not in the buffer. -/
theorem readMtpReport_without_payload : ¬∀ buf as r as' es,
    (readMtpReport (fun _ => 1) false 1 buf).run as = (r, as', es) →
      (∀ s ∈ es, InBounds s) ∧ ∀ buf', r = .ok buf' → Holds (fun _ => 1) buf' := by
  intro hright
  obtain ⟨as, es, hrun, -⟩ := canReturn_clamped (fun _ => 1) (fun _ => 0) 1 (by decide)
  have hword := ((hright _ _ _ _ _ (hrun [])).2 _ rfl).words 1 (by decide)
  exact absurd hword (by decide)

end

end Sirius.Touch.Report
