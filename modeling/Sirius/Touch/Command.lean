import Mathlib.Data.List.Range
import Sirius.Touch.Packets

/-!
# Commands

`send_mtp_command` cuts a command into packets of at most nine words. The header of a packet has its number,
how many there are and its size; the loop counts the words that are left down in `len`, past zero at the end.
-/
namespace Sirius.Touch

@[simp] def MXM_CMD_LEN_PACKET_MAX : ℕ := 9
@[simp] def MXM_CMD_LEN_MAX : ℕ := 15 * MXM_CMD_LEN_PACKET_MAX
@[simp] def MXM_CMD_LEN_PACKET_MIN : ℕ := 2
@[simp] def MXM_CMD_ID_AND_SIZE_LEN : ℕ := 2
@[simp] def MXM_CMD_ADD_AND_HDR_LEN : ℕ := 2
@[simp] def MXM_CMD_START_ADDR : BitVec 16 := 0

/-- What `i2c_master_send` returns for packet `i` of `n` bytes, once it is not `-EAGAIN`: an error or how many
bytes it has written. -/
structure Bus where
  send : ℕ → ℕ → ℤ
  error : ∀ i n, -4095 ≤ send i n
  short : ∀ i n, send i n ≤ n

/-- A bus that writes all it is given. -/
def Bus.writes : Bus where
  send _ n := n
  error _ n := by omega
  short _ _ := le_rfl

def i2cTxWords (bus : Bus) (i : ℕ) (buf : List (BitVec 16)) : ℤ :=
  let ret := bus.send i (2 * buf.length)
  if ret < 0 then ret else if ret % 2 ≠ 0 then - EIO else (BitVec.ofInt 16 (ret / 2)).toNat

/-- `tx_buf` with the header and the words from `buf[offset]` on. -/
def txBuf (totalNum currNum currSize : BitVec 16) (buf : ℕ → BitVec 16) (offset : ℕ) : List (BitVec 16) :=
  MXM_CMD_START_ADDR :: (totalNum ||| currNum ||| currSize) ::
    (List.range currSize.toNat).map fun k => buf (offset + k)

section
variable (bus : Bus) (buf : ℕ → BitVec 16) (packets : BitVec 16)

/-- The loop of `send_mtp_command` from packet `i` on, with the number of rounds to its end. -/
def sendPackets : (rounds i : ℕ) → (len : BitVec 16) → List (List (BitVec 16)) × ℤ
  | 0, _, _ => ([], 0)
  | rounds + 1, i, len =>
      let lastPacket := packets - 1
      let currSize := if i = lastPacket.toNat then len else BitVec.ofNat 16 MXM_CMD_LEN_PACKET_MAX
      let tx := txBuf (packets <<< 12) (BitVec.ofNat 16 (i + 1) <<< 8) currSize buf (i * MXM_CMD_LEN_PACKET_MAX)
      let wordsTx := BitVec.ofInt 16 (i2cTxWords bus i tx)
      if wordsTx.toNat ≠ currSize.toNat + MXM_CMD_ADD_AND_HDR_LEN then ([tx], - EIO)
      else
        let (sent, ret) := sendPackets rounds (i + 1) (len - BitVec.ofNat 16 MXM_CMD_LEN_PACKET_MAX)
        (tx :: sent, ret)

/-- The packets passed to `i2c_tx_words`, and what is returned. -/
def sendMtpCommand (len : BitVec 16) : List (List (BitVec 16)) × ℤ :=
  let cmdDataSize := buf 1
  if len.toNat < MXM_CMD_LEN_PACKET_MIN ∨ MXM_CMD_LEN_MAX < len.toNat ∨
      cmdDataSize.toNat + MXM_CMD_ID_AND_SIZE_LEN ≠ len.toNat then ([], - EINVAL)
  else
    let packets := len / BitVec.ofNat 16 MXM_CMD_LEN_PACKET_MAX
    let packets := if len % BitVec.ofNat 16 MXM_CMD_LEN_PACKET_MAX ≠ 0 then packets + 1 else packets
    sendPackets bus buf packets packets.toNat 0 len

end

namespace Command

def total (tx : List (BitVec 16)) : ℕ := (HI_NIBBLE (BYTEH (tx.getD 1 0))).toNat
def num (tx : List (BitVec 16)) : ℕ := (LO_NIBBLE (BYTEH (tx.getD 1 0))).toNat
def size (tx : List (BitVec 16)) : ℕ := (BYTEL (tx.getD 1 0)).toNat
def words (tx : List (BitVec 16)) : List (BitVec 16) := (tx.drop 2).take (size tx)

/-- A length from 2 to 135 that the size word of the command agrees with. -/
def Valid (buf : ℕ → BitVec 16) (len : BitVec 16) : Prop :=
  2 ≤ len.toNat ∧ len.toNat ≤ 135 ∧ (buf 1).toNat + 2 = len.toNat

/-- The whole of a packet is written. -/
def Written (bus : Bus) (i : ℕ) (tx : List (BitVec 16)) : Prop := bus.send i (2 * tx.length) = 2 * tx.length

/-- The packets carry the command. -/
structure Carries (buf : ℕ → BitVec 16) (len : BitVec 16) (sent : List (List (BitVec 16))) : Prop where
  count : sent.length = (len.toNat + 8) / 9
  fits : sent.length < 16
  shape : ∀ tx ∈ sent, tx.head? = some MXM_CMD_START_ADDR ∧ tx.length = size tx + 2
  total : ∀ tx ∈ sent, total tx = sent.length
  numbered : sent.map num = List.range' 1 sent.length
  size : ∀ tx ∈ sent, 1 ≤ size tx ∧ size tx ≤ 9
  full : ∀ tx ∈ sent.dropLast, Command.size tx = 9
  words : sent.flatMap words = (List.range len.toNat).map buf

/-- A header with its three fields in their bits. -/
theorem header_fields : ∀ t k s : Fin 16,
    let header := BitVec.ofNat 16 t <<< 12 ||| BitVec.ofNat 16 k <<< 8 ||| BitVec.ofNat 16 s
    (HI_NIBBLE (BYTEH header)).toNat = t ∧ (LO_NIBBLE (BYTEH header)).toNat = k ∧ (BYTEL header).toNat = s := by
  decide +kernel

section
variable {bus : Bus} {buf : ℕ → BitVec 16} {packets : BitVec 16} {len : ℕ}

/-- Of a command of `len` words the words of packet `i` of `t`. -/
def sizeAt (len t i : ℕ) : ℕ := if i + 1 = t then len - 9 * i else 9

/-- Packet `i` of `t`. -/
def packetAt (buf : ℕ → BitVec 16) (len t i : ℕ) : List (BitVec 16) :=
  txBuf (BitVec.ofNat 16 t <<< 12) (BitVec.ofNat 16 (i + 1) <<< 8) (BitVec.ofNat 16 (sizeAt len t i)) buf (i * 9)

/-- What is left of the loop from packet `i` on: all `n` packets, or those up to one that is not written. -/
def Ends (bus : Bus) (packet : ℕ → List (BitVec 16)) (i n : ℕ) (sent : List (List (BitVec 16)) × ℤ) : Prop :=
  (∀ k, i ≤ k → k < i + n → Written bus k (packet k)) ∧ sent = ((List.range' i n).map packet, 0) ∨
    ∃ m < n, (∀ k, i ≤ k → k < i + m → Written bus k (packet k)) ∧ ¬Written bus (i + m) (packet (i + m)) ∧
      sent = ((List.range' i (m + 1)).map packet, - EIO)

/-- The count of words is that of the packet exactly where all of it is written. -/
theorem wordsTx_eq (bus : Bus) (i : ℕ) (tx : List (BitVec 16)) (hlen : tx.length ≤ 11) :
    (BitVec.ofInt 16 (i2cTxWords bus i tx)).toNat = tx.length ↔ Written bus i tx := by
  have herror := bus.error i (2 * tx.length)
  have hshort := bus.short i (2 * tx.length)
  unfold Written i2cTxWords
  generalize bus.send i (2 * tx.length) = ret at *
  have hword : ∀ z : ℤ, (BitVec.ofInt 16 z).toNat = (z % 65536).toNat := fun z => BitVec.toNat_ofInt z
  have hEIO : EIO = 5 := rfl
  dsimp only
  rw [hword]
  split_ifs with hneg hodd
  · omega
  · omega
  · rw [hword]
    omega

/-- The lengths of `t` packets. -/
def Cut (len t : ℕ) : Prop := 9 * t < len + 9 ∧ len ≤ 9 * t ∧ t ≤ 15

theorem sizeAt_bounds {t : ℕ} (hcut : Cut len t) (i : ℕ) : 1 ≤ sizeAt len t i ∧ sizeAt len t i ≤ 9 := by
  obtain ⟨hlow, hhigh, -⟩ := hcut
  unfold sizeAt
  split_ifs <;> omega

theorem length_packetAt (buf : ℕ → BitVec 16) {t : ℕ} (hcut : Cut len t) (i : ℕ) :
    (packetAt buf len t i).length = sizeAt len t i + 2 := by
  have hsize := sizeAt_bounds hcut i
  have hmod : (BitVec.ofNat 16 (sizeAt len t i)).toNat = sizeAt len t i :=
    (BitVec.toNat_ofNat ..).trans (Nat.mod_eq_of_lt (by omega))
  simp only [packetAt, txBuf, List.length_cons, List.length_map, List.length_range, hmod]

theorem Ends.cons {packet : ℕ → List (BitVec 16)} {i n : ℕ} {sent : List (List (BitVec 16)) × ℤ}
    (hwritten : Written bus i (packet i)) (h : Ends bus packet (i + 1) n sent) :
    Ends bus packet i (n + 1) (packet i :: sent.1, sent.2) := by
  have hall : ∀ {m}, (∀ k, i + 1 ≤ k → k < i + 1 + m → Written bus k (packet k)) →
      ∀ k, i ≤ k → k < i + (m + 1) → Written bus k (packet k) := by
    intro m hrest k hik hkm
    rcases Nat.eq_or_lt_of_le hik with rfl | hlt
    · exact hwritten
    · exact hrest k hlt (by omega)
  rcases h with ⟨hrest, rfl⟩ | ⟨m, hm, hrest, hnot, rfl⟩
  · exact .inl ⟨hall hrest, rfl⟩
  · refine .inr ⟨m + 1, by omega, hall hrest, ?_, rfl⟩
    rwa [show i + (m + 1) = i + 1 + m by omega]

/-- Before the last packet `len` is what is left of the command, so each round makes the packet of its number. -/
theorem sendPackets_ends (bus : Bus) (buf : ℕ → BitVec 16) {t : ℕ} (hcut : Cut len t) :
    ∀ (n i : ℕ) (l : BitVec 16), i + n = t → (0 < n → l.toNat + 9 * i = len) →
      Ends bus (packetAt buf len t) i n (sendPackets bus buf (BitVec.ofNat 16 t) n i l) := by
  intro n
  induction n with
  | zero =>
      intro i l _ _
      exact .inl ⟨fun k hik hk => absurd hk (by omega), rfl⟩
  | succ n ih =>
      intro i l hi hl
      have hleft := hl (Nat.succ_pos n)
      have ⟨hlow, hhigh, hmax⟩ := hcut
      have hlast : (BitVec.ofNat 16 t - 1).toNat = t - 1 := by
        have ht : (BitVec.ofNat 16 t).toNat = t := (BitVec.toNat_ofNat ..).trans (Nat.mod_eq_of_lt (by omega))
        bv_omega
      have hsize : (if i = (BitVec.ofNat 16 t - 1).toNat then l else BitVec.ofNat 16 MXM_CMD_LEN_PACKET_MAX) =
          BitVec.ofNat 16 (sizeAt len t i) := by
        rw [hlast, sizeAt]
        split_ifs with h h' h'
        · rw [← hleft, Nat.add_sub_cancel, BitVec.ofNat_toNat, BitVec.setWidth_eq]
        · omega
        · omega
        · rfl
      have hlength := length_packetAt buf hcut i
      have hbounds := sizeAt_bounds hcut i
      have hmod : (BitVec.ofNat 16 (sizeAt len t i)).toNat = sizeAt len t i :=
        (BitVec.toNat_ofNat ..).trans (Nat.mod_eq_of_lt (by omega))
      have hiff := wordsTx_eq bus i (packetAt buf len t i) (by omega)
      rw [sendPackets]
      dsimp only
      rw [hsize, hmod]
      change Ends bus (packetAt buf len t) i (n + 1)
        (if (BitVec.ofInt 16 (i2cTxWords bus i (packetAt buf len t i))).toNat ≠ sizeAt len t i + 2
          then ([packetAt buf len t i], - EIO) else _)
      rw [← hlength]
      split_ifs with hne
      · exact .inr ⟨0, Nat.succ_pos n, fun k hik hk => absurd hk (by omega), fun hw => hne (hiff.2 hw), rfl⟩
      · refine (ih (i + 1) _ (by omega) fun hn => ?_).cons (hiff.1 (not_not.1 hne))
        have h9 : (BitVec.ofNat 16 MXM_CMD_LEN_PACKET_MAX).toNat = 9 := rfl
        rw [BitVec.toNat_sub_of_le (by rw [BitVec.le_def]; omega)]
        omega

theorem packetAt_fields (buf : ℕ → BitVec 16) {t i : ℕ} (hcut : Cut len t) (hi : i < t) :
    total (packetAt buf len t i) = t ∧ num (packetAt buf len t i) = i + 1 ∧
      size (packetAt buf len t i) = sizeAt len t i := by
  have hsize := sizeAt_bounds hcut i
  obtain ⟨-, -, hmax⟩ := hcut
  exact header_fields ⟨t, by omega⟩ ⟨i + 1, by omega⟩ ⟨sizeAt len t i, by omega⟩

theorem words_packetAt (buf : ℕ → BitVec 16) {t i : ℕ} (hcut : Cut len t) (hi : i < t) :
    words (packetAt buf len t i) = (List.range (sizeAt len t i)).map fun k => buf (i * 9 + k) := by
  have hbounds := sizeAt_bounds hcut i
  have hmod : (BitVec.ofNat 16 (sizeAt len t i)).toNat = sizeAt len t i :=
    (BitVec.toNat_ofNat ..).trans (Nat.mod_eq_of_lt (by omega))
  rw [words, (packetAt_fields buf hcut hi).2.2, packetAt, txBuf, List.drop_succ_cons, List.drop_succ_cons,
    List.drop_zero, hmod]
  exact List.take_of_length_le (by rw [List.length_map, List.length_range])

/-- The first packets carry the command as far as they go. -/
theorem flatMap_words (buf : ℕ → BitVec 16) {t : ℕ} (hcut : Cut len t) (j : ℕ) (hj : j ≤ t) :
    ((List.range j).map (packetAt buf len t)).flatMap words = (List.range (min len (9 * j))).map buf := by
  induction j with
  | zero => simp
  | succ j ih =>
      have hnext : min len (9 * (j + 1)) = min len (9 * j) + sizeAt len t j := by
        obtain ⟨hlow, hhigh, -⟩ := hcut
        unfold sizeAt
        split_ifs <;> omega
      have hfirst : min len (9 * j) = j * 9 := by
        obtain ⟨hlow, -, -⟩ := hcut
        omega
      rw [List.range_succ, List.map_append, List.flatMap_append, ih (by omega), hnext, List.range_add, List.map_append,
        List.map_map, List.map_singleton, List.flatMap_singleton, words_packetAt buf hcut (by omega), hfirst]
      rfl

theorem carries_packets (buf : ℕ → BitVec 16) (l : BitVec 16) {t : ℕ} (hcut : Cut l.toNat t)
    (ht : t = (l.toNat + 8) / 9) : Carries buf l ((List.range t).map (packetAt buf l.toNat t)) := by
  have hlength : ((List.range t).map (packetAt buf l.toNat t)).length = t := by
    rw [List.length_map, List.length_range]
  have hmem : ∀ {P : List (BitVec 16) → Prop} {n : ℕ}, (∀ i < n, P (packetAt buf l.toNat t i)) →
      ∀ tx ∈ (List.range n).map (packetAt buf l.toNat t), P tx := by
    intro P n hP tx htx
    obtain ⟨i, hi, rfl⟩ := List.mem_map.1 htx
    exact hP i (List.mem_range.1 hi)
  constructor
  case count => rw [hlength, ht]
  case fits =>
    rw [hlength]
    exact Nat.lt_succ_of_le hcut.2.2
  case shape =>
    refine hmem fun i hi => ⟨rfl, ?_⟩
    rw [length_packetAt buf hcut, (packetAt_fields buf hcut hi).2.2]
  case total =>
    rw [hlength]
    exact hmem fun i hi => (packetAt_fields buf hcut hi).1
  case numbered =>
    rw [hlength, List.map_map, List.range'_eq_map_range]
    refine List.map_congr_left fun i hi => ?_
    rw [Function.comp_apply, (packetAt_fields buf hcut (List.mem_range.1 hi)).2.1, Nat.add_comm]
  case size =>
    refine hmem fun i hi => ?_
    rw [(packetAt_fields buf hcut hi).2.2]
    exact sizeAt_bounds hcut i
  case full =>
    cases t with
    | zero => exact fun tx htx => absurd htx List.not_mem_nil
    | succ t =>
        rw [List.range_succ, List.map_append, List.map_singleton, List.dropLast_concat]
        refine hmem fun i hi => ?_
        rw [(packetAt_fields buf hcut (by omega)).2.2, sizeAt, if_neg (by omega)]
  case words =>
    rw [flatMap_words buf hcut t le_rfl, Nat.min_eq_left hcut.2.1]

theorem getElem?_packets {packet : ℕ → List (BitVec 16)} {n i : ℕ} {tx : List (BitVec 16)} :
    ((List.range' 0 n).map packet)[i]? = some tx ↔ i < n ∧ packet i = tx := by
  rw [List.getElem?_map, ← List.range_eq_range', Option.map_eq_some_iff]
  constructor
  · rintro ⟨k, hk, rfl⟩
    obtain ⟨hlt, rfl⟩ := List.getElem?_eq_some_iff.1 hk
    rw [List.length_range] at hlt
    exact ⟨hlt, by rw [List.getElem_range]⟩
  · rintro ⟨hlt, rfl⟩
    exact ⟨i, List.getElem?_range hlt, rfl⟩

theorem packets_eq {l : BitVec 16} (hlow : 2 ≤ l.toNat) (hhigh : l.toNat ≤ 135) :
    (if l % BitVec.ofNat 16 MXM_CMD_LEN_PACKET_MAX ≠ 0 then l / BitVec.ofNat 16 MXM_CMD_LEN_PACKET_MAX + 1
      else l / BitVec.ofNat 16 MXM_CMD_LEN_PACKET_MAX) = BitVec.ofNat 16 ((l.toNat + 8) / 9) := by
  have h9 : (BitVec.ofNat 16 MXM_CMD_LEN_PACKET_MAX).toNat = 9 := rfl
  have hdiv := BitVec.toNat_udiv (x := l) (y := BitVec.ofNat 16 MXM_CMD_LEN_PACKET_MAX)
  have hmod := BitVec.toNat_umod (x := l) (y := BitVec.ofNat 16 MXM_CMD_LEN_PACKET_MAX)
  rw [h9] at hdiv hmod
  apply BitVec.eq_of_toNat_eq
  rw [BitVec.toNat_ofNat]
  split_ifs with h
  · have hne : l.toNat % 9 ≠ 0 := fun h0 => h (BitVec.eq_of_toNat_eq (hmod.trans h0))
    rw [BitVec.toNat_add, hdiv]
    change (l.toNat / 9 + 1) % 65536 = _ % 65536
    omega
  · have h0 : l.toNat % 9 = 0 := by rw [← hmod, not_not.1 h]; rfl
    rw [hdiv]
    omega

theorem cut_packets {l : BitVec 16} (hlow : 2 ≤ l.toNat) (hhigh : l.toNat ≤ 135) :
    Cut l.toNat ((l.toNat + 8) / 9) := by
  unfold Cut
  omega

theorem sendMtpCommand_invalid (bus : Bus) {l : BitVec 16} (h : ¬Valid buf l) :
    sendMtpCommand bus buf l = ([], - EINVAL) := by
  refine if_pos ?_
  simp only [Valid, MXM_CMD_LEN_PACKET_MIN, MXM_CMD_LEN_MAX, MXM_CMD_LEN_PACKET_MAX, MXM_CMD_ID_AND_SIZE_LEN] at h ⊢
  omega

theorem sendMtpCommand_ends (bus : Bus) {l : BitVec 16} (h : Valid buf l) :
    Ends bus (packetAt buf l.toNat ((l.toNat + 8) / 9)) 0 ((l.toNat + 8) / 9) (sendMtpCommand bus buf l) := by
  obtain ⟨hlow, hhigh, hsize⟩ := h
  have hvalid : ¬(l.toNat < MXM_CMD_LEN_PACKET_MIN ∨ MXM_CMD_LEN_MAX < l.toNat ∨
      (buf 1).toNat + MXM_CMD_ID_AND_SIZE_LEN ≠ l.toNat) := by
    simp only [MXM_CMD_LEN_PACKET_MIN, MXM_CMD_LEN_MAX, MXM_CMD_LEN_PACKET_MAX, MXM_CMD_ID_AND_SIZE_LEN]
    omega
  unfold sendMtpCommand
  dsimp only
  rw [if_neg hvalid, packets_eq hlow hhigh, BitVec.toNat_ofNat, Nat.mod_eq_of_lt (by omega)]
  exact sendPackets_ends bus buf (cut_packets hlow hhigh) _ 0 l (Nat.zero_add _) fun _ => rfl

end

/-- Of a valid command the packets are sent that carry it, where each of them is written; one that is not
written whole is the last. Other commands are refused. -/
theorem sendMtpCommand_lossless (bus : Bus) (buf : ℕ → BitVec 16) (len : BitVec 16) :
    (Valid buf len → (∀ i tx, (sendMtpCommand bus buf len).1[i]? = some tx → Written bus i tx) →
        Carries buf len (sendMtpCommand bus buf len).1 ∧ (sendMtpCommand bus buf len).2 = 0) ∧
      (¬Valid buf len → sendMtpCommand bus buf len = ([], - EINVAL)) ∧
      ∀ i tx, (sendMtpCommand bus buf len).1[i]? = some tx → ¬Written bus i tx →
        (sendMtpCommand bus buf len).1.length = i + 1 ∧ (sendMtpCommand bus buf len).2 = - EIO := by
  refine ⟨fun h hall => ?_, sendMtpCommand_invalid bus, fun i tx hi hnot => ?_⟩
  · rcases sendMtpCommand_ends bus h with ⟨-, heq⟩ | ⟨m, hm, -, hfail, heq⟩
    · rw [heq, ← List.range_eq_range']
      exact ⟨carries_packets buf len (cut_packets h.1 h.2.1) rfl, rfl⟩
    · rw [heq] at hall
      exact absurd (hall (0 + m) _ (getElem?_packets.2 ⟨by omega, rfl⟩)) hfail
  · by_cases h : Valid buf len
    · rcases sendMtpCommand_ends bus h with ⟨hwritten, heq⟩ | ⟨m, hm, hwritten, hfail, heq⟩
      · rw [heq] at hi
        obtain ⟨hlt, rfl⟩ := getElem?_packets.1 hi
        exact absurd (hwritten i (Nat.zero_le i) (by omega)) hnot
      · rw [heq] at hi ⊢
        obtain ⟨hlt, rfl⟩ := getElem?_packets.1 hi
        -- the packets before the last were written
        have hlast : i = m := by
          by_contra hne
          exact hnot (hwritten i (Nat.zero_le i) (by omega))
        exact ⟨by rw [List.length_map, List.length_range', hlast], rfl⟩
    · rw [sendMtpCommand_invalid bus h] at hi
      cases hi

/-- A command of eleven words. -/
def eleven : ℕ → BitVec 16 := fun k => if k = 1 then 9 else BitVec.ofNat 16 k

theorem sendMtpCommand_eleven :
    Carries eleven 11 (sendMtpCommand Bus.writes eleven 11).1 ∧ (sendMtpCommand Bus.writes eleven 11).2 = 0 :=
  (sendMtpCommand_lossless Bus.writes eleven 11).1 ⟨by decide, by decide, by decide⟩ fun _ tx _ =>
    Int.natCast_mul 2 tx.length

end Command
end Sirius.Touch
