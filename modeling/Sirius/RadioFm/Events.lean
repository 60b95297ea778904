import Sirius.RadioFm.Model

/-!
# The packets of the tuner

An event is a type, a code, the length of its payload and the payload. What the callback finds at fixed offsets of a
packet is here told from the layout of the payload.
-/
namespace Sirius.RadioFm

/-- `cpu_to_le16` as it lies in memory. -/
def le16Bytes (x : BitVec 16) : List Byte := [x.extractLsb' 0 8, x.extractLsb' 8 8]

/-- `cpu_to_le32` as it lies in memory. -/
def le32Bytes (x : BitVec 32) : List Byte :=
  [x.extractLsb' 0 8, x.extractLsb' 8 8, x.extractLsb' 16 8, x.extractLsb' 24 8]

/-- `struct fm_tune_status` -/
structure FmTuneStatus where
  subEvent : Byte
  stationFreq : BitVec 32
  servAvble : Byte
  rssi : Byte
  stereoPrg : Byte
  rdsSyncStatus : Byte
  muteMode : Byte
  sinr : Byte
  intfDetTh : Byte
  deriving DecidableEq, Repr

/-- The packed structure. -/
def FmTuneStatus.bytes (st : FmTuneStatus) : List Byte :=
  [st.subEvent] ++ le32Bytes st.stationFreq ++
    [st.servAvble, st.rssi, st.stereoPrg, st.rdsSyncStatus, st.muteMode, st.sinr, st.intfDetTh]

/-- What the tuner can say. -/
inductive Message
  | cmdComplete (opcode : BitVec 16) (status : Byte)
  | cmdStatus (status : Option Byte)
  | tuneStatus (st : FmTuneStatus)
  | searchProgress
  deriving DecidableEq, Repr

/-- How it says it: the code of the event and its payload, which may be longer than what is asked for. -/
inductive Message.Carried : Message → Byte → List Byte → Prop
  | cmdComplete (num : Byte) (opcode : BitVec 16) (status : Byte) (rest : List Byte) :
      Carried (.cmdComplete opcode status) FM_EV_CMD_COMPLETE ([num] ++ le16Bytes opcode ++ [status] ++ rest)
  | cmdStatus (payload : List Byte) : Carried (.cmdStatus payload.head?) FM_EV_CMD_STATUS payload
  | tuneStatus (st : FmTuneStatus) (rest : List Byte) :
      Carried (.tuneStatus st) FM_EV_TUNE_STATUS (st.bytes ++ rest)
  | searchProgress (payload : List Byte) : Carried .searchProgress FM_EV_SEARCH_PROGRESS payload

def eventPacket (evt : Byte) (payload : List Byte) : Packet :=
  [FM_PKT_EVENT, evt, BitVec.ofNat 8 payload.length] ++ payload

/-- The code and the payload of an event; what stands behind the payload does not count. -/
def event : Packet → Option (Byte × List Byte)
  | type :: evt :: plen :: rest =>
      if type = FM_PKT_EVENT ∧ plen.toNat ≤ rest.length then some (evt, rest.take plen.toNat) else none
  | _ => none

def readCmdComplete : List Byte → Option Message
  | _ :: lo :: hi :: status :: _ => some (.cmdComplete (hi ++ lo) status)
  | _ => none

def readTuneStatus : List Byte → Option Message
  | sub :: f0 :: f1 :: f2 :: f3 :: serv :: rssi :: stereo :: rds :: mute :: sinr :: intf :: _ =>
      some (.tuneStatus ⟨sub, f3 ++ f2 ++ f1 ++ f0, serv, rssi, stereo, rds, mute, sinr, intf⟩)
  | _ => none

def readPayload (evt : Byte) (payload : List Byte) : Option Message :=
  if evt = FM_EV_CMD_COMPLETE then readCmdComplete payload
  else if evt = FM_EV_CMD_STATUS then some (.cmdStatus payload.head?)
  else if evt = FM_EV_TUNE_STATUS then readTuneStatus payload
  else if evt = FM_EV_SEARCH_PROGRESS then some .searchProgress
  else none

def message (buf : Packet) : Option Message := (event buf).bind fun (evt, payload) => readPayload evt payload

section
variable {buf : Packet} {evt : Byte} {payload : List Byte} {m : Message}

theorem le16Bytes_append (lo hi : Byte) : le16Bytes (hi ++ lo) = [lo, hi] :=
  congrArg₂ (fun a b => [a, b]) BitVec.extractLsb'_append_eq_right BitVec.extractLsb'_append_eq_left

theorem le32_le32Bytes (x : BitVec 32) : Packet.le32 (le32Bytes x) 0 = x := by
  change x.extractLsb' 24 8 ++ x.extractLsb' 16 8 ++ x.extractLsb' 8 8 ++ x.extractLsb' 0 8 = x
  ext i hi
  simp only [BitVec.getElem_append, BitVec.getElem_extractLsb']
  grind

theorem le32Bytes_append (f0 f1 f2 f3 : Byte) : le32Bytes (f3 ++ f2 ++ f1 ++ f0) = [f0, f1, f2, f3] := by
  have hbytes : (f3 ++ f2 ++ f1 ++ f0).extractLsb' 0 8 = f0 ∧ (f3 ++ f2 ++ f1 ++ f0).extractLsb' 8 8 = f1 ∧
      (f3 ++ f2 ++ f1 ++ f0).extractLsb' 16 8 = f2 ∧ (f3 ++ f2 ++ f1 ++ f0).extractLsb' 24 8 = f3 := by
    refine ⟨BitVec.extractLsb'_append_eq_right, ?_, ?_, ?_⟩
    · rw [BitVec.extractLsb'_append_eq_of_le (Nat.le_refl 8), BitVec.extractLsb'_append_eq_right]
    · rw [BitVec.extractLsb'_append_eq_of_le (by decide), BitVec.extractLsb'_append_eq_of_le (Nat.le_refl 8),
        BitVec.extractLsb'_append_eq_right]
    · rw [BitVec.extractLsb'_append_eq_of_le (by decide), BitVec.extractLsb'_append_eq_of_le (by decide),
        BitVec.extractLsb'_append_eq_left]
  simp only [le32Bytes, List.cons.injEq, and_true]
  exact hbytes

theorem event_eventPacket (evt : Byte) (h : payload.length < 256) (behind : List Byte) :
    event (eventPacket evt payload ++ behind) = some (evt, payload) := by
  have hlen : (BitVec.ofNat 8 payload.length).toNat = payload.length := by
    rw [BitVec.toNat_ofNat, Nat.mod_eq_of_lt h]
  change (if FM_PKT_EVENT = FM_PKT_EVENT ∧ _ ≤ (payload ++ behind).length then
    some (evt, (payload ++ behind).take _) else none) = _
  rw [hlen, if_pos ⟨rfl, by rw [List.length_append]; exact Nat.le_add_right ..⟩, List.take_left]

theorem eventPacket_of_event (h : event buf = some (evt, payload)) :
    payload.length < 256 ∧ ∃ behind, buf = eventPacket evt payload ++ behind := by
  unfold event at h
  split at h
  · rename_i type evt' plen rest
    split at h
    · rename_i hevent
      obtain ⟨rfl, hle⟩ := hevent
      cases h
      have hlen : (rest.take plen.toNat).length = plen.toNat := List.length_take_of_le hle
      refine ⟨hlen.symm ▸ plen.isLt, rest.drop plen.toNat, ?_⟩
      rw [eventPacket, hlen, BitVec.ofNat_toNat, BitVec.setWidth_eq, List.append_assoc, List.take_append_drop]
      rfl
    · cases h
  · cases h

theorem readCmdComplete_eq_some_iff :
    readCmdComplete payload = some m ↔ ∃ num opcode status rest,
      m = .cmdComplete opcode status ∧ payload = [num] ++ le16Bytes opcode ++ [status] ++ rest := by
  constructor
  · intro h
    unfold readCmdComplete at h
    split at h
    · rename_i num lo hi status rest
      cases h
      exact ⟨num, hi ++ lo, status, rest, rfl, by rw [le16Bytes_append]; rfl⟩
    · cases h
  · rintro ⟨num, opcode, status, rest, rfl, rfl⟩
    exact congrArg (fun op => some (Message.cmdComplete op status)) BitVec.extractLsb'_append_extractLsb'

theorem readTuneStatus_eq_some_iff :
    readTuneStatus payload = some m ↔ ∃ st rest, m = .tuneStatus st ∧ payload = st.bytes ++ rest := by
  constructor
  · intro h
    unfold readTuneStatus at h
    split at h
    · rename_i rest
      cases h
      exact ⟨_, rest, rfl, by rw [FmTuneStatus.bytes, le32Bytes_append]; rfl⟩
    · cases h
  · rintro ⟨st, rest, rfl, rfl⟩
    exact congrArg (fun freq => some (Message.tuneStatus { st with stationFreq := freq }))
      (le32_le32Bytes st.stationFreq)

theorem readPayload_eq_some_iff : readPayload evt payload = some m ↔ m.Carried evt payload := by
  constructor
  · intro h
    unfold readPayload at h
    split at h
    · obtain ⟨num, opcode, status, rest, rfl, rfl⟩ := readCmdComplete_eq_some_iff.mp h
      exact ‹evt = _› ▸ .cmdComplete num opcode status rest
    split at h
    · cases h
      exact ‹evt = _› ▸ .cmdStatus payload
    split at h
    · obtain ⟨st, rest, rfl, rfl⟩ := readTuneStatus_eq_some_iff.mp h
      exact ‹evt = _› ▸ .tuneStatus st rest
    split at h
    · cases h
      exact ‹evt = _› ▸ .searchProgress payload
    · cases h
  · intro h
    cases h with
    | cmdComplete num opcode status rest =>
        exact readCmdComplete_eq_some_iff.mpr ⟨num, opcode, status, rest, rfl, rfl⟩
    | cmdStatus => rfl
    | tuneStatus st rest => exact readTuneStatus_eq_some_iff.mpr ⟨st, rest, rfl, rfl⟩
    | searchProgress => rfl

/-- A message is read from exactly the packets that carry it. -/
theorem message_eq_some_iff :
    message buf = some m ↔ ∃ evt payload behind,
      m.Carried evt payload ∧ payload.length < 256 ∧ buf = eventPacket evt payload ++ behind := by
  constructor
  · intro h
    obtain ⟨⟨evt, payload⟩, hevent, hread⟩ := Option.bind_eq_some_iff.mp h
    obtain ⟨hlen, behind, hbuf⟩ := eventPacket_of_event hevent
    exact ⟨evt, payload, behind, readPayload_eq_some_iff.mp hread, hlen, hbuf⟩
  · rintro ⟨evt, payload, behind, hcarried, hlen, rfl⟩
    rw [message, event_eventPacket evt hlen, Option.bind_some]
    exact readPayload_eq_some_iff.mpr hcarried

/-- What a message has `wcnss_fm_rx` do: a command complete has to name the opcode that is pending, a command status is
taken for any. -/
def Message.effect (pending : BitVec 16) : Message → RxEffect
  | .cmdComplete opcode status => if opcode = pending then .cmdDone (some status) else .ignore
  | .cmdStatus status => .cmdDone status
  | .tuneStatus st => .tuneStatus st.stationFreq st.rssi (st.stereoPrg ≠ 0)
  | .searchProgress => .searchProgress

theorem wcnssFmRx_of_event_none (pending : BitVec 16) (h : event buf = none) : wcnssFmRx pending buf = .ignore := by
  unfold event at h
  split at h
  · rename_i type evt plen rest
    split at h
    · cases h
    · rename_i hnot
      by_cases htype : type = FM_PKT_EVENT
      · have hshort : (type :: evt :: plen :: rest).length < 3 + plen.toNat := by
          have hrest : rest.length < plen.toNat := Nat.lt_of_not_le (mt (And.intro htype) hnot)
          simp only [List.length_cons]
          omega
        rw [wcnssFmRx]
        split
        · rfl
        · exact if_pos hshort
      · exact if_pos (.inr htype)
  · rename_i hshort
    refine if_pos (.inl ?_)
    match buf with
    | [] | [_] | [_, _] => simp
    | type :: evt :: plen :: rest => exact absurd rfl (hshort type evt plen rest)

/-- An event that is all there goes to its code. -/
theorem wcnssFmRx_of_event (pending : BitVec 16) (evt : Byte) (h : payload.length < 256) (behind : List Byte) :
    let buf : Packet := eventPacket evt payload ++ behind
    wcnssFmRx pending buf =
      if evt = FM_EV_CMD_COMPLETE then
        if payload.length < 4 then .ignore
        else if buf.le16 4 ≠ pending then .ignore
        else .cmdDone (some (buf.byte 6))
      else if evt = FM_EV_CMD_STATUS then .cmdDone (if payload.length ≥ 1 then some (buf.byte 3) else none)
      else if evt = FM_EV_TUNE_STATUS then
        if payload.length < TUNE_STATUS_LEN then .ignore
        else .tuneStatus (buf.le32 4) (buf.byte 9) (buf.byte 10 ≠ 0)
      else if evt = FM_EV_SEARCH_PROGRESS then .searchProgress
      else .ignore := by
  intro buf
  have hplen : (buf.byte 2).toNat = payload.length := (BitVec.toNat_ofNat ..).trans (Nat.mod_eq_of_lt h)
  have htype : buf.byte 0 = FM_PKT_EVENT := rfl
  have hevt : buf.byte 1 = evt := rfl
  have hlen : buf.length = 3 + payload.length + behind.length := by
    rw [List.length_append, eventPacket, List.length_append, List.length_cons, List.length_cons, List.length_cons,
      List.length_nil]
  rw [wcnssFmRx, if_neg (not_or.mpr ⟨by omega, not_not.mpr htype⟩)]
  dsimp only
  rw [hplen, hevt, if_neg (by omega)]

theorem length_lt_of_readCmdComplete (h : readCmdComplete payload = none) : payload.length < 4 := by
  unfold readCmdComplete at h
  split at h
  · cases h
  · rename_i hshort
    rcases payload with _ | ⟨num, _ | ⟨lo, _ | ⟨hi, _ | ⟨status, rest⟩⟩⟩⟩
    case cons.cons.cons.cons => exact absurd rfl (hshort num lo hi status rest)
    all_goals simp

theorem length_lt_of_readTuneStatus (h : readTuneStatus payload = none) : payload.length < TUNE_STATUS_LEN := by
  unfold readTuneStatus at h
  split at h
  · cases h
  · rename_i hshort
    rcases payload with _ | ⟨sub, _ | ⟨f0, _ | ⟨f1, _ | ⟨f2, _ | ⟨f3, _ | ⟨serv, _ | ⟨rssi, _ | ⟨stereo, _ | ⟨rds,
      _ | ⟨mute, _ | ⟨sinr, _ | ⟨intf, rest⟩⟩⟩⟩⟩⟩⟩⟩⟩⟩⟩⟩
    case cons.cons.cons.cons.cons.cons.cons.cons.cons.cons.cons.cons =>
      exact absurd rfl (hshort sub f0 f1 f2 f3 serv rssi stereo rds mute sinr intf rest)
    all_goals simp

/-- A message has its effect, wherever the payload ends. -/
theorem wcnssFmRx_of_carried (pending : BitVec 16) (h : m.Carried evt payload) (hlen : payload.length < 256)
    (behind : List Byte) : wcnssFmRx pending (eventPacket evt payload ++ behind) = m.effect pending := by
  rw [wcnssFmRx_of_event pending evt hlen behind]
  cases h with
  | cmdComplete num opcode status rest =>
      have hlong : ¬([num] ++ le16Bytes opcode ++ [status] ++ rest).length < 4 := by simp [le16Bytes]
      have hopcode : Packet.le16
          (eventPacket FM_EV_CMD_COMPLETE ([num] ++ le16Bytes opcode ++ [status] ++ rest) ++ behind) 4 = opcode :=
        BitVec.extractLsb'_append_extractLsb'
      rw [if_pos rfl, if_neg hlong, hopcode, ite_not]
      rfl
  | cmdStatus =>
      cases payload with
      | nil => rfl
      | cons status payload => exact congrArg RxEffect.cmdDone (if_pos (Nat.le_add_left 1 payload.length))
  | tuneStatus st rest =>
      have hlong : ¬(st.bytes ++ rest).length < TUNE_STATUS_LEN := by simp [FmTuneStatus.bytes, le32Bytes]
      rw [if_neg (by decide), if_neg (by decide), if_pos rfl, if_neg hlong]
      exact congrArg (fun freq => RxEffect.tuneStatus freq st.rssi (st.stereoPrg ≠ 0)) (le32_le32Bytes st.stationFreq)
  | searchProgress => rfl

theorem wcnssFmRx_of_readPayload_none (pending : BitVec 16) (h : readPayload evt payload = none)
    (hlen : payload.length < 256) (behind : List Byte) :
    wcnssFmRx pending (eventPacket evt payload ++ behind) = .ignore := by
  rw [wcnssFmRx_of_event pending evt hlen behind]
  unfold readPayload at h
  split at h
  · rw [if_pos ‹_›, if_pos (length_lt_of_readCmdComplete h)]
  rw [if_neg ‹_›]
  split at h
  · cases h
  rw [if_neg ‹_›]
  split at h
  · rw [if_pos ‹_›, if_pos (length_lt_of_readTuneStatus h)]
  rw [if_neg ‹_›]
  split at h
  · cases h
  · exact if_neg ‹_›

theorem wcnssFmRx_eq (pending : BitVec 16) (buf : Packet) :
    wcnssFmRx pending buf = (message buf).elim .ignore (Message.effect pending) := by
  cases hmessage : message buf with
  | some m =>
      obtain ⟨evt, payload, behind, hcarried, hlen, rfl⟩ := message_eq_some_iff.mp hmessage
      exact wcnssFmRx_of_carried pending hcarried hlen behind
  | none =>
      cases hevent : event buf with
      | none => exact wcnssFmRx_of_event_none pending hevent
      | some event =>
          obtain ⟨evt, payload⟩ := event
          obtain ⟨hlen, behind, rfl⟩ := eventPacket_of_event hevent
          rw [message, hevent, Option.bind_some] at hmessage
          exact wcnssFmRx_of_readPayload_none pending hmessage hlen behind

end

end Sirius.RadioFm
