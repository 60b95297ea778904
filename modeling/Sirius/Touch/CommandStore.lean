import Sirius.Lib.Scan
import Sirius.Touch.Command

/-!
# Commands from sysfs: command_store

A string is cut into groups of four characters, each is scanned as a hexadecimal number, and the numbers are sent as a
command. The length is checked where the command is sent, behind two copies.
-/
namespace Sirius.Touch
open Scan

@[simp] def MXM_CMD_ID_SET_TOUCH_RPT_MODE : BitVec 16 := 0x0018
@[simp] def MXM_CMD_ID_SET_POWER_MODE : BitVec 16 := 0x0020
@[simp] def MXM_DRIVE_MODE : BitVec 16 := 0x0004
@[simp] def MXM_SENSE_MODE : BitVec 16 := 0x0005

/-- An element of `buffer[]` or of `ts->cmd_buf[]`. -/
inductive Access
  | buffer (i : ℕ)
  | cmdBuf (i : ℕ)
  deriving DecidableEq, Repr

def Access.index : Access → ℕ
  | .buffer i => i
  | .cmdBuf i => i

/-- What storing a string comes to: the elements in the order they are named, the words of the command if it is sent,
the mode of the reports and what is returned. -/
structure Stored where
  accesses : List Access
  sent : Option (List (BitVec 16))
  isRawMode : Bool
  ret : ℤ
  deriving DecidableEq, Repr

section
variable (bus : Bus) (old : ℕ → BitVec 16)

/-- The words that `send_mtp_command` copies into the packets it sends. -/
def packetReads (sent : List (List (BitVec 16))) : List Access :=
  (List.range sent.length).flatMap fun i =>
    (List.range ((sent.getD i []).length - MXM_CMD_ADD_AND_HDR_LEN)).map fun k =>
      .cmdBuf (i * MXM_CMD_LEN_PACKET_MAX + k)

/-- `cmd_send` and `cmd_send_locked`, where `ts->cmd_buf` was `old`. -/
def cmdSendLocked (buf : ℕ → BitVec 16) (len : BitVec 16) (isRawMode : Bool) : Stored :=
  let cmdBuf := fun k => if k < len.toNat then buf k else old k
  let (packets, ret) := sendMtpCommand bus cmdBuf len
  let isRawMode := if cmdBuf 0 = MXM_CMD_ID_SET_TOUCH_RPT_MODE then decide (cmdBuf 2 = 0) else isRawMode
  let isRawMode := if cmdBuf 0 = MXM_CMD_ID_SET_POWER_MODE ∧ (cmdBuf 2 = MXM_DRIVE_MODE ∨ cmdBuf 2 = MXM_SENSE_MODE)
    then true else isRawMode
  { accesses := (List.range len.toNat).flatMap (fun k => [.buffer k, .cmdBuf k]) ++ .cmdBuf 1 :: packetReads packets ++
      [.cmdBuf 0, .cmdBuf 2]
    sent := if packets = [] then none else some ((List.range len.toNat).map cmdBuf)
    isRawMode
    ret }

/-- `sscanf(scan_buf, "%4hx", ..)`; a string ends with its first NUL. -/
def scanGroup (scanBuf : List Char) : Option (BitVec 16) :=
  (scanInteger 16 false (some 4) (scanBuf.takeWhile (· ≠ '\x00'))).map (BitVec.ofInt 16)

/-- The loop of `command_store` from word `i` on. -/
def scanGroups : List (List Char) → ℕ → List Access × Option (List (BitVec 16))
  | [], _ => ([], some [])
  | group :: groups, i =>
      match scanGroup group with
      | none => ([.buffer i], none)
      | some word => (.buffer i :: (scanGroups groups (i + 1)).1, (scanGroups groups (i + 1)).2.map (word :: ·))

/-- `count--` on a `size_t`. -/
def lessOne (buf : List Char) : ℕ := (BitVec.ofNat 64 buf.length - 1).toNat

/-- The groups of four characters, without the last character. -/
def groupsOf (buf : List Char) : List (List Char) :=
  (List.range (lessOne buf / 4)).map fun k => (buf.drop (4 * k)).take 4

def commandStore (isRawMode : Bool) (buf : List Char) : Stored :=
  if lessOne buf % 4 ≠ 0 then ⟨[], none, isRawMode, - EINVAL⟩
  else
    match scanGroups (groupsOf buf) 0 with
    | (accesses, none) => ⟨accesses, none, isRawMode, - EINVAL⟩
    | (accesses, some words) =>
        let send := cmdSendLocked bus old (fun k => words.getD k 0) (BitVec.ofNat 16 (lessOne buf / 4)) isRawMode
        { send with
          accesses := accesses ++ send.accesses
          ret := (BitVec.ofNat 64 buf.length).toNat }

end

/-- The word of a group of four hexadecimal digits. -/
def hexGroup (group : List Char) : Option (BitVec 16) :=
  if group.length = 4 ∧ group.all (isDigitOf 16) then some (BitVec.ofNat 16 (valueOf 16 group)) else none

/-- Inside the arrays, and the words of a command that is sent are those of the string. -/
def StoresRight (buf : List Char) (stored : Stored) : Prop :=
  (∀ a ∈ stored.accesses, a.index < MXM_CMD_LEN_MAX) ∧
    ∀ words, stored.sent = some words → (groupsOf buf).map hexGroup = words.map some

/-- A command that `send_mtp_command` does not refuse. -/
def Sendable (words : List (BitVec 16)) : Prop :=
  MXM_CMD_LEN_PACKET_MIN ≤ words.length ∧ words.length ≤ MXM_CMD_LEN_MAX ∧
    (words.getD 1 0).toNat + MXM_CMD_ID_AND_SIZE_LEN = words.length

instance (words : List (BitVec 16)) : Decidable (Sendable words) := inferInstanceAs (Decidable (_ ∧ _ ∧ _))

theorem scanGroup_of_hexGroup {group : List Char} {word : BitVec 16} (h : hexGroup group = some word) :
    scanGroup group = some word := by
  obtain ⟨⟨hlength, hdigits⟩, hword⟩ := Option.ite_none_right_eq_some.mp h
  have hnul : group.takeWhile (· ≠ '\x00') = group := by
    refine List.takeWhile_eq_self_iff.mpr fun c hc => ?_
    have hdigit := List.all_eq_true.mp hdigits c hc
    refine decide_eq_true fun hzero => ?_
    rw [hzero] at hdigit
    exact absurd hdigit (by decide)
  have hne : group ≠ [] := by
    rintro rfl
    exact absurd hlength (by decide)
  have hscan := scan_hex hne hdigits
  rw [hlength] at hscan
  rw [scanGroup, hnul, hscan, ← hword, Option.map_some, Option.some.injEq]
  apply BitVec.eq_of_toNat_eq
  rw [BitVec.toNat_ofInt, BitVec.toNat_ofNat]
  omega

theorem scanGroups_of_all {groups : List (List Char)} (h : ∀ g ∈ groups, scanGroup g ≠ none) (i : ℕ) :
    scanGroups groups i = ((List.range' i groups.length).map .buffer, some (groups.filterMap scanGroup)) := by
  induction groups generalizing i with
  | nil => rfl
  | cons g groups ih =>
      obtain ⟨hg, hgroups⟩ := List.forall_mem_cons.mp h
      obtain ⟨word, hword⟩ := Option.ne_none_iff_exists'.mp hg
      simp only [scanGroups, hword, ih hgroups, Option.map_some, List.filterMap_cons, List.length_cons,
        List.range'_succ, List.map_cons]

theorem scanGroups_of_bad {front rest : List (List Char)} {bad : List Char} (h : ∀ g ∈ front, scanGroup g ≠ none)
    (hbad : scanGroup bad = none) (i : ℕ) :
    scanGroups (front ++ bad :: rest) i = ((List.range' i (front.length + 1)).map .buffer, none) := by
  induction front generalizing i with
  | nil =>
      rw [List.nil_append, scanGroups, hbad]
      rfl
  | cons g front ih =>
      obtain ⟨hg, hfront⟩ := List.forall_mem_cons.mp h
      obtain ⟨word, hword⟩ := Option.ne_none_iff_exists'.mp hg
      simp only [List.cons_append, scanGroups, hword, ih hfront, Option.map_none, List.length_cons, List.range'_succ,
        List.map_cons]

theorem length_filterMap_of_all {groups : List (List Char)} (h : ∀ g ∈ groups, scanGroup g ≠ none) :
    (groups.filterMap scanGroup).length = groups.length :=
  List.filterMap_length_eq_length.mpr fun g hg => Option.isSome_iff_ne_none.mpr (h g hg)

theorem length_groupsOf (buf : List Char) : (groupsOf buf).length = lessOne buf / 4 := by
  rw [groupsOf, List.length_map, List.length_range]

theorem mem_packetReads {bus : Bus} {cmdBuf : ℕ → BitVec 16} {len : BitVec 16} {a : Access}
    (hlen : len.toNat ≤ MXM_CMD_LEN_MAX) (ha : a ∈ packetReads (sendMtpCommand bus cmdBuf len).1) :
    a.index < MXM_CMD_LEN_MAX := by
  by_cases hvalid : Command.Valid cmdBuf len
  · obtain ⟨i, hi, ha⟩ := List.mem_flatMap.mp ha
    obtain ⟨k, hk, rfl⟩ := List.mem_map.mp ha
    have hcut := Command.cut_packets hvalid.1 hvalid.2.1
    have hsent : ∃ n ≤ (len.toNat + 8) / 9, (sendMtpCommand bus cmdBuf len).1 =
        (List.range' 0 n).map (Command.packetAt cmdBuf len.toNat ((len.toNat + 8) / 9)) := by
      rcases Command.sendMtpCommand_ends bus hvalid with ⟨-, heq⟩ | ⟨m, hm, -, -, heq⟩
      · exact ⟨_, Nat.le_refl _, congrArg Prod.fst heq⟩
      · exact ⟨m + 1, hm, congrArg Prod.fst heq⟩
    obtain ⟨n, hn, hsent⟩ := hsent
    rw [hsent] at hi hk
    rw [List.mem_range, List.length_map, List.length_range'] at hi
    have hpacket : ((List.range' 0 n).map (Command.packetAt cmdBuf len.toNat ((len.toNat + 8) / 9)))[i]? = _ :=
      Command.getElem?_packets.mpr ⟨hi, rfl⟩
    rw [List.mem_range, List.getD_eq_getElem?_getD, hpacket, Option.getD_some, Command.length_packetAt _ hcut] at hk
    simp only [MXM_CMD_ADD_AND_HDR_LEN, Nat.add_sub_cancel] at hk
    have hbounds := Command.sizeAt_bounds hcut i
    obtain ⟨hlow, -, -⟩ := hcut
    simp only [Access.index, MXM_CMD_LEN_PACKET_MAX]
    unfold Command.sizeAt at hk hbounds
    split at hk <;> omega
  · rw [Command.sendMtpCommand_invalid bus hvalid] at ha
    exact absurd ha List.not_mem_nil

theorem sent_ne_nil {bus : Bus} {cmdBuf : ℕ → BitVec 16} {len : BitVec 16} :
    (sendMtpCommand bus cmdBuf len).1 ≠ [] ↔ Command.Valid cmdBuf len := by
  constructor
  · intro hne
    by_contra hvalid
    exact hne (congrArg Prod.fst (Command.sendMtpCommand_invalid bus hvalid))
  · intro hvalid
    have hsome : 0 < (len.toNat + 8) / 9 := by
      have := hvalid.1
      omega
    rcases Command.sendMtpCommand_ends bus hvalid with ⟨-, heq⟩ | ⟨m, hm, -, -, heq⟩
    · rw [congrArg Prod.fst heq]
      exact fun hnil => absurd (congrArg List.length hnil) (by simp; omega)
    · rw [congrArg Prod.fst heq]
      exact fun hnil => absurd (congrArg List.length hnil) (by simp)

section
variable {bus : Bus} {old : ℕ → BitVec 16} {isRawMode : Bool}

theorem cmdSendLocked_accesses {buf : ℕ → BitVec 16} {len : BitVec 16} (hlen : len.toNat ≤ MXM_CMD_LEN_MAX)
    {a : Access} (ha : a ∈ (cmdSendLocked bus old buf len isRawMode).accesses) : a.index < MXM_CMD_LEN_MAX := by
  simp only [cmdSendLocked, List.mem_append, List.mem_cons, List.mem_flatMap, List.mem_range, List.not_mem_nil,
    or_false] at ha
  rcases ha with (⟨k, hk, rfl | rfl⟩ | rfl | hpackets) | rfl | rfl
  · exact Nat.lt_of_lt_of_le hk hlen
  · exact Nat.lt_of_lt_of_le hk hlen
  · exact (by decide : 1 < MXM_CMD_LEN_MAX)
  · exact mem_packetReads hlen hpackets
  · exact (by decide : 0 < MXM_CMD_LEN_MAX)
  · exact (by decide : 2 < MXM_CMD_LEN_MAX)

/-- What is sent are the words that were scanned, where the length check accepts them. -/
theorem cmdSendLocked_sent {words : List (BitVec 16)} (hlen : words.length < 65536) :
    (cmdSendLocked bus old (fun k => words.getD k 0) (BitVec.ofNat 16 words.length) isRawMode).sent =
      if Sendable words then some words else none := by
  have hmod : (BitVec.ofNat 16 words.length).toNat = words.length :=
    (BitVec.toNat_ofNat ..).trans (Nat.mod_eq_of_lt hlen)
  have hwords :
      (List.range words.length).map (fun k => if k < words.length then words.getD k 0 else old k) = words := by
    refine List.ext_getElem (by rw [List.length_map, List.length_range]) fun k hk hk' => ?_
    rw [List.getElem_map, List.getElem_range, if_pos hk', List.getD_eq_getElem?_getD, List.getElem?_eq_getElem hk',
      Option.getD_some]
  have hvalid : Command.Valid (fun k => if k < words.length then words.getD k 0 else old k)
      (BitVec.ofNat 16 words.length) ↔ Sendable words := by
    unfold Command.Valid Sendable
    rw [hmod]
    refine and_congr_right fun htwo => and_congr_right fun _ => ?_
    change ((if 1 < words.length then words.getD 1 0 else old 1).toNat + 2 = words.length ↔ _)
    rw [if_pos (show 1 < words.length from htwo)]
    rfl
  simp only [cmdSendLocked, hmod, hwords]
  by_cases hsendable : Sendable words
  · rw [if_pos hsendable, if_neg (sent_ne_nil.mpr (hvalid.mpr hsendable))]
  · rw [if_neg hsendable, if_pos (not_not.mp (mt sent_ne_nil.mp (mt hvalid.mp hsendable)))]

/-- Where all groups are numbers and there are not too many, the words are sent if they are a command. -/
theorem commandStore_of_all {buf : List Char} (hfour : lessOne buf % 4 = 0)
    (hall : ∀ g ∈ groupsOf buf, scanGroup g ≠ none) (hlen : (groupsOf buf).length ≤ MXM_CMD_LEN_MAX) :
    (∀ a ∈ (commandStore bus old isRawMode buf).accesses, a.index < MXM_CMD_LEN_MAX) ∧
      (commandStore bus old isRawMode buf).sent =
        if Sendable ((groupsOf buf).filterMap scanGroup) then some ((groupsOf buf).filterMap scanGroup) else none := by
  have hcount : lessOne buf / 4 = ((groupsOf buf).filterMap scanGroup).length := by
    rw [length_filterMap_of_all hall, length_groupsOf]
  have hsmall : ((groupsOf buf).filterMap scanGroup).length ≤ MXM_CMD_LEN_MAX := by
    rwa [length_filterMap_of_all hall]
  have hmax : MXM_CMD_LEN_MAX < 65536 := by decide
  have hmod : (BitVec.ofNat 16 ((groupsOf buf).filterMap scanGroup).length).toNat =
      ((groupsOf buf).filterMap scanGroup).length :=
    (BitVec.toNat_ofNat ..).trans (Nat.mod_eq_of_lt (by omega))
  simp only [commandStore, if_neg (not_not.mpr hfour), scanGroups_of_all hall, hcount]
  refine ⟨fun a ha => ?_, cmdSendLocked_sent (by omega)⟩
  rcases List.mem_append.mp ha with hscan | hsend
  · obtain ⟨i, hi, rfl⟩ := List.mem_map.mp hscan
    have := (List.mem_range'_1.mp hi).2
    simp only [Access.index]
    omega
  · exact cmdSendLocked_accesses (by omega) hsend

theorem mem_accesses_of_all {buf : List Char} (hfour : lessOne buf % 4 = 0)
    (hall : ∀ g ∈ groupsOf buf, scanGroup g ≠ none) {i : ℕ} (hi : i < (groupsOf buf).length) :
    .buffer i ∈ (commandStore bus old isRawMode buf).accesses := by
  simp only [commandStore, if_neg (not_not.mpr hfour), scanGroups_of_all hall]
  exact List.mem_append_left _ (List.mem_map_of_mem (List.mem_range'_1.mpr ⟨Nat.zero_le _, by omega⟩))

theorem map_hexGroup_iff {groups : List (List Char)} (hall : ∀ g ∈ groups, scanGroup g ≠ none) :
    groups.map hexGroup = (groups.filterMap scanGroup).map some ↔ ∀ g ∈ groups, hexGroup g ≠ none := by
  induction groups with
  | nil => simp
  | cons g groups ih =>
      obtain ⟨hg, hgroups⟩ := List.forall_mem_cons.mp hall
      obtain ⟨word, hword⟩ := Option.ne_none_iff_exists'.mp hg
      rw [List.map_cons, List.filterMap_cons, hword, List.map_cons, List.cons.injEq, ih hgroups, List.forall_mem_cons]
      refine and_congr_left fun _ => ⟨fun h => h ▸ Option.some_ne_none word, fun h => ?_⟩
      obtain ⟨value, hvalue⟩ := Option.ne_none_iff_exists'.mp h
      rw [hvalue, ← scanGroup_of_hexGroup hvalue, hword]

/-- A group that is no number ends the loop. -/
theorem commandStore_of_bad {buf : List Char} (hfour : lessOne buf % 4 = 0) {front rest : List (List Char)}
    {bad : List Char} (hsplit : groupsOf buf = front ++ bad :: rest) (hfront : ∀ g ∈ front, scanGroup g ≠ none)
    (hbad : scanGroup bad = none) :
    commandStore bus old isRawMode buf =
      ⟨(List.range' 0 (front.length + 1)).map .buffer, none, isRawMode, - EINVAL⟩ := by
  simp only [commandStore, if_neg (not_not.mpr hfour), hsplit, scanGroups_of_bad hfront hbad]

/-- The first group that is no number. -/
theorem exists_first_bad {groups : List (List Char)} (h : ¬∀ g ∈ groups, scanGroup g ≠ none) :
    ∃ front bad rest, groups = front ++ bad :: rest ∧ (∀ g ∈ front, scanGroup g ≠ none) ∧ scanGroup bad = none := by
  induction groups with
  | nil => exact absurd (fun g hg => absurd hg List.not_mem_nil) h
  | cons g groups ih =>
      cases hg : scanGroup g with
      | none => exact ⟨[], g, groups, rfl, fun g hg => absurd hg List.not_mem_nil, hg⟩
      | some word =>
          have hrest : ¬∀ g ∈ groups, scanGroup g ≠ none := fun hall =>
            h (List.forall_mem_cons.mpr ⟨by rw [hg]; exact Option.some_ne_none word, hall⟩)
          obtain ⟨front, bad, rest, rfl, hfront, hbad⟩ := ih hrest
          exact ⟨g :: front, bad, rest, rfl,
            List.forall_mem_cons.mpr ⟨by rw [hg]; exact Option.some_ne_none word, hfront⟩, hbad⟩

end

/-- A group that is no number is among the first 135 exactly if the loop ends inside the array. -/
theorem bad_in_front_iff {front rest : List (List Char)} {bad : List Char} {n : ℕ}
    (hfront : ∀ g ∈ front, scanGroup g ≠ none) (hbad : scanGroup bad = none) :
    (∃ g ∈ (front ++ bad :: rest).take n, scanGroup g = none) ↔ front.length < n := by
  constructor
  · rintro ⟨g, hg, hscan⟩
    by_contra hlen
    rw [List.take_append_of_le_length (Nat.le_of_not_lt hlen)] at hg
    exact hfront g (List.mem_of_mem_take hg) hscan
  · intro hlen
    refine ⟨bad, ?_, hbad⟩
    obtain ⟨k, rfl⟩ := Nat.exists_eq_add_of_lt hlen
    rw [Nat.add_assoc, List.take_length_add_append, List.take_succ_cons]
    exact List.mem_append_right _ List.mem_cons_self

/-- For every string: the attribute stays inside its arrays and sends the words of the string exactly if the string is
refused for its length or for a group among the first 135, or has no more groups than that, which all are four
hexadecimal digits unless the length check refuses the command. -/
theorem commandStore_right_iff (bus : Bus) (old : ℕ → BitVec 16) (isRawMode : Bool) (buf : List Char) :
    StoresRight buf (commandStore bus old isRawMode buf) ↔
      lessOne buf % 4 ≠ 0 ∨ (∃ g ∈ (groupsOf buf).take MXM_CMD_LEN_MAX, scanGroup g = none) ∨
        (groupsOf buf).length ≤ MXM_CMD_LEN_MAX ∧
          ((∀ g ∈ groupsOf buf, hexGroup g ≠ none) ∨ ¬Sendable ((groupsOf buf).filterMap scanGroup)) := by
  by_cases hfour : lessOne buf % 4 = 0
  · rw [or_iff_right (not_not.mpr hfour)]
    by_cases hall : ∀ g ∈ groupsOf buf, scanGroup g ≠ none
    · have hnone : ¬∃ g ∈ (groupsOf buf).take MXM_CMD_LEN_MAX, scanGroup g = none := fun ⟨g, hg, hscan⟩ =>
        hall g (List.mem_of_mem_take hg) hscan
      rw [or_iff_right hnone]
      by_cases hlen : (groupsOf buf).length ≤ MXM_CMD_LEN_MAX
      · have hstored : (∀ a ∈ (commandStore bus old isRawMode buf).accesses, _) ∧ _ :=
          commandStore_of_all hfour hall hlen
        rw [and_iff_right hlen, StoresRight, and_iff_right hstored.1, hstored.2]
        by_cases hsendable : Sendable ((groupsOf buf).filterMap scanGroup)
        · rw [if_pos hsendable, or_iff_left (not_not.mpr hsendable), ← map_hexGroup_iff hall]
          exact ⟨fun h => h _ rfl, fun h words hwords => Option.some.inj hwords ▸ h⟩
        · rw [if_neg hsendable]
          exact iff_of_true (fun words hwords => nomatch hwords) (.inr hsendable)
      · refine iff_of_false (fun hright => ?_) fun hcond => hlen hcond.1
        exact absurd (hright.1 _ (mem_accesses_of_all hfour hall (Nat.lt_of_not_le hlen))) (Nat.lt_irrefl _)
    · obtain ⟨front, bad, rest, hsplit, hfront, hbad⟩ := exists_first_bad hall
      rw [StoresRight, commandStore_of_bad hfour hsplit hfront hbad, hsplit, bad_in_front_iff hfront hbad,
        List.length_append, List.length_cons]
      constructor
      · intro hright
        have hlast : Access.buffer front.length ∈ (List.range' 0 (front.length + 1)).map Access.buffer :=
          List.mem_map_of_mem (List.mem_range'_1.mpr ⟨Nat.zero_le _, by omega⟩)
        exact .inl (hright.1 _ hlast)
      · intro hcond
        have hlen : front.length < MXM_CMD_LEN_MAX := hcond.elim id fun h => by
          have := h.1
          omega
        refine ⟨fun a ha => ?_, fun words hwords => nomatch hwords⟩
        obtain ⟨i, hi, rfl⟩ := List.mem_map.mp ha
        have := (List.mem_range'_1.mp hi).2
        simp only [Access.index]
        omega
  · refine iff_of_true ?_ (.inl hfour)
    rw [StoresRight, commandStore, if_pos hfour]
    exact ⟨fun a ha => absurd ha List.not_mem_nil, fun words hwords => nomatch hwords⟩

/-- 136 groups. -/
def manyGroups : List Char := List.replicate 544 '0' ++ ['\n']

theorem commandStore_overrun : ¬StoresRight manyGroups (commandStore Bus.writes (fun _ => 0) false manyGroups) := by
  intro hright
  have hall : ∀ g ∈ groupsOf manyGroups, scanGroup g ≠ none := by decide +kernel
  have hmem : Access.buffer 135 ∈ (commandStore Bus.writes (fun _ => 0) false manyGroups).accesses :=
    mem_accesses_of_all (by decide +kernel) hall (by decide +kernel)
  exact absurd (hright.1 _ hmem) (by decide)

end Sirius.Touch
