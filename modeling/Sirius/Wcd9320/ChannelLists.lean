import Mathlib.Data.Fintype.Card
import Sirius.Wcd9320.HwParams

/-!
# The channel lists stay well formed

Whatever the mixer controls write, each port is on the list its control names and on
no other, so every walk over a list ends.
-/
namespace Sirius.Wcd9320
open ListHead

/-- The playback interface a mux value names. -/
def muxDai : ℕ → Option Dai
  | 1 => some .aif1Pb
  | 2 => some .aif2Pb
  | 3 => some .aif3Pb
  | _ => none

def Dai.IsPlayback : Dai → Prop
  | .aif1Pb | .aif2Pb | .aif3Pb => True
  | _ => False

def Dai.IsCapture : Dai → Prop
  | .aif1Cap | .aif2Cap | .aif3Cap => True
  | _ => False

instance : DecidablePred Dai.IsPlayback := fun d => by
  cases d <;> first | exact isTrue trivial | exact isFalse id

instance : DecidablePred Dai.IsCapture := fun d => by
  cases d <;> first | exact isTrue trivial | exact isFalse id

theorem muxDai_isPlayback {item : ℕ} {d : Dai} (h : muxDai item = some d) : d.IsPlayback := by
  unfold muxDai at h
  split at h <;> simp only [Option.some.injEq, reduceCtorEq] at h
  all_goals
    rw [← h]
    trivial

/-- Codec states the two controls can lead to from the first probe. -/
inductive Reached : Codec → Prop
  | probed : Reached (wcd9320CodecProbe (wcd9320Probe codecAlloc))
  | rxMux {wcd wcd' : Codec} {ret : ℤ} (port : RxPort) {item : ℕ} : Reached wcd → item ≤ 3 →
      slimRxMuxPut wcd port item = some (wcd', ret) → Reached wcd'
  | txMixer {wcd wcd' : Codec} {ret : ℤ} {dai : Dai} (port : TxPort) (enable : ℤ) : Reached wcd →
      dai.IsCapture → slimTxMixerPut wcd dai port enable = some (wcd', ret) → Reached wcd'

def TxSet (wcd : Codec) (p : TxPort) : Prop := wcd.txPortValue &&& bit p ≠ 0

/-- The links carry the lists that the values of the controls name. -/
structure Routed (wcd : Codec) (L : Dai → List Node) : Prop where
  linked : Linked wcd.links Node.dai L
  rx : ∀ p d, .rx p ∈ L d ↔ muxDai (wcd.rxPortValue p) = some d
  tx : ∀ p d, .tx p ∈ L d → d.IsCapture ∧ TxSet wcd p
  txLinked : ∀ p, TxSet wcd p → ∃ d, .tx p ∈ L d
  rxChs : ∀ p, wcd.rxChs p = slimRxCh p
  txChs : ∀ p, wcd.txChs p = slimTxCh p

theorem and_bit_ne_zero (v : BitVec 32) (p : TxPort) : v &&& bit p ≠ 0 ↔ v.getLsbD p = true := by
  have hp : (p : ℕ) < 32 := lt_trans p.isLt (by decide)
  have htwo : BitVec.twoPow 32 p ≠ 0 := by
    intro he
    have := congrArg (fun b => b.getLsbD p) he
    simp [hp] at this
  change v &&& BitVec.twoPow 32 p ≠ 0 ↔ _
  rw [BitVec.and_twoPow]
  cases h : v.getLsbD p with
  | false => simp
  | true => simpa using htwo

theorem getLsbD_bit (p q : TxPort) : (bit p).getLsbD q = decide (p = q) := by
  have hp : (p : ℕ) < 32 := lt_trans p.isLt (by decide)
  change (BitVec.twoPow 32 p).getLsbD q = _
  rw [BitVec.getLsbD_twoPow, decide_eq_true hp, Bool.true_and]
  exact decide_eq_decide.mpr Fin.val_inj

theorem or_bit (v : BitVec 32) (p q : TxPort) :
    (v ||| bit p) &&& bit q ≠ 0 ↔ q = p ∨ v &&& bit q ≠ 0 := by
  rw [and_bit_ne_zero, and_bit_ne_zero, BitVec.getLsbD_or, getLsbD_bit, Bool.or_eq_true, decide_eq_true_eq,
    or_comm, eq_comm]

theorem and_not_bit (v : BitVec 32) (p q : TxPort) :
    (v &&& ~~~bit p) &&& bit q ≠ 0 ↔ q ≠ p ∧ v &&& bit q ≠ 0 := by
  have hq : (q : ℕ) < 32 := lt_trans q.isLt (by decide)
  rw [and_bit_ne_zero, and_bit_ne_zero, BitVec.getLsbD_and, BitVec.getLsbD_not, getLsbD_bit, Bool.and_eq_true,
    Bool.and_eq_true, Bool.not_eq_true', decide_eq_false_iff_not, decide_eq_true_eq, and_comm, eq_comm (a := p)]
  simp only [hq, true_and, ne_eq]

section
variable {wcd : Codec} {L : Dai → List Node}

theorem Routed.loose_rx (h : Routed wcd L) {p : RxPort} (hp : muxDai (wcd.rxPortValue p) = none) (d : Dai) :
    Node.rx p ∉ Node.dai d :: L d := by
  intro hmem
  rcases List.mem_cons.mp hmem with he | hmem
  · cases he
  · rw [h.rx, hp] at hmem
    cases hmem

theorem Routed.loose_tx (h : Routed wcd L) {p : TxPort} (hp : ¬ TxSet wcd p) (d : Dai) :
    Node.tx p ∉ Node.dai d :: L d := by
  intro hmem
  rcases List.mem_cons.mp hmem with he | hmem
  · cases he
  · exact hp (h.tx p d hmem).2

theorem Routed.unlinkRx (h : Routed wcd L) (port : RxPort) {item : ℕ} (hitem : muxDai item = none) :
    ∃ links, listDelInit wcd.links (.rx port) = some links ∧
      Routed { wcd with rxPortValue := Function.update wcd.rxPortValue port item, links }
        fun d => (L d).erase (.rx port) := by
  obtain ⟨links, hdel, hlinked⟩ := h.linked.delInit (n := .rx port) fun d he => by cases he
  have hnodup := fun d => (List.nodup_cons.mp (h.linked.nodup d)).2
  refine ⟨links, hdel, hlinked, ?_, ?_, ?_, h.rxChs, h.txChs⟩
  · intro p d
    rw [(hnodup d).mem_erase_iff]
    by_cases hp : p = port
    · simp [hp, hitem]
    · simp [hp, h.rx]
  · intro p d hmem
    exact h.tx p d (List.mem_of_mem_erase hmem)
  · intro p hp
    obtain ⟨d, hd⟩ := h.txLinked p hp
    exact ⟨d, (hnodup d).mem_erase_iff.mpr ⟨nofun, hd⟩⟩

theorem Routed.linkRx (h : Routed wcd L) (port : RxPort) (hloose : muxDai (wcd.rxPortValue port) = none)
    {item : ℕ} {dai : Dai} (hdai : muxDai item = some dai) :
    ∃ links, listAddTail wcd.links (.rx port) (.dai dai) = some links ∧
      Routed { wcd with rxPortValue := Function.update wcd.rxPortValue port item, links }
        (Function.update L dai (L dai ++ [.rx port])) := by
  obtain ⟨links, hadd, hlinked⟩ := h.linked.addTail (h.loose_rx hloose) dai
  refine ⟨links, hadd, hlinked, ?_, ?_, ?_, h.rxChs, h.txChs⟩
  · intro p d
    rw [mem_update_append, h.rx]
    by_cases hp : p = port
    · simp [hp, hloose, hdai, eq_comm]
    · simp [hp]
  · intro p d hd
    rw [mem_update_append] at hd
    exact h.tx p d (hd.resolve_right fun hx => by cases hx.2)
  · intro p hp
    obtain ⟨d, hd⟩ := h.txLinked p hp
    exact ⟨d, mem_update_append.mpr (Or.inl hd)⟩

theorem Routed.linkTx (h : Routed wcd L) (port : TxPort) (hclear : ¬ TxSet wcd port) {dai : Dai}
    (hdai : dai.IsCapture) :
    ∃ links, listAddTail wcd.links (.tx port) (.dai dai) = some links ∧
      Routed { wcd with txPortValue := wcd.txPortValue ||| bit port, links }
        (Function.update L dai (L dai ++ [.tx port])) := by
  obtain ⟨links, hadd, hlinked⟩ := h.linked.addTail (h.loose_tx hclear) dai
  refine ⟨links, hadd, hlinked, ?_, ?_, ?_, h.rxChs, h.txChs⟩
  · intro p d
    rw [mem_update_append, or_iff_left fun hx => by cases hx.2]
    exact h.rx p d
  · intro p d hd
    rcases mem_update_append.mp hd with hd | ⟨rfl, he⟩
    · exact ⟨(h.tx p d hd).1, (or_bit _ _ _).mpr (Or.inr (h.tx p d hd).2)⟩
    · cases he
      exact ⟨hdai, (or_bit _ _ _).mpr (Or.inl rfl)⟩
  · intro p hp
    rcases (or_bit _ _ _).mp hp with rfl | hp
    · exact ⟨dai, mem_update_append.mpr (Or.inr ⟨rfl, rfl⟩)⟩
    · obtain ⟨d, hd⟩ := h.txLinked p hp
      exact ⟨d, mem_update_append.mpr (Or.inl hd)⟩

theorem Routed.unlinkTx (h : Routed wcd L) (port : TxPort) :
    ∃ links, listDelInit wcd.links (.tx port) = some links ∧
      Routed { wcd with txPortValue := wcd.txPortValue &&& ~~~bit port, links }
        fun d => (L d).erase (.tx port) := by
  obtain ⟨links, hdel, hlinked⟩ := h.linked.delInit (n := .tx port) fun d he => by cases he
  have hnodup := fun d => (List.nodup_cons.mp (h.linked.nodup d)).2
  refine ⟨links, hdel, hlinked, ?_, ?_, ?_, h.rxChs, h.txChs⟩
  · intro p d
    rw [(hnodup d).mem_erase_iff, and_iff_right (by simp)]
    exact h.rx p d
  · intro p d hd
    obtain ⟨hne, hd⟩ := (hnodup d).mem_erase_iff.mp hd
    refine ⟨(h.tx p d hd).1, (and_not_bit _ _ _).mpr ⟨?_, (h.tx p d hd).2⟩⟩
    exact fun he => hne (he ▸ rfl)
  · intro p hp
    obtain ⟨hne, hp⟩ := (and_not_bit _ _ _).mp hp
    obtain ⟨d, hd⟩ := h.txLinked p hp
    refine ⟨d, (hnodup d).mem_erase_iff.mpr ⟨?_, hd⟩⟩
    intro he
    cases he
    exact hne rfl

theorem slimRxMuxPut_link {port : RxPort} {item : ℕ} {dai : Dai} (hnew : wcd.rxPortValue port ≠ item)
    (hdai : muxDai item = some dai) :
    slimRxMuxPut wcd port item = (listDelInit wcd.links (.rx port)).bind fun links =>
      (listAddTail links (.rx port) (.dai dai)).bind fun links =>
        some ({ wcd with rxPortValue := Function.update wcd.rxPortValue port item, links }, 0) := by
  rw [slimRxMuxPut, if_neg hnew]
  unfold muxDai at hdai
  split at hdai <;> cases hdai <;> rfl

theorem zero_of_muxDai_none {item : ℕ} (hitem : muxDai item = none) (hle : item ≤ 3) : item = 0 := by
  by_contra hne
  obtain rfl | rfl | rfl : item = 1 ∨ item = 2 ∨ item = 3 := by omega
  all_goals cases hitem

theorem slimRxMuxPut_unlink {port : RxPort} {item : ℕ} (hnew : wcd.rxPortValue port ≠ item)
    (hitem : muxDai item = none) :
    slimRxMuxPut wcd port item = (listDelInit wcd.links (.rx port)).bind fun links =>
      some ({ wcd with rxPortValue := Function.update wcd.rxPortValue port item, links },
        if item = 0 then 0 else -EINVAL) := by
  rw [slimRxMuxPut, if_neg hnew]
  by_cases hle : item ≤ 3
  · obtain rfl := zero_of_muxDai_none hitem hle
    rfl
  · obtain ⟨more, rfl⟩ := Nat.exists_eq_add_of_le' (Nat.lt_of_not_le hle)
    rfl

/-- What a write of a mux comes to: its port goes where the value names. -/
structure MuxWritten (wcd : Codec) (L : Dai → List Node) (port : RxPort) (item : ℕ) (wcd' : Codec)
    (L' : Dai → List Node) : Prop where
  routed : Routed wcd' L'
  rxPortValue : wcd'.rxPortValue = Function.update wcd.rxPortValue port item
  txPortValue : wcd'.txPortValue = wcd.txPortValue
  tx : ∀ p d, .tx p ∈ L' d ↔ .tx p ∈ L d

theorem MuxWritten.unlinked (h : Routed wcd L) (port : RxPort) {item : ℕ} (hitem : muxDai item = none) :
    ∃ links, listDelInit wcd.links (.rx port) = some links ∧
      MuxWritten wcd L port item { wcd with rxPortValue := Function.update wcd.rxPortValue port item, links }
        fun d => (L d).erase (.rx port) := by
  obtain ⟨links, hdel, hrouted⟩ := h.unlinkRx port hitem
  refine ⟨links, hdel, hrouted, rfl, rfl, ?_⟩
  intro p d
  exact List.mem_erase_of_ne nofun

/-- A write of a mux never faults, and an item value is never refused. -/
theorem Routed.rxMux (h : Routed wcd L) (port : RxPort) (item : ℕ) :
    ∃ wcd' L' ret, slimRxMuxPut wcd port item = some (wcd', ret) ∧ (item ≤ 3 → ret = 0) ∧
      MuxWritten wcd L port item wcd' L' := by
  by_cases hsame : wcd.rxPortValue port = item
  · refine ⟨wcd, L, 0, if_pos hsame, fun _ => rfl, h, ?_, rfl, fun _ _ => Iff.rfl⟩
    rw [← hsame, Function.update_eq_self]
  · cases hdai : muxDai item with
    | none =>
        obtain ⟨links, hdel, hwritten⟩ := MuxWritten.unlinked h port hdai
        refine ⟨_, _, _, by rw [slimRxMuxPut_unlink hsame hdai, hdel, Option.bind_some], fun hle => ?_, hwritten⟩
        exact if_pos (zero_of_muxDai_none hdai hle)
    | some dai =>
        obtain ⟨links, hdel, hloose⟩ := MuxWritten.unlinked h port (show muxDai 0 = none from rfl)
        obtain ⟨links', hadd, hrouted⟩ := hloose.routed.linkRx port (by simp [muxDai]) hdai
        simp only [Function.update_idem] at hrouted hadd
        refine ⟨_, _, 0, ?_, fun _ => rfl, hrouted, rfl, rfl, ?_⟩
        · rw [slimRxMuxPut_link hsame hdai, hdel, Option.bind_some, hadd, Option.bind_some]
        · intro p d
          rw [mem_update_append, or_iff_left fun hx => by cases hx.2]
          exact hloose.tx p d

/-- What a write of a capture switch comes to: switched on, a free port joins the list of the mixer;
switched off, the port leaves whatever list it is on. -/
structure SwitchWritten (wcd : Codec) (L : Dai → List Node) (dai : Dai) (port : TxPort) (enable : ℤ) (wcd' : Codec)
    (L' : Dai → List Node) : Prop where
  routed : Routed wcd' L'
  rxPortValue : wcd'.rxPortValue = wcd.rxPortValue
  on : enable ≠ 0 → ∀ p d, .tx p ∈ L' d ↔ .tx p ∈ L d ∨ ¬ TxSet wcd port ∧ p = port ∧ d = dai
  off : enable = 0 → ∀ p d, .tx p ∈ L' d ↔ .tx p ∈ L d ∧ p ≠ port
  other : ∀ e, e ≠ dai → (enable = 0 → .tx port ∉ L e) → L' e = L e

theorem slimTxMixerPut_eq (wcd : Codec) {dai : Dai} (hdai : dai.IsCapture) (port : TxPort) (enable : ℤ) :
    slimTxMixerPut wcd dai port enable =
      if enable ≠ 0 ∧ wcd.txPortValue &&& bit port = 0 then
        (listAddTail wcd.links (.tx port) (.dai dai)).bind fun links =>
          some ({ wcd with txPortValue := wcd.txPortValue ||| bit port, links }, 0)
      else if enable = 0 ∧ wcd.txPortValue &&& bit port ≠ 0 then
        (listDelInit wcd.links (.tx port)).bind fun links =>
          some ({ wcd with txPortValue := wcd.txPortValue &&& ~~~bit port, links }, 0)
      else some (wcd, 0) := by
  cases dai <;> first | rfl | exact absurd hdai id

/-- A write of a capture switch never faults and keeps the lists routed. -/
theorem Routed.txMixer (h : Routed wcd L) {dai : Dai} (hdai : dai.IsCapture) (port : TxPort) (enable : ℤ) :
    ∃ wcd' L', slimTxMixerPut wcd dai port enable = some (wcd', 0) ∧ SwitchWritten wcd L dai port enable wcd' L' := by
  rw [slimTxMixerPut_eq wcd hdai]
  split_ifs with hlink hunlink
  · have hclear : ¬ TxSet wcd port := fun hset => hset hlink.2
    obtain ⟨links, hadd, hrouted⟩ := h.linkTx port hclear hdai
    refine ⟨_, _, by rw [hadd]; rfl, hrouted, rfl, fun _ p d => ?_, fun hoff => absurd hoff hlink.1, ?_⟩
    · rw [mem_update_append, Node.tx.injEq, and_iff_right hclear, and_comm (a := d = dai)]
    · exact fun e he _ => Function.update_of_ne he _ _
  · obtain ⟨links, hdel, hrouted⟩ := h.unlinkTx port
    refine ⟨_, _, by rw [hdel]; rfl, hrouted, rfl, fun hon => absurd hunlink.1 hon, fun _ p d => ?_, ?_⟩
    · rw [(List.nodup_cons.mp (h.linked.nodup d)).2.mem_erase_iff, Ne, Node.tx.injEq, and_comm]
    · exact fun e _ hfree => List.erase_of_not_mem (hfree hunlink.1)
  · refine ⟨wcd, L, rfl, h, rfl, fun hon p d => ?_, fun hoff p d => ?_, fun _ _ _ => rfl⟩
    · have hset : TxSet wcd port := fun hclear => hlink ⟨hon, hclear⟩
      rw [or_iff_left fun hx => hx.1 hset]
    · have hclear : ¬ TxSet wcd port := fun hset => hunlink ⟨hoff, hset⟩
      rw [and_iff_left_of_imp]
      rintro hmem rfl
      exact hclear (h.tx p d hmem).2

/-- After the probes every node is linked to itself. -/
theorem probed_links (x : Node) :
    (wcd9320CodecProbe (wcd9320Probe codecAlloc)).links.next x = some x ∧
      (wcd9320CodecProbe (wcd9320Probe codecAlloc)).links.prev x = some x := by
  simp only [wcd9320CodecProbe, wcd9320Probe, initLists, foldl_initListHead]
  cases x with
  | dai d =>
      have hd : Node.dai d ∈ dais.map .dai := List.mem_map_of_mem (by cases d <;> decide)
      rw [if_pos hd, if_pos hd]
      exact ⟨rfl, rfl⟩
  | rx p =>
      have hp : Node.rx p ∈ (List.finRange WCD9320_RX_MAX).map .rx :=
        List.mem_map_of_mem (List.mem_finRange p)
      rw [if_pos hp, if_pos hp, ite_self, ite_self]
      exact ⟨rfl, rfl⟩
  | tx p =>
      have hp : Node.tx p ∈ (List.finRange WCD9320_TX_MAX).map .tx :=
        List.mem_map_of_mem (List.mem_finRange p)
      rw [if_pos hp, if_pos hp]
      exact ⟨rfl, rfl⟩

theorem probed_routed : Routed (wcd9320CodecProbe (wcd9320Probe codecAlloc)) fun _ => [] := by
  refine ⟨Linked.empty ?_ (fun x => (probed_links x).1) fun x => (probed_links x).2, ?_, ?_, ?_, ?_, ?_⟩
  · intro d e he
    cases he
    rfl
  · intro p d
    simp [wcd9320CodecProbe, wcd9320Probe, copyTemplates, codecAlloc, muxDai]
  · exact fun p d hd => absurd hd List.not_mem_nil
  · intro p hp
    exact absurd hp (by simp [TxSet, wcd9320CodecProbe, wcd9320Probe, copyTemplates, codecAlloc])
  · exact fun p => rfl
  · exact fun p => rfl

theorem reached_routed {wcd : Codec} (h : Reached wcd) : ∃ L, Routed wcd L ∧ ∀ p, wcd.rxPortValue p ≤ 3 := by
  induction h with
  | probed => exact ⟨_, probed_routed, fun p => Nat.zero_le 3⟩
  | @rxMux wcd wcd' ret port item _ hitem hput ih =>
      obtain ⟨L, hrouted, hvalues⟩ := ih
      obtain ⟨wcd'', L', ret', hput', -, hwritten⟩ := hrouted.rxMux port item
      rw [hput', Option.some.injEq, Prod.mk.injEq] at hput
      rw [← hput.1]
      refine ⟨L', hwritten.routed, ?_⟩
      intro p
      rw [hwritten.rxPortValue]
      by_cases hp : p = port
      · simpa [hp] using hitem
      · simpa [hp] using hvalues p
  | txMixer port enable _ hdai hput ih =>
      obtain ⟨L, hrouted, hvalues⟩ := ih
      obtain ⟨wcd'', L', hput', hwritten⟩ := hrouted.txMixer hdai port enable
      rw [hput', Option.some.injEq, Prod.mk.injEq] at hput
      rw [← hput.1]
      exact ⟨L', hwritten.routed, fun p => hwritten.rxPortValue ▸ hvalues p⟩

end

section
variable {wcd : Codec} {L : Dai → List Node}

theorem Routed.no_head (h : Routed wcd L) (d e : Dai) : .dai e ∉ L d := by
  intro hmem
  have he := h.linked.apart List.mem_cons_self (List.mem_cons_of_mem _ hmem)
  rw [he] at hmem
  exact (List.nodup_cons.mp (h.linked.nodup d)).1 hmem

theorem Routed.playback (h : Routed wcd L) {d : Dai} (hd : d.IsPlayback) {x : Node} (hx : x ∈ L d) :
    ∃ p, x = .rx p := by
  cases x with
  | dai e => exact absurd hx (h.no_head d e)
  | rx p => exact ⟨p, rfl⟩
  | tx p =>
      have := (h.tx p d hx).1
      cases d <;> first | exact absurd hd id | exact absurd this id

theorem Routed.capture (h : Routed wcd L) {d : Dai} (hd : d.IsCapture) {x : Node} (hx : x ∈ L d) :
    ∃ p, x = .tx p := by
  cases x with
  | dai e => exact absurd hx (h.no_head d e)
  | tx p => exact ⟨p, rfl⟩
  | rx p =>
      have := muxDai_isPlayback ((h.rx p d).mp hx)
      cases d <;> first | exact absurd hd id | exact absurd this id

theorem length_le_of_map {n : ℕ} {f : Fin n → Node} {xs : List Node} (hnodup : xs.Nodup)
    (hxs : ∀ x ∈ xs, ∃ p, x = f p) : xs.length ≤ n := by
  have hsub : xs.toFinset ⊆ Finset.univ.image f := by
    intro x hx
    obtain ⟨p, rfl⟩ := hxs x (List.mem_toFinset.mp hx)
    exact Finset.mem_image_of_mem f (Finset.mem_univ p)
  have hcard := (Finset.card_le_card hsub).trans Finset.card_image_le
  rwa [List.toFinset_card_of_nodup hnodup, Finset.card_univ, Fintype.card_fin] at hcard

theorem ch_isSome {n : Node} (hn : ∀ d, n ≠ .dai d) (wcd : Codec) : (wcd.ch n).isSome := by
  cases n with
  | dai d => exact absurd rfl (hn d)
  | rx p => rfl
  | tx p => rfl

theorem Routed.ch_isSome (h : Routed wcd L) {d : Dai} {x : Node} (hx : x ∈ L d) (wcd' : Codec) :
    (wcd'.ch x).isSome :=
  Wcd9320.ch_isSome (fun e he => h.no_head d e (he ▸ hx)) wcd'

/-- No list outgrows the guards of `wcd9320_get_channel_map`. -/
theorem Routed.length_playback (h : Routed wcd L) {d : Dai} (hd : d.IsPlayback) :
    (L d).length ≤ WCD9320_RX_MAX :=
  length_le_of_map (List.nodup_cons.mp (h.linked.nodup d)).2 fun _ => h.playback hd

theorem Routed.length_capture (h : Routed wcd L) {d : Dai} (hd : d.IsCapture) :
    (L d).length ≤ WCD9320_TX_MAX :=
  length_le_of_map (List.nodup_cons.mp (h.linked.nodup d)).2 fun _ => h.capture hd

theorem Routed.length_le (h : Routed wcd L) (d : Dai) : (L d).length ≤ WCD9320_TX_MAX := by
  by_cases hp : d.IsPlayback
  · exact (h.length_playback hp).trans (by decide)
  · by_cases hc : d.IsCapture
    · exact h.length_capture hc
    · have hempty : L d = [] := by
        rw [List.eq_nil_iff_forall_not_mem]
        intro x hx
        cases x with
        | dai e => exact h.no_head d e hx
        | rx p => exact hp (muxDai_isPlayback ((h.rx p d).mp hx))
        | tx p => exact hc (h.tx p d hx).1
      rw [hempty]
      exact Nat.zero_le _

/-- The array holds these values from its start and is unchanged behind them. -/
def Filled (slot slot' : ℕ → ℕ) (values : List ℕ) : Prop :=
  (List.range values.length).map slot' = values ∧ ∀ j, values.length ≤ j → slot' j = slot j

def channelNumbers (wcd : Codec) (xs : List Node) : List ℕ := xs.filterMap fun x => (wcd.ch x).map SlimCh.chNum

theorem forEach_storeSlot {max : ℕ} (xs : List Node) (hxs : ∀ x ∈ xs, (wcd.ch x).isSome)
    {i : ℕ} (hmax : i + xs.length ≤ max) (slot : ℕ → ℕ) :
    ∃ slot', forEach (storeSlot wcd max) xs (i, slot) = some (i + xs.length, slot') ∧
      (∀ j < i, slot' j = slot j) ∧ (∀ j, i + xs.length ≤ j → slot' j = slot j) ∧
      (List.range xs.length).map (fun j => slot' (i + j)) = channelNumbers wcd xs := by
  induction xs generalizing i slot with
  | nil => exact ⟨slot, rfl, fun _ _ => rfl, fun _ _ => rfl, rfl⟩
  | cons x xs ih =>
      obtain ⟨ch, hch⟩ := Option.isSome_iff_exists.mp (hxs x List.mem_cons_self)
      rw [List.length_cons] at hmax ⊢
      obtain ⟨slot', hrun, hbefore, hbehind, hslots⟩ := ih (fun y hy => hxs y (List.mem_cons_of_mem _ hy))
        (i := i + 1) (by omega) (Function.update slot i ch.chNum)
      refine ⟨slot', ?_, ?_, ?_, ?_⟩
      · rw [forEach, storeSlot, if_neg (by dsimp only; omega)]
        simp only [hch]
        rw [show i + (xs.length + 1) = i + 1 + xs.length by omega]
        exact hrun
      · intro j hj
        rw [hbefore j (by omega), Function.update_of_ne (by omega)]
      · intro j hj
        rw [hbehind j (by omega), Function.update_of_ne (by omega)]
      · have hfirst : slot' i = ch.chNum := by
          rw [hbefore i (by omega), Function.update_self]
        rw [List.range_succ_eq_map, List.map_cons, List.map_map, Nat.add_zero, hfirst, channelNumbers,
          List.filterMap_cons_some (by rw [hch]; rfl), ← channelNumbers, ← hslots]
        congr 1
        apply List.map_congr_left
        intro j _
        change slot' (i + (j + 1)) = slot' (i + 1 + j)
        rw [Nat.add_assoc, Nat.add_comm 1 j]

theorem Routed.ch_rx (h : Routed wcd L) (p : RxPort) : wcd.ch (.rx p) = some (slimRxCh p) := by
  rw [Codec.ch, h.rxChs]

theorem Routed.ch_tx (h : Routed wcd L) (p : TxPort) : wcd.ch (.tx p) = some (slimTxCh p) := by
  rw [Codec.ch, h.txChs]

/-- RX channel numbers start where TX channel numbers end. -/
theorem chNum_tx_lt_rx (p : TxPort) (q : RxPort) : (slimTxCh p).chNum < (slimRxCh q).chNum := by
  have := p.isLt
  simp only [slimTxCh, slimRxCh, WCD9320_SLIM_CH_OFFSET, WCD9320_RX_START, WCD9320_TX_MAX] at *
  omega

theorem Routed.chNum_inj (h : Routed wcd L) {x y : Node} {a b : SlimCh} (hx : wcd.ch x = some a)
    (hy : wcd.ch y = some b) (hab : a.chNum = b.chNum) : x = y := by
  cases x with
  | dai d => cases hx
  | rx p =>
      rw [h.ch_rx, Option.some.injEq] at hx
      cases y with
      | dai d => cases hy
      | rx q =>
          rw [h.ch_rx, Option.some.injEq] at hy
          rw [← hx, ← hy] at hab
          exact congrArg Node.rx (Fin.ext (Nat.add_right_cancel (Nat.add_right_cancel hab)))
      | tx q =>
          rw [h.ch_tx, Option.some.injEq] at hy
          rw [← hx, ← hy] at hab
          exact absurd hab (chNum_tx_lt_rx q p).ne'
  | tx p =>
      rw [h.ch_tx, Option.some.injEq] at hx
      cases y with
      | dai d => cases hy
      | rx q =>
          rw [h.ch_rx, Option.some.injEq] at hy
          rw [← hx, ← hy] at hab
          exact absurd hab (chNum_tx_lt_rx p q).ne
      | tx q =>
          rw [h.ch_tx, Option.some.injEq] at hy
          rw [← hx, ← hy] at hab
          exact congrArg Node.tx (Fin.ext (Nat.add_right_cancel hab))

theorem Routed.channelNumbers_nodup (h : Routed wcd L) (d : Dai) : (channelNumbers wcd (L d)).Nodup := by
  apply List.Nodup.filterMap _ (List.nodup_cons.mp (h.linked.nodup d)).2
  intro x y c hx hy
  rw [Option.mem_def, Option.map_eq_some_iff] at hx hy
  obtain ⟨a, ha, rfl⟩ := hx
  obtain ⟨b, hb, hab⟩ := hy
  exact h.chNum_inj ha hb hab.symm

theorem mem_channelNumbers {xs : List Node} {c : ℕ} :
    c ∈ channelNumbers wcd xs ↔ ∃ x ∈ xs, ∃ ch, wcd.ch x = some ch ∧ ch.chNum = c := by
  simp [channelNumbers, List.mem_filterMap]

/-- A channel map holds exactly the channel numbers of these ports, once each. -/
def Maps (ports : ℕ → Prop) (nums : List ℕ) : Prop := nums.Nodup ∧ ∀ c, c ∈ nums ↔ ports c

theorem Routed.maps_playback (h : Routed wcd L) {d : Dai} (hd : d.IsPlayback) :
    Maps (fun c => ∃ p : RxPort, muxDai (wcd.rxPortValue p) = some d ∧ c = (slimRxCh p).chNum)
      (channelNumbers wcd (L d)) := by
  refine ⟨h.channelNumbers_nodup d, ?_⟩
  intro c
  rw [mem_channelNumbers]
  constructor
  · rintro ⟨x, hx, ch, hch, rfl⟩
    obtain ⟨p, rfl⟩ := h.playback hd hx
    rw [h.ch_rx, Option.some.injEq] at hch
    exact ⟨p, (h.rx p d).mp hx, by rw [hch]⟩
  · rintro ⟨p, hp, rfl⟩
    exact ⟨_, (h.rx p d).mpr hp, _, h.ch_rx p, rfl⟩

theorem Routed.maps_capture (h : Routed wcd L) {d : Dai} (hd : d.IsCapture) :
    Maps (fun c => ∃ p : TxPort, .tx p ∈ L d ∧ c = (slimTxCh p).chNum) (channelNumbers wcd (L d)) := by
  refine ⟨h.channelNumbers_nodup d, ?_⟩
  intro c
  rw [mem_channelNumbers]
  constructor
  · rintro ⟨x, hx, ch, hch, rfl⟩
    obtain ⟨p, rfl⟩ := h.capture hd hx
    rw [h.ch_tx, Option.some.injEq] at hch
    exact ⟨p, hx, by rw [hch]⟩
  · rintro ⟨p, hp, rfl⟩
    exact ⟨_, hp, _, h.ch_tx p, rfl⟩

theorem Routed.fill (h : Routed wcd L) (d : Dai) {max : ℕ} (hmax : (L d).length ≤ max) (slot : ℕ → ℕ) :
    ∃ slot', Filled slot slot' (channelNumbers wcd (L d)) ∧ ∀ fuel, (L d).length < fuel →
      listForEachEntry wcd.links (.dai d) (storeSlot wcd max) fuel (0, slot) =
        some ((channelNumbers wcd (L d)).length, slot') := by
  obtain ⟨slot', hrun, -, hbehind, hslots⟩ := forEach_storeSlot (i := 0) (L d)
    (fun x hx => h.ch_isSome hx wcd) (le_of_eq_of_le (Nat.zero_add _) hmax) slot
  have hlen : (channelNumbers wcd (L d)).length = (L d).length := by
    rw [← hslots, List.length_map, List.length_range]
  refine ⟨slot', ⟨?_, ?_⟩, ?_⟩
  · rw [hlen]
    simpa only [Nat.zero_add] using hslots
  · intro j hj
    exact hbehind j (by omega)
  · intro fuel hfuel
    rw [h.linked.listForEachEntry_eq _ _ hfuel, hrun, hlen, Nat.zero_add]

end

section
variable (env : Env) {dev : Device} {L : Dai → List Node}

/-- The channel lists and the registers of the codec itself are as they were. -/
structure SameCodec (dev dev' : Device) : Prop where
  wcd : dev'.wcd = dev.wcd
  regmap : dev'.regmap = dev.regmap

theorem SameCodec.trans {dev dev' dev'' : Device} (h : SameCodec dev dev') (h' : SameCodec dev' dev'') :
    SameCodec dev dev'' :=
  ⟨h'.wcd.trans h.wcd, h'.regmap.trans h.regmap⟩

theorem regmapWrites_sameCodec (dev : Device) (writes : List (ℕ × ℕ)) :
    SameCodec dev (regmapWrites env dev writes).1 := by
  induction writes generalizing dev with
  | nil => exact ⟨rfl, rfl⟩
  | cons w writes ih =>
      rw [regmapWrites]
      split_ifs
      · exact ⟨rfl, rfl⟩
      · exact ⟨(ih _).wcd, (ih _).regmap⟩

theorem configureChannel_sameCodec (dai : Dai) (direction : Stream) (payload : BitVec 16)
    (state : Device × ℕ × ℤ) {n : Node} (hn : (state.1.wcd.ch n).isSome) :
    ∃ r, configureChannel env dai direction payload state n = some r ∧ SameCodec state.1 r.value.1 := by
  obtain ⟨ch, hch⟩ := Option.isSome_iff_exists.mp hn
  simp only [configureChannel, hch, Option.bind_eq_bind, Option.bind_some]
  refine ⟨_, rfl, ?_⟩
  split_ifs
  · exact ⟨(regmapWrites_sameCodec env _ _).wcd, (regmapWrites_sameCodec env _ _).regmap⟩
  · exact ⟨(regmapWrites_sameCodec env _ _).wcd, (regmapWrites_sameCodec env _ _).regmap⟩

/-- A walk whose body works on every channel ends, and keeps what the body keeps. -/
theorem Routed.walk {wcd : Codec} (h : Routed wcd L) {β : Type} {P : β → Prop} (d : Dai) {fuel : ℕ}
    (hfuel : (L d).length < fuel) (body : β → Node → Option (ForInStep β))
    (hbody : ∀ b, P b → ∀ x, (∀ wcd' : Codec, (wcd'.ch x).isSome) → ∃ r, body b x = some r ∧ P r.value)
    (b : β) (hb : P b) : ∃ b', listForEachEntry wcd.links (.dai d) body fuel b = some b' ∧ P b' := by
  rw [h.linked.listForEachEntry_eq _ _ hfuel]
  exact forEach_invariant (L d) (fun b hb x hx => hbody b hb x (h.ch_isSome hx)) hb

theorem Routed.slimSetHwParams (h : Routed dev.wcd L) (d : Dai) (direction : Stream) {fuel : ℕ}
    (hfuel : (L d).length < fuel) :
    ∃ dev' ret, wcd9320SlimSetHwParams env fuel dev d direction = some (dev', ret) ∧ SameCodec dev dev' := by
  obtain ⟨⟨cfg, payload⟩, hcount, -⟩ := h.walk (P := fun _ => True) d hfuel (countChannel dev.wcd)
    (fun b _ x hx => by
      obtain ⟨ch, hch⟩ := Option.isSome_iff_exists.mp (hx dev.wcd)
      exact ⟨_, by rw [countChannel, hch]; rfl, trivial⟩)
    ({ (dev.dai d).sconfig with chCount := 0, direction, portMask := 0 }, 0) trivial
  obtain ⟨⟨dev', i, ret⟩, hwrite, hsame⟩ := h.walk (P := fun b => SameCodec dev b.1) d hfuel
    (configureChannel env d direction payload)
    (fun b hb x hx => by
      obtain ⟨r, hr, hkeep⟩ := configureChannel_sameCodec env d direction payload b (hx b.1.wcd)
      exact ⟨r, hr, hb.trans hkeep⟩)
    (dev.setConfig d { cfg with chs := some (List.replicate cfg.chCount 0) }, 0, 0) ⟨rfl, rfl⟩
  have hwrite' : listForEachEntry
      (dev.setConfig d { cfg with chs := some (List.replicate cfg.chCount 0) }).wcd.links (.dai d)
      (configureChannel env d direction payload) fuel
      (dev.setConfig d { cfg with chs := some (List.replicate cfg.chCount 0) }, 0, 0) = some (dev', i, ret) :=
    hwrite
  unfold wcd9320SlimSetHwParams
  simp only [hcount, Option.bind_eq_bind, Option.bind_some]
  by_cases hk : env.kcalloc = true
  · simp only [hk, if_true, hwrite', Option.bind_some]
    split_ifs
    · exact ⟨_, _, rfl, hsame.trans ⟨rfl, rfl⟩⟩
    · exact ⟨_, _, rfl, hsame⟩
    · exact ⟨_, _, rfl, hsame.trans ⟨rfl, rfl⟩⟩
    · exact ⟨_, _, rfl, hsame.trans ⟨rfl, rfl⟩⟩
  · simp only [hk]
    exact ⟨_, _, rfl, rfl, rfl⟩

theorem Routed.slimPortsDisable (h : Routed dev.wcd L) (d : Dai) (direction : Stream) {fuel : ℕ}
    (hfuel : (L d).length < fuel) :
    ∃ dev', wcd9320SlimPortsDisable env fuel dev d direction = some dev' ∧ dev'.wcd = dev.wcd := by
  refine h.walk (P := fun b => b.wcd = dev.wcd) d hfuel (disablePort env direction) ?_ dev rfl
  intro b hb x hx
  obtain ⟨ch, hch⟩ := Option.isSome_iff_exists.mp (hx b.wcd)
  refine ⟨_, by rw [disablePort, hch]; rfl, ?_⟩
  exact hb

theorem Routed.walk_setRate {wcd : Codec} (h : Routed wcd L) (d : Dai) {fuel : ℕ} (hfuel : (L d).length < fuel)
    (rateIndex : ℕ) (stream : Stream) (regmap : ℕ → BitVec 8) :
    ∃ regmap', listForEachEntry wcd.links (.dai d) (setRate wcd rateIndex stream) fuel regmap = some regmap' := by
  obtain ⟨regmap', hwalk, -⟩ := h.walk (P := fun _ => True) d hfuel (setRate wcd rateIndex stream)
    (fun b _ x hx => by
      obtain ⟨ch, hch⟩ := Option.isSome_iff_exists.mp (hx wcd)
      cases stream with
      | capture => exact ⟨_, by simp only [setRate, setDecimatorRate, hch]; rfl, trivial⟩
      | playback => exact ⟨_, by simp only [setRate, setPlaybackRate, hch]; rfl, trivial⟩)
    regmap trivial
  exact ⟨regmap', hwalk⟩

/-- What hw_params does to the codec itself: nothing, or the walk that sets the rate. -/
structure RatesSet (dev : Device) (L : Dai → List Node) (d : Dai) (stream : Stream) (rate : ℕ) (dev' : Device)
    (ret : ℤ) : Prop where
  wcd : dev'.wcd = dev.wcd
  refused : rate ∉ rates → dev' = dev ∧ ret = -EINVAL
  failed : ret ≠ 0 → dev'.regmap = dev.regmap
  walk : ret = 0 → ∃ rateIndex, rates.findIdx? (· = rate) = some rateIndex ∧
    forEach (setRate dev.wcd rateIndex stream) (L d) dev.regmap = some dev'.regmap

theorem findIdx?_rates {rate : ℕ} : rates.findIdx? (· = rate) = none ↔ rate ∉ rates := by
  rw [List.findIdx?_eq_none_iff]
  constructor
  · exact fun h hmem => by simpa using h rate hmem
  · exact fun h x hx => by simpa using fun he : x = rate => h (he ▸ hx)

theorem Routed.hwParams (h : Routed dev.wcd L) (d : Dai) (stream : Stream) (rate : ℕ) {fuel : ℕ}
    (hfuel : (L d).length < fuel) :
    ∃ dev' ret, wcd9320HwParams env fuel dev d stream rate = some (dev', ret) ∧
      RatesSet dev L d stream rate dev' ret := by
  unfold wcd9320HwParams
  cases hrate : rates.findIdx? (· = rate) with
  | none => exact ⟨_, _, rfl, rfl, fun _ => ⟨rfl, rfl⟩, fun _ => rfl, fun hzero => absurd hzero (by decide)⟩
  | some rateIndex =>
      have hmem : rate ∈ rates := by
        by_contra hne
        rw [findIdx?_rates.2 hne] at hrate
        cases hrate
      have hset : Routed (dev.setConfig d { (dev.dai d).sconfig with bps := 16, rate }).wcd L := h
      obtain ⟨dev', ret, hset, hwcd, hregmap⟩ := hset.slimSetHwParams env d stream hfuel
      have h' : Routed dev'.wcd L := by
        rw [hwcd]
        exact h
      simp only [hset, Option.bind_eq_bind, Option.bind_some]
      by_cases hret : ret = 0
      · obtain ⟨regmap, hwalk⟩ := h'.walk_setRate d hfuel rateIndex stream dev'.regmap
        simp only [hret, ne_eq, not_true_eq_false, if_false, hwalk, Option.bind_some]
        refine ⟨_, _, rfl, hwcd, fun hne => absurd hmem hne, fun hne => absurd rfl hne, fun _ => ⟨rateIndex, hrate, ?_⟩⟩
        rw [h'.linked.listForEachEntry_eq _ _ hfuel, hwcd, hregmap] at hwalk
        exact hwalk
      · simp only [ne_eq, hret, not_false_eq_true, if_true]
        exact ⟨_, _, rfl, hwcd, fun hne => absurd hmem hne, fun _ => hregmap, fun hzero => absurd hzero hret⟩

end

/-- Slots for every list and the turn that finds its end. -/
def WALK : ℕ := WCD9320_TX_MAX + 1

structure WellFormed (wcd : Codec) (L : Dai → List Node) : Prop where
  nodup : ∀ d, (L d).Nodup
  no_head : ∀ d e, .dai e ∉ L d
  rx_value : ∀ p, wcd.rxPortValue p ≤ 3
  rx : ∀ p d, .rx p ∈ L d ↔ muxDai (wcd.rxPortValue p) = some d
  tx_set : ∀ p, TxSet wcd p → ∃! d, d.IsCapture ∧ .tx p ∈ L d
  tx_clear : ∀ p, ¬ TxSet wcd p → ∀ d, .tx p ∉ L d
  tx : ∀ p d, .tx p ∈ L d → d.IsCapture
  /-- Any loop over a list runs over its nodes and ends at its head. -/
  walk : ∀ d (β : Type) (body : β → Node → Option (ForInStep β)) (b : β), ∀ fuel ≥ WALK,
    listForEachEntry wcd.links (.dai d) body fuel b = forEach body (L d) b
  rx_map : ∀ d, d.IsPlayback → ∀ map slot num, map.rxSlot = some slot → map.rxNum = some num →
    ∃ nums slot', Maps (fun c => ∃ p : RxPort, muxDai (wcd.rxPortValue p) = some d ∧ c = (slimRxCh p).chNum) nums ∧
      Filled slot slot' nums ∧ ∀ fuel ≥ WALK, wcd9320GetChannelMap fuel wcd d map =
        some (0, { map with rxSlot := some slot', rxNum := some nums.length })
  tx_map : ∀ d, d.IsCapture → ∀ map slot num, map.txSlot = some slot → map.txNum = some num →
    ∃ nums slot', Maps (fun c => ∃ p : TxPort, .tx p ∈ L d ∧ c = (slimTxCh p).chNum) nums ∧
      Filled slot slot' nums ∧ ∀ fuel ≥ WALK, wcd9320GetChannelMap fuel wcd d map =
        some (0, { map with txSlot := some slot', txNum := some nums.length })
  set_hw_params : ∀ env dev d direction, dev.wcd = wcd → ∀ fuel ≥ WALK,
    (wcd9320SlimSetHwParams env fuel dev d direction).isSome
  ports_disable : ∀ env dev d direction, dev.wcd = wcd → ∀ fuel ≥ WALK,
    (wcd9320SlimPortsDisable env fuel dev d direction).isSome
  hw_params : ∀ env dev d stream rate, dev.wcd = wcd → ∀ fuel ≥ WALK,
    (wcd9320HwParams env fuel dev d stream rate).isSome
  rx_put : ∀ p, ∀ item ≤ 3, ∃ wcd', slimRxMuxPut wcd p item = some (wcd', 0)
  tx_put : ∀ d, d.IsCapture → ∀ p enable, ∃ wcd', slimTxMixerPut wcd d p enable = some (wcd', 0)

theorem Routed.wellFormed {wcd : Codec} {L : Dai → List Node} (h : Routed wcd L)
    (hvalues : ∀ p, wcd.rxPortValue p ≤ 3) : WellFormed wcd L := by
  have hfuel : ∀ d, ∀ fuel ≥ WALK, (L d).length < fuel := fun d fuel hfuel =>
    lt_of_lt_of_le (Nat.lt_succ_of_le (h.length_le d)) hfuel
  constructor
  case nodup => exact fun d => (List.nodup_cons.mp (h.linked.nodup d)).2
  case no_head => exact h.no_head
  case rx_value => exact hvalues
  case rx => exact h.rx
  case tx_set =>
    intro p hp
    obtain ⟨d, hd⟩ := h.txLinked p hp
    refine ⟨d, ⟨(h.tx p d hd).1, hd⟩, ?_⟩
    rintro e ⟨-, he⟩
    exact h.linked.apart (List.mem_cons_of_mem _ he) (List.mem_cons_of_mem _ hd)
  case tx_clear => exact fun p hp d hd => hp (h.tx p d hd).2
  case tx => exact fun p d hd => (h.tx p d hd).1
  case walk => exact fun d β body b fuel hf => h.linked.listForEachEntry_eq body d (hfuel d fuel hf) b
  case rx_map =>
    intro d hd map slot num hslot hnum
    obtain ⟨slot', hfilled, hwalk⟩ := h.fill d (h.length_playback hd) slot
    refine ⟨_, slot', h.maps_playback hd, hfilled, ?_⟩
    intro fuel hf
    have hwalk := hwalk fuel (hfuel d fuel hf)
    cases d <;> first
      | exact absurd hd id
      | simp only [wcd9320GetChannelMap, hslot, hnum, hwalk, Option.bind_eq_bind, Option.bind_some]
  case tx_map =>
    intro d hd map slot num hslot hnum
    obtain ⟨slot', hfilled, hwalk⟩ := h.fill d (h.length_capture hd) slot
    refine ⟨_, slot', h.maps_capture hd, hfilled, ?_⟩
    intro fuel hf
    have hwalk := hwalk fuel (hfuel d fuel hf)
    cases d <;> first
      | exact absurd hd id
      | simp only [wcd9320GetChannelMap, hslot, hnum, hwalk, Option.bind_eq_bind, Option.bind_some]
  case set_hw_params =>
    rintro env dev d direction rfl fuel hf
    obtain ⟨dev', ret, hrun, -⟩ := h.slimSetHwParams env d direction (hfuel d fuel hf)
    rw [hrun]
    rfl
  case ports_disable =>
    rintro env dev d direction rfl fuel hf
    obtain ⟨dev', hrun, -⟩ := h.slimPortsDisable env d direction (hfuel d fuel hf)
    rw [hrun]
    rfl
  case hw_params =>
    rintro env dev d stream rate rfl fuel hf
    obtain ⟨dev', ret, hrun, -⟩ := h.hwParams env d stream rate (hfuel d fuel hf)
    rw [hrun]
    rfl
  case rx_put =>
    intro p item hitem
    obtain ⟨wcd', L', ret, hput, hret, -⟩ := h.rxMux p item
    rw [hret hitem] at hput
    exact ⟨wcd', hput⟩
  case tx_put =>
    intro d hd p enable
    obtain ⟨wcd', L', hput, -⟩ := h.txMixer hd p enable
    exact ⟨wcd', hput⟩

/-- Whatever the controls write, the lists are well formed: every walk ends, and the channel
map is exactly what the controls name. -/
theorem channel_lists_wellFormed {wcd : Codec} (h : Reached wcd) : ∃ L, WellFormed wcd L := by
  obtain ⟨L, hrouted, hvalues⟩ := reached_routed h
  exact ⟨L, hrouted.wellFormed hvalues⟩

/-- After the first mux has been written once. -/
theorem channel_lists_wellFormed_mux :
    ∃ wcd, slimRxMuxPut (wcd9320CodecProbe (wcd9320Probe codecAlloc)) 0 1 = some (wcd, 0) ∧
      ∃ L, WellFormed wcd L := by
  obtain ⟨wcd, L, ret, hput, hret, -⟩ := probed_routed.rxMux 0 1
  rw [hret (by decide)] at hput
  exact ⟨wcd, hput, channel_lists_wellFormed (.rxMux 0 .probed (by decide) hput)⟩

end Sirius.Wcd9320
