import Sirius.Lib.ListParts
import Sirius.Wcd9320.Reinit
import Sirius.Wcd9320.SaveRestore

/-!
# The capture interfaces against each other

A TX port has one bit, is on the list of one interface and has one switch, whose connect state DAPM is
told at every write. The three agree whatever is written. What initialises a port that is set makes
them part: the list loses the port while the bit stays, and the switch is not looked at again.
-/
namespace Sirius.Wcd9320
open ListHead Runs

/-- The codec, and the connect state DAPM was last given for each capture switch of the card. -/
structure Card where
  wcd : Codec
  connect : Fin 10 → ℤ

def Card.registered : Card := ⟨Wcd9320.registered, fun _ => 0⟩

/-- What happens to a card: a control is set, or lists are initialised again. -/
inductive CardAct
  | set (s : Setting)
  | setChannelMap (txNum : Fin (WCD9320_TX_MAX + 1)) (txSlot : Option (ℕ → ℕ))
      (rxNum : Fin (WCD9320_RX_MAX + 1)) (rxSlot : Option (ℕ → ℕ))
  | componentProbe (clshCtrl : ℤ)
  | slimStatus (env : StatusEnv)

def CardAct.act (widget : Fin 10 → CapMixer) : CardAct → Act
  | .set s => .write (s.write widget)
  | .setChannelMap txNum txSlot rxNum rxSlot => .setChannelMap txNum txSlot rxNum rxSlot
  | .componentProbe clshCtrl => .componentProbe clshCtrl
  | .slimStatus env => .slimStatus env

/-- What `snd_soc_dapm_mixer_update_power` is told; a card that is bound again has new switches. -/
def CardAct.connect (connect : Fin 10 → ℤ) : CardAct → Fin 10 → ℤ
  | .set (.txSwitch n enable) => Function.update connect n enable
  | .componentProbe clshCtrl => if clshCtrl = 0 then fun _ => 0 else connect
  | _ => connect

def Card.act (widget : Fin 10 → CapMixer) (c : Card) (a : CardAct) : Option Card :=
  (Wcd9320.act c.wcd (a.act widget)).map fun wcd => ⟨wcd, a.connect c.connect⟩

def Card.step (widget : Fin 10 → CapMixer) (c : Option Card) (a : CardAct) : Option Card :=
  c.bind fun c => c.act widget a

/-- The port is on the list of an interface exactly when its switch there was last written on and no
other interface holds it. -/
def Card.Agrees (c : Card) (n : Fin 10) : Prop :=
  ∀ k : CapMixer, Holds c.wcd k.dai (txPort n) ↔
    c.connect n ≠ 0 ∧ ∀ j : CapMixer, j ≠ k → ¬ Holds c.wcd j.dai (txPort n)

/-- A write of a switch returns, leaves the lists of the other two interfaces as they were, and afterwards
its port is where it should be. -/
def Apart (widget : Fin 10 → CapMixer) (c : Option Card) : CardAct → Prop
  | .set (.txSwitch n enable) =>
      ∃ c₀ c', c = some c₀ ∧ c₀.act widget (.set (.txSwitch n enable)) = some c' ∧
        (∀ j : CapMixer, j ≠ widget n → ∀ xs,
          Reads c'.wcd.links (.dai j.dai) xs ↔ Reads c₀.wcd.links (.dai j.dai) xs) ∧ c'.Agrees n
  | _ => True

/-- No TX port that is set is initialised again; what becomes of the RX ports does not matter. -/
def SparesCapture (c : Option Card) : CardAct → Prop
  | .set _ => True
  | .setChannelMap txNum txSlot _ rxSlot =>
      txSlot.isSome → rxSlot.isSome → ∀ c₀ ∈ c, ∀ p : TxPort, p.val < txNum → ¬ TxSet c₀.wcd p
  | .componentProbe clshCtrl => clshCtrl = 0 → ∀ c₀ ∈ c, ∀ p, ¬ TxSet c₀.wcd p
  | .slimStatus env => env.Probes → ∀ c₀ ∈ c, ∀ p, ¬ TxSet c₀.wcd p

def Node.OnCapture : Node → Prop
  | .dai d => d.IsCapture
  | .rx _ => False
  | .tx _ => True

instance : DecidablePred Node.OnCapture
  | .dai d => inferInstanceAs (Decidable d.IsCapture)
  | .rx _ => isFalse id
  | .tx _ => isTrue trivial

/-- The codec as the capture side sees it: no RX port is anywhere. -/
def Codec.capture (wcd : Codec) : Codec where
  links := wcd.links.part Node.OnCapture
  rxChs := fun p => slimRxCh p
  txChs := fun p => slimTxCh p
  rxPortValue := fun _ => 0
  txPortValue := wcd.txPortValue

section
variable {wcd wcd' : Codec} {L L' : Dai → List Node}

theorem capture_links (wcd : Codec) : wcd.capture.links = wcd.links.part Node.OnCapture := rfl

theorem capture_txPortValue (wcd : Codec) : wcd.capture.txPortValue = wcd.txPortValue := rfl

theorem Dai.IsPlayback.not_onCapture {d : Dai} (h : d.IsPlayback) : ¬ (Node.dai d).OnCapture := by
  cases d with
  | aif1Pb | aif2Pb | aif3Pb => exact id
  | _ => exact absurd h id

/-- A mux is none of the capture side's business, even if its lists are broken. -/
theorem slimRxMuxPut_capture (h : Parted wcd.links Node.OnCapture) (port : RxPort) (item : ℕ) :
    ∃ wcd' ret, slimRxMuxPut wcd port item = some (wcd', ret) ∧ Parted wcd'.links Node.OnCapture ∧
      wcd'.capture = wcd.capture := by
  by_cases hsame : wcd.rxPortValue port = item
  · exact ⟨wcd, 0, if_pos hsame, h, rfl⟩
  · obtain ⟨links, hdel, hparted, -, hout⟩ := h.delInit (.rx port)
    have hpart := hout id
    cases hdai : muxDai item with
    | none =>
        refine ⟨{ wcd with rxPortValue := Function.update wcd.rxPortValue port item, links },
          if item = 0 then 0 else -EINVAL, ?_, hparted, ?_⟩
        · rw [slimRxMuxPut_unlink hsame hdai, hdel, Option.bind_some]
        · unfold Codec.capture
          rw [hpart]
    | some dai =>
        have hout : (Node.rx port).OnCapture ↔ (Node.dai dai).OnCapture :=
          iff_of_false id (Dai.IsPlayback.not_onCapture (muxDai_isPlayback hdai))
        obtain ⟨links', hadd, hparted', -, hout'⟩ := hparted.addTail hout
        refine ⟨{ wcd with rxPortValue := Function.update wcd.rxPortValue port item, links := links' }, 0, ?_,
          hparted', ?_⟩
        · rw [slimRxMuxPut_link hsame hdai, hdel, Option.bind_some, hadd, Option.bind_some]
        · unfold Codec.capture
          rw [hout' id, hpart]

/-- A switch does on the capture side what it does in memory. -/
theorem slimTxMixerPut_capture (h : Parted wcd.links Node.OnCapture) (k : CapMixer) (port : TxPort) (enable : ℤ) :
    ∃ wcd' ret, slimTxMixerPut wcd k.dai port enable = some (wcd', ret) ∧ Parted wcd'.links Node.OnCapture ∧
      slimTxMixerPut wcd.capture k.dai port enable = some (wcd'.capture, ret) := by
  have hhead : (Node.tx port).OnCapture ↔ (Node.dai k.dai).OnCapture := iff_of_true trivial k.dai_isCapture
  rw [slimTxMixerPut_eq wcd k.dai_isCapture, slimTxMixerPut_eq wcd.capture k.dai_isCapture, capture_txPortValue,
    capture_links]
  by_cases hlink : enable ≠ 0 ∧ wcd.txPortValue &&& bit port = 0
  · obtain ⟨links, hadd, hparted, hin, -⟩ := h.addTail hhead
    refine ⟨{ wcd with txPortValue := wcd.txPortValue ||| bit port, links }, 0, ?_, hparted, ?_⟩
    · rw [if_pos hlink, hadd, Option.bind_some]
    · rw [if_pos hlink, hin trivial, Option.bind_some]
      rfl
  · by_cases hunlink : enable = 0 ∧ wcd.txPortValue &&& bit port ≠ 0
    · obtain ⟨links, hdel, hparted, hin, -⟩ := h.delInit (.tx port)
      refine ⟨{ wcd with txPortValue := wcd.txPortValue &&& ~~~bit port, links }, 0, ?_, hparted, ?_⟩
      · rw [if_neg hlink, if_pos hunlink, hdel, Option.bind_some]
      · rw [if_neg hlink, if_pos hunlink, hin trivial, Option.bind_some]
        rfl
    · refine ⟨wcd, 0, by rw [if_neg hlink, if_neg hunlink], h, ?_⟩
      rw [if_neg hlink, if_neg hunlink]

theorem reinit_capture {ns : List Node} (hlinks : wcd'.links = initLists wcd.links ns)
    (htx : wcd'.txPortValue = wcd.txPortValue)
    (hns : ∀ n ∈ ns, n.OnCapture → Unlinked wcd.capture.links n) : wcd'.capture = wcd.capture := by
  unfold Codec.capture
  rw [hlinks, htx, initLists, part_init hns]

end

/-- The capture side has its lists, and a port is on one of them while its switch is on: on that of
the switch's mixer. -/
structure Agreed (widget : Fin 10 → CapMixer) (c : Card) (L : Dai → List Node) : Prop where
  parted : Parted c.wcd.links Node.OnCapture
  routed : Routed c.wcd.capture L
  tx : ∀ n d, .tx (txPort n) ∈ L d ↔ d = (widget n).dai ∧ c.connect n ≠ 0

section
variable {widget : Fin 10 → CapMixer} {c c' : Card} {L L' : Dai → List Node}

theorem Agreed.reads_iff (h : Agreed widget c L) (k : CapMixer) (xs : List Node) :
    Reads c.wcd.links (.dai k.dai) xs ↔ xs = L k.dai := by
  have hcapture : (Node.dai k.dai).OnCapture := k.dai_isCapture
  have hpart := h.parted.reads_part hcapture xs
  exact hpart.symm.trans (h.routed.linked.reads_iff k.dai)

theorem Agreed.holds_iff (h : Agreed widget c L) (k : CapMixer) (n : Fin 10) :
    Holds c.wcd k.dai (txPort n) ↔ k = widget n ∧ c.connect n ≠ 0 := by
  unfold Holds
  simp only [h.reads_iff, exists_eq_left, h.tx, CapMixer.dai_inj]

theorem Agreed.agrees (h : Agreed widget c L) (n : Fin 10) : c.Agrees n := by
  intro k
  simp only [h.holds_iff]
  by_cases hk : k = widget n
  · rw [hk, and_iff_right rfl]
    exact iff_self_and.mpr fun _ j hj hx => hj hx.1
  · exact iff_of_false (fun hx => hk hx.1) fun hx => hx.2 (widget n) (Ne.symm hk) ⟨rfl, hx.1⟩

theorem Agreed.txSet_iff (h : Agreed widget c L) (n : Fin 10) :
    TxSet c.wcd.capture (txPort n) ↔ c.connect n ≠ 0 := by
  rw [h.routed.txSet_iff]
  simp only [h.tx, CapMixer.dai_inj, exists_eq_left]

theorem Agreed.switched (h : Agreed widget c L) {n : Fin 10} {enable : ℤ} {wcd' : Codec}
    (hw : Written c.wcd.capture L (.txSwitch (widget n) n enable) wcd'.capture L') (m : Fin 10) (d : Dai) :
    .tx (txPort m) ∈ L' d ↔ d = (widget m).dai ∧ Function.update c.connect n enable m ≠ 0 := by
  by_cases hoff : enable = 0
  · rw [SwitchWritten.off hw hoff, h.tx]
    by_cases hm : m = n
    · rw [hm, Function.update_self]
      exact iff_of_false (fun hx => hx.2 rfl) fun hx => hx.2 hoff
    · rw [Function.update_of_ne hm, and_iff_left (mt txPort_inj.mp hm)]
  · rw [SwitchWritten.on hw hoff, h.txSet_iff, txPort_inj, h.tx]
    by_cases hm : m = n
    · rw [hm, Function.update_self, and_iff_left hoff, and_iff_right rfl]
      by_cases hset : c.connect n ≠ 0
      · rw [and_iff_left hset, or_iff_left fun hx => hx.1 hset]
      · rw [and_iff_right hset, or_iff_right fun hx => hset hx.2]
    · rw [Function.update_of_ne hm, or_iff_left fun hx => hm hx.2.1]

/-- Writing a switch keeps the agreement and the lists of the other interfaces. -/
theorem Agreed.txSwitch (h : Agreed widget c L) (n : Fin 10) (enable : ℤ) :
    ∃ c' L', c.act widget (.set (.txSwitch n enable)) = some c' ∧ Agreed widget c' L' ∧
      ∀ j : CapMixer, j ≠ widget n → L' j.dai = L j.dai := by
  obtain ⟨wcd', ret, hput, hparted, hcapture⟩ := slimTxMixerPut_capture h.parted (widget n) (txPort n) enable
  obtain ⟨side, L', hside, hw⟩ := h.routed.put (.txSwitch (widget n) n enable)
  rw [put, hcapture, Option.map_some, Option.some.injEq] at hside
  rw [← hside] at hw
  refine ⟨⟨wcd', Function.update c.connect n enable⟩, L', ?_, ⟨hparted, hw.routed, ?_⟩, fun j hj => ?_⟩
  · rw [Card.act, CardAct.act, Wcd9320.act, Setting.write, put, hput]
    rfl
  · exact h.switched hw
  · refine SwitchWritten.other hw j.dai (mt CapMixer.dai_inj.mp hj) fun _ hmem => hj ?_
    exact CapMixer.dai_inj.mp ((h.tx n j.dai).mp hmem).1

theorem Agreed.rxMux (h : Agreed widget c L) (n : Fin 7) (item : ℕ) :
    ∃ c', c.act widget (.set (.rxMux n item)) = some c' ∧ Agreed widget c' L := by
  obtain ⟨wcd', ret, hput, hparted, hcapture⟩ := slimRxMuxPut_capture h.parted (rxPort n) item
  refine ⟨⟨wcd', c.connect⟩, ?_, hparted, ?_, h.tx⟩
  · rw [Card.act, CardAct.act, Wcd9320.act, Setting.write, put, hput]
    rfl
  · rw [hcapture]
    exact h.routed

theorem Agreed.unlinked_tx (h : Agreed widget c L) {p : TxPort} (hp : ¬ TxSet c.wcd p) :
    Unlinked c.wcd.capture.links (.tx p) := h.routed.linked.unlinked (h.routed.loose_tx hp)

theorem Agreed.empty (h : Agreed widget c L) (hfree : ∀ p, ¬ TxSet c.wcd p) (d : Dai) : L d = [] := by
  have hside : Routed c.wcd.capture.withTemplates L := h.routed
  exact hside.empty ⟨fun _ _ => rfl, fun p _ => hfree p⟩ d

theorem Agreed.of_capture (h : Agreed widget c L) {wcd : Codec} {connect : Fin 10 → ℤ}
    (hparted : Parted wcd.links Node.OnCapture) (hcapture : wcd.capture = c.wcd.capture)
    (hconnect : ∀ n, connect n ≠ 0 ↔ c.connect n ≠ 0) : Agreed widget ⟨wcd, connect⟩ L := by
  refine ⟨hparted, ?_, fun n d => ?_⟩
  · rw [hcapture]
    exact h.routed
  · rw [h.tx, hconnect]

theorem Agreed.reinit (h : Agreed widget c L) {wcd : Codec} {rxNum txNum : ℕ}
    (hlinks : wcd.links = initLists c.wcd.links (ports rxNum txNum)) (htx : wcd.txPortValue = c.wcd.txPortValue)
    (hfree : ∀ p : TxPort, p.val < txNum → ¬ TxSet c.wcd p) : Agreed widget ⟨wcd, c.connect⟩ L := by
  refine h.of_capture ?_ (reinit_capture hlinks htx fun n hn hside => ?_) fun _ => Iff.rfl
  · rw [hlinks]
    exact h.parted.init _
  · cases n with
    | dai d => exact absurd hn (dai_notMem_ports _ _ d)
    | rx p => exact absurd hside id
    | tx p => exact h.unlinked_tx (hfree p (tx_mem_ports.mp hn))

theorem Agreed.reheads (h : Agreed widget c L) (hfree : ∀ p, ¬ TxSet c.wcd p) :
    Agreed widget ⟨wcd9320CodecProbe c.wcd, fun _ => 0⟩ L := by
  refine h.of_capture (h.parted.init _) (reinit_capture rfl rfl fun n hn _ => ?_) fun n => ?_
  · obtain ⟨d, -, rfl⟩ := List.mem_map.mp hn
    exact h.routed.linked.unlinked_head (h.empty hfree d)
  · exact iff_of_false (fun hne => hne rfl) fun hon => hfree _ ((h.txSet_iff n).mpr hon)

theorem Agreed.act (h : Agreed widget c L) {a : CardAct} (hspares : SparesCapture (some c) a) :
    ∃ c' L', c.act widget a = some c' ∧ Agreed widget c' L' := by
  cases a with
  | set s =>
      cases s with
      | rxMux n item =>
          obtain ⟨c', hact, hagreed⟩ := h.rxMux n item
          exact ⟨c', L, hact, hagreed⟩
      | txSwitch n enable =>
          obtain ⟨c', L', hact, hagreed, -⟩ := h.txSwitch n enable
          exact ⟨c', L', hact, hagreed⟩
  | setChannelMap txNum txSlot rxNum rxSlot =>
      cases txSlot with
      | none => exact ⟨_, L, rfl, h⟩
      | some txSlot =>
          cases rxSlot with
          | none => exact ⟨_, L, rfl, h⟩
          | some rxSlot =>
              exact ⟨_, L, rfl, h.reinit (setChannelMap_links c.wcd txSlot rxSlot) rfl (hspares rfl rfl c rfl)⟩
  | componentProbe clshCtrl =>
      rw [Card.act, CardAct.act, Wcd9320.act, componentProbe, CardAct.connect]
      by_cases hclsh : clshCtrl = 0
      · rw [if_neg (not_not.mpr hclsh), if_pos hclsh]
        exact ⟨_, L, rfl, h.reheads (hspares hclsh c rfl)⟩
      · rw [if_pos hclsh, if_neg hclsh]
        exact ⟨c, L, rfl, h⟩
  | slimStatus env =>
      rw [Card.act, CardAct.act, Wcd9320.act]
      by_cases henv : env.Probes
      · rw [slimStatus_probes henv]
        exact ⟨_, L, rfl, h.reinit (wcd9320Probe_links c.wcd) rfl fun p _ => hspares henv c rfl p⟩
      · rw [slimStatus_fails henv]
        exact ⟨_, L, rfl, h⟩

theorem Agreed.apart (h : Agreed widget c L) (a : CardAct) : Apart widget (some c) a := by
  cases a with
  | set s =>
      cases s with
      | rxMux n item => trivial
      | txSwitch n enable =>
          obtain ⟨c', L', hact, hagreed, hother⟩ := h.txSwitch n enable
          refine ⟨c, c', rfl, hact, fun j hj xs => ?_, hagreed.agrees n⟩
          rw [hagreed.reads_iff, h.reads_iff, hother j hj]
  | _ => trivial

end

theorem registered_agreed (widget : Fin 10 → CapMixer) : Agreed widget Card.registered fun _ => [] := by
  have hparted : Parted registered.links Node.OnCapture :=
    ⟨fun x => ⟨x, (probed_links x).1, Iff.rfl⟩, fun x => ⟨x, (probed_links x).2, Iff.rfl⟩⟩
  have hcapture : registered.capture = registered := by
    have hlinks : registered.links.part Node.OnCapture = registered.links := part_unlinked probed_links
    unfold Codec.capture
    rw [hlinks]
    rfl
  refine ⟨hparted, ?_, fun n d => iff_of_false List.not_mem_nil fun h => h.2 rfl⟩
  rw [show Card.registered.wcd.capture = registered from hcapture]
  exact probed_routed

/-- In every run in which no TX port that is set is initialised again, each write of a switch leaves the
other capture interfaces alone and its port where the switch says. -/
theorem captures_apart (widget : Fin 10 → CapMixer) {acts : List CardAct}
    (h : Always (Card.step widget) SparesCapture (some Card.registered) acts) :
    Always (Card.step widget) (Apart widget) (some Card.registered) acts := by
  refine always_of_invariant (I := fun c => ∃ c₀ L, c = some c₀ ∧ Agreed widget c₀ L) ?_ ?_
    ⟨_, _, rfl, registered_agreed widget⟩ h
  · rintro c a ⟨c₀, L, rfl, hagreed⟩ hspares
    obtain ⟨c', L', hact, hagreed'⟩ := hagreed.act hspares
    exact ⟨c', L', hact, hagreed'⟩
  · rintro c a ⟨c₀, L, rfl, hagreed⟩ -
    exact hagreed.apart a

/-- Two ports are recorded and one is given up, the card is bound again with a mux routed once neither is
set, and the first port is recorded once more. -/
theorem captures_apart_rebound :
    Always (Card.step fun _ => .aif1Cap) (Apart fun _ => .aif1Cap) (some Card.registered)
      [.set (.rxMux 0 1), .set (.txSwitch 0 1), .set (.txSwitch 6 1), .set (.txSwitch 0 0), .set (.txSwitch 6 0),
        .componentProbe 0, .set (.txSwitch 0 1)] := by
  apply captures_apart
  refine ⟨trivial, trivial, trivial, trivial, trivial, fun _ c hc p => ?_, trivial, trivial⟩
  have hclear : c.wcd.txPortValue = 0 := by
    cases hc
    rfl
  simp [TxSet, hclear]

/-- The card is bound again while the first port is recorded; the port is written on once more and is on
no list. -/
theorem rebound_card_records_nothing :
    ¬ ∀ (widget : Fin 10 → CapMixer) (acts : List CardAct),
      Always (Card.step widget) (Apart widget) (some Card.registered) acts := by
  intro h
  obtain ⟨-, -, ⟨c, c', hc, hact, -, hagrees⟩, -⟩ :=
    h (fun _ => .aif1Cap) [.set (.txSwitch 0 1), .componentProbe 0, .set (.txSwitch 0 1)]
  have hfree : ∀ k : CapMixer, ¬ Holds c'.wcd k.dai (txPort 0) := by
    rintro k ⟨xs, hxs, hmem⟩
    have hread : ((Card.step (fun _ => .aif1Cap) (Card.step (fun _ => .aif1Cap) (some Card.registered)
        (.set (.txSwitch 0 1))) (.componentProbe 0)).bind fun c =>
          (c.act (fun _ => .aif1Cap) (.set (.txSwitch 0 1))).bind fun c' =>
            listForEachEntry c'.wcd.links (.dai k.dai) collect WALK []) = some [] := by
      cases k <;> decide
    rw [hc, Option.bind_some, hact, Option.bind_some] at hread
    rw [hxs.unique ⟨_, hread⟩] at hmem
    exact List.not_mem_nil hmem
  have hon : c'.connect 0 = 1 := by
    obtain ⟨wcd, -, rfl⟩ := Option.map_eq_some_iff.mp hact
    rfl
  exact hfree .aif1Cap ((hagrees .aif1Cap).mpr ⟨by rw [hon]; decide, fun j _ => hfree j⟩)

end Sirius.Wcd9320
