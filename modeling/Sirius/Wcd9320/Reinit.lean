import Sirius.Wcd9320.Controls

/-!
# Operations that initialise list entries again

`wcd9320_set_channel_map`, a second probe of the component and a second status report of the
SLIMbus device run `INIT_LIST_HEAD` on entries or heads that may be linked, while the values of
the controls stay. Where they hit only what is linked to nothing they change no list.
-/
namespace Sirius.Wcd9320
open ListHead Runs

/-- `wcd9320_set_channel_map`, with counts that fit the arrays; a null array is `none`. -/
def wcd9320SetChannelMap (wcd : Codec) (txNum : Fin (WCD9320_TX_MAX + 1)) (txSlot : Option (ℕ → ℕ))
    (rxNum : Fin (WCD9320_RX_MAX + 1)) (rxSlot : Option (ℕ → ℕ)) : Codec × ℤ :=
  match txSlot, rxSlot with
  | some txSlot, some rxSlot =>
      let links := initLists wcd.links (((List.finRange WCD9320_RX_MAX).filter (·.val < rxNum.val)).map .rx)
      ({ wcd with
          rxChs := fun p => if p.val < rxNum.val then { wcd.rxChs p with chNum := rxSlot p } else wcd.rxChs p
          txChs := fun p => if p.val < txNum.val then { wcd.txChs p with chNum := txSlot p } else wcd.txChs p
          links := initLists links (((List.finRange WCD9320_TX_MAX).filter (·.val < txNum.val)).map .tx) }, 0)
  | _, _ => (wcd, -EINVAL)

/-- `wcd9320_codec_probe`, with the error of `wcd_clsh_ctrl_alloc` or zero. -/
def componentProbe (wcd : Codec) (clshCtrl : ℤ) : Codec × ℤ :=
  if clshCtrl ≠ 0 then (wcd, clshCtrl) else (wcd9320CodecProbe wcd, 0)

/-- What `wcd9320_slim_status` finds out on its way: which device reports, whether the interface device
is described and there, and the error or zero of each call. -/
structure StatusEnv where
  interfaceDevice : Bool
  ifcDevNp : Bool
  slimIfcDev : Bool
  regmap : ℤ
  logicalAddr : ℤ
  ifRegmap : ℤ
  bringUp : ℤ
  irqInit : ℤ

def wcd9320SlimStatus (wcd : Codec) (env : StatusEnv) : Codec × ℤ :=
  if env.interfaceDevice then (wcd, 0)
  else if ¬ env.ifcDevNp then (wcd, -EINVAL)
  else if ¬ env.slimIfcDev then (wcd, -EINVAL)
  else if env.regmap ≠ 0 then (wcd, env.regmap)
  else if env.logicalAddr ≠ 0 then (wcd, env.logicalAddr)
  else if env.ifRegmap ≠ 0 then (wcd, env.ifRegmap)
  else if env.bringUp ≠ 0 then (wcd, env.bringUp)
  else if env.irqInit ≠ 0 then (wcd, env.irqInit)
  else (wcd9320Probe wcd, 0)

/-- What happens to a registered codec. -/
inductive Act
  | write (w : Write)
  | setChannelMap (txNum : Fin (WCD9320_TX_MAX + 1)) (txSlot : Option (ℕ → ℕ))
      (rxNum : Fin (WCD9320_RX_MAX + 1)) (rxSlot : Option (ℕ → ℕ))
  | componentProbe (clshCtrl : ℤ)
  | slimStatus (env : StatusEnv)

def act (wcd : Codec) : Act → Option Codec
  | .write w => put wcd w
  | .setChannelMap txNum txSlot rxNum rxSlot => (wcd9320SetChannelMap wcd txNum txSlot rxNum rxSlot).1
  | .componentProbe clshCtrl => (componentProbe wcd clshCtrl).1
  | .slimStatus env => (wcd9320SlimStatus wcd env).1

/-- A run; `none` is a fault. -/
def step (wcd : Option Codec) (a : Act) : Option Codec := wcd.bind fun wcd => act wcd a

/-- Each list is read to its end, without repetition, and holds exactly the ports that the values of
the controls name: an RX port on the interface of its item, a TX port that is set on one capture
interface. -/
structure Named (wcd : Codec) (L : Dai → List Node) : Prop where
  reads : ∀ d, Reads wcd.links (.dai d) (L d)
  nodup : ∀ d, (L d).Nodup
  head : ∀ d e, .dai e ∉ L d
  rx : ∀ p d, .rx p ∈ L d ↔ muxDai (wcd.rxPortValue p) = some d
  tx : ∀ p, TxSet wcd p ↔ ∃! d, .tx p ∈ L d
  capture : ∀ p d, .tx p ∈ L d → d.IsCapture

/-- After the action the codec has lists that its values name. -/
def StaysNamed (wcd : Option Codec) (a : Act) : Prop := ∃ wcd' L, step wcd a = some wcd' ∧ Named wcd' L

/-- No value names an RX port below the first count or a TX port below the second. -/
def Free (wcd : Codec) (rxNum txNum : ℕ) : Prop :=
  (∀ p : RxPort, p.val < rxNum → muxDai (wcd.rxPortValue p) = none) ∧ ∀ p : TxPort, p.val < txNum → ¬ TxSet wcd p

/-- The calls before `wcd9320_probe` succeed. -/
def StatusEnv.Probes (env : StatusEnv) : Prop :=
  env.interfaceDevice = false ∧ env.ifcDevNp = true ∧ env.slimIfcDev = true ∧ env.regmap = 0 ∧
    env.logicalAddr = 0 ∧ env.ifRegmap = 0 ∧ env.bringUp = 0 ∧ env.irqInit = 0

/-- What is initialised again belongs to no port that a value names. -/
def HitsFree (wcd : Option Codec) : Act → Prop
  | .write _ => True
  | .setChannelMap txNum txSlot rxNum rxSlot =>
      txSlot.isSome → rxSlot.isSome → ∀ w ∈ wcd, Free w rxNum txNum
  | .componentProbe clshCtrl => clshCtrl = 0 → ∀ w ∈ wcd, Free w WCD9320_RX_MAX WCD9320_TX_MAX
  | .slimStatus env => env.Probes → ∀ w ∈ wcd, Free w WCD9320_RX_MAX WCD9320_TX_MAX

/-- The codec with the channels of the templates, whatever a channel map has made of them. -/
def Codec.withTemplates (wcd : Codec) : Codec :=
  { wcd with rxChs := fun p => slimRxCh p, txChs := fun p => slimTxCh p }

theorem slimRxMuxPut_withTemplates (wcd : Codec) (port : RxPort) (item : ℕ) :
    slimRxMuxPut wcd.withTemplates port item =
      (slimRxMuxPut wcd port item).map fun r => (r.1.withTemplates, r.2) := by
  unfold slimRxMuxPut Codec.withTemplates
  dsimp only
  split_ifs
  · rfl
  · cases listDelInit wcd.links (.rx port) with
    | none => rfl
    | some links =>
        match item with
        | 0 => rfl
        | 1 => cases h : listAddTail links (.rx port) (.dai .aif1Pb) <;> simp [h]
        | 2 => cases h : listAddTail links (.rx port) (.dai .aif2Pb) <;> simp [h]
        | 3 => cases h : listAddTail links (.rx port) (.dai .aif3Pb) <;> simp [h]
        | item + 4 => rfl

theorem slimTxMixerPut_withTemplates (wcd : Codec) (dai : Dai) (port : TxPort) (enable : ℤ) :
    slimTxMixerPut wcd.withTemplates dai port enable =
      (slimTxMixerPut wcd dai port enable).map fun r => (r.1.withTemplates, r.2) := by
  unfold slimTxMixerPut Codec.withTemplates
  cases dai <;> dsimp only
  all_goals first
    | rfl
    | split_ifs
      · cases listAddTail wcd.links (.tx port) _ <;> rfl
      · cases listDelInit wcd.links (.tx port) <;> rfl
      · rfl

theorem put_withTemplates (wcd : Codec) (w : Write) :
    put wcd.withTemplates w = (put wcd w).map Codec.withTemplates := by
  cases w with
  | rxMux n item =>
      rw [put, put, slimRxMuxPut_withTemplates, Option.map_map, Option.map_map]
      rfl
  | txSwitch mixer n enable =>
      rw [put, put, slimTxMixerPut_withTemplates, Option.map_map, Option.map_map]
      rfl

/-- The ports below two counts. -/
def ports (rxNum txNum : ℕ) : List Node :=
  ((List.finRange WCD9320_RX_MAX).filter (·.val < rxNum)).map .rx ++
    ((List.finRange WCD9320_TX_MAX).filter (·.val < txNum)).map .tx

theorem rx_mem_ports {rxNum txNum : ℕ} {p : RxPort} : .rx p ∈ ports rxNum txNum ↔ p.val < rxNum := by
  simp [ports, -WCD9320_RX_MAX, -WCD9320_TX_MAX]

theorem tx_mem_ports {rxNum txNum : ℕ} {p : TxPort} : .tx p ∈ ports rxNum txNum ↔ p.val < txNum := by
  simp [ports, -WCD9320_RX_MAX, -WCD9320_TX_MAX]

theorem dai_notMem_ports (rxNum txNum : ℕ) (d : Dai) : .dai d ∉ ports rxNum txNum := by
  simp [ports, -WCD9320_RX_MAX, -WCD9320_TX_MAX]

theorem initLists_append (links : Links Node) (ms ns : List Node) :
    initLists (initLists links ms) ns = initLists links (ms ++ ns) := List.foldl_append.symm

theorem wcd9320Probe_links (wcd : Codec) :
    (wcd9320Probe wcd).links = initLists wcd.links (ports WCD9320_RX_MAX WCD9320_TX_MAX) := by
  have hports : ports WCD9320_RX_MAX WCD9320_TX_MAX =
      (List.finRange WCD9320_RX_MAX).map .rx ++ (List.finRange WCD9320_TX_MAX).map .tx := by
    simp [ports]
  have hlinks : (wcd9320Probe wcd).links =
      initLists (copyTemplates wcd).links (ports WCD9320_RX_MAX WCD9320_TX_MAX) := by
    rw [hports, ← initLists_append]
    rfl
  rw [hlinks]
  have hnext : ∀ x, (initLists (copyTemplates wcd).links (ports WCD9320_RX_MAX WCD9320_TX_MAX)).next x =
        (initLists wcd.links (ports WCD9320_RX_MAX WCD9320_TX_MAX)).next x ∧
      (initLists (copyTemplates wcd).links (ports WCD9320_RX_MAX WCD9320_TX_MAX)).prev x =
        (initLists wcd.links (ports WCD9320_RX_MAX WCD9320_TX_MAX)).prev x := by
    intro x
    simp only [initLists, foldl_initListHead]
    cases x with
    | dai d => exact ⟨rfl, rfl⟩
    | rx p => simp only [rx_mem_ports.mpr p.isLt, if_true, and_self]
    | tx p => simp only [tx_mem_ports.mpr p.isLt, if_true, and_self]
  exact congrArg₂ Links.mk (funext fun x => (hnext x).1) (funext fun x => (hnext x).2)

section
variable {wcd wcd' : Codec} {L L' : Dai → List Node}

theorem Routed.named (h : Routed wcd.withTemplates L) : Named wcd L := by
  constructor
  case reads => exact fun d => (h.linked.reads_iff d).mpr rfl
  case nodup => exact fun d => (List.nodup_cons.mp (h.linked.nodup d)).2
  case head => exact h.no_head
  case rx => exact h.rx
  case tx =>
    intro p
    constructor
    · intro hset
      obtain ⟨d, hd⟩ := h.txLinked p hset
      exact ⟨d, hd, fun e he => h.one_list he hd⟩
    · rintro ⟨d, hd, -⟩
      exact (h.tx p d hd).2
  case capture => exact fun p d hd => (h.tx p d hd).1

/-- Lists that are all empty name nothing. -/
theorem Named.free (h : Named wcd L) (hempty : ∀ d, L d = []) (rxNum txNum : ℕ) : Free wcd rxNum txNum := by
  constructor
  · intro p _
    by_contra hnamed
    obtain ⟨d, hd⟩ := Option.ne_none_iff_exists'.mp hnamed
    have hmem := (h.rx p d).mpr hd
    rw [hempty] at hmem
    exact List.not_mem_nil hmem
  · intro p _ hset
    obtain ⟨d, hd, -⟩ := (h.tx p).mp hset
    rw [hempty] at hd
    exact List.not_mem_nil hd

/-- Where nothing is named the lists are empty. -/
theorem Routed.empty (h : Routed wcd.withTemplates L) (hfree : Free wcd WCD9320_RX_MAX WCD9320_TX_MAX) (d : Dai) :
    L d = [] := by
  apply List.eq_nil_iff_forall_not_mem.mpr
  intro x hx
  cases x with
  | dai e => exact h.no_head d e hx
  | rx p => exact nomatch (hfree.1 p p.isLt).symm.trans ((h.rx p d).mp hx)
  | tx p => exact hfree.2 p p.isLt (h.tx p d hx).2

/-- Ports that nothing names are linked to nothing, so initialising them changes no link. -/
theorem Routed.reinit_free (h : Routed wcd.withTemplates L) {rxNum txNum : ℕ} (hfree : Free wcd rxNum txNum) :
    initLists wcd.links (ports rxNum txNum) = wcd.links := by
  apply reinit_unlinked
  intro n hn
  apply h.linked.unlinked
  cases n with
  | dai d => exact absurd hn (dai_notMem_ports _ _ d)
  | rx p => exact h.loose_rx (hfree.1 p (rx_mem_ports.mp hn))
  | tx p => exact h.loose_tx (hfree.2 p (tx_mem_ports.mp hn))

/-- Initialising a port that is named spoils the list it is on. -/
theorem Routed.free_of_reinit (h : Routed wcd.withTemplates L) {rxNum txNum : ℕ}
    (hlinks : wcd'.links = initLists wcd.links (ports rxNum txNum)) (hnamed : Named wcd' L') :
    Free wcd rxNum txNum := by
  have hspoilt : ∀ {n : Node} {d : Dai}, n ∈ ports rxNum txNum → n ∉ L d := by
    intro n d hn hd
    have hreads := hnamed.reads d
    rw [hlinks] at hreads
    exact h.linked.not_reads_reinit (dai_notMem_ports _ _ d) hd hn _ hreads
  constructor
  · intro p hp
    by_contra hitem
    obtain ⟨d, hd⟩ := Option.ne_none_iff_exists'.mp hitem
    exact hspoilt (rx_mem_ports.mpr hp) ((h.rx p d).mpr hd)
  · intro p hp hset
    obtain ⟨d, hd⟩ := h.txLinked p hset
    exact hspoilt (tx_mem_ports.mpr hp) hd

theorem Routed.reheads (h : Routed wcd.withTemplates L) (hfree : Free wcd WCD9320_RX_MAX WCD9320_TX_MAX) :
    wcd9320CodecProbe wcd = wcd := by
  have hlinks : initLists wcd.links (dais.map .dai) = wcd.links := by
    apply reinit_unlinked
    intro n hn
    obtain ⟨d, -, rfl⟩ := List.mem_map.mp hn
    exact h.linked.unlinked_head (h.empty hfree d)
  rw [wcd9320CodecProbe, hlinks]

theorem free_of_reheads (hnamed : Named (wcd9320CodecProbe wcd) L') :
    Free wcd WCD9320_RX_MAX WCD9320_TX_MAX := by
  have hall : ∀ d, Node.dai d ∈ dais.map .dai := fun d => List.mem_map_of_mem (by cases d <;> decide)
  exact hnamed.free (fun d => (hnamed.reads d).unique (reads_reinit_head (hall d))) _ _

/-- The codec has the lists its values name, whatever its channels. -/
def InOrder (wcd : Option Codec) : Prop := ∃ w L, wcd = some w ∧ Routed w.withTemplates L

theorem InOrder.named {wcd : Option Codec} (h : InOrder wcd) : ∃ w L, wcd = some w ∧ Named w L := by
  obtain ⟨w, L, rfl, hrouted⟩ := h
  exact ⟨w, L, rfl, hrouted.named⟩

theorem write_inOrder (h : Routed wcd.withTemplates L) (w : Write) : InOrder (put wcd w) := by
  obtain ⟨wcd₁, L₁, hput, hwritten⟩ := h.put w
  rw [put_withTemplates] at hput
  obtain ⟨wcd', hput', rfl⟩ := Option.map_eq_some_iff.mp hput
  exact ⟨wcd', L₁, hput', hwritten.routed⟩

theorem setChannelMap_links (wcd : Codec) {txNum : Fin (WCD9320_TX_MAX + 1)} {rxNum : Fin (WCD9320_RX_MAX + 1)}
    (txSlot rxSlot : ℕ → ℕ) :
    (wcd9320SetChannelMap wcd txNum (some txSlot) rxNum (some rxSlot)).1.links =
      initLists wcd.links (ports rxNum txNum) := initLists_append _ _ _

theorem slimStatus_probes {env : StatusEnv} (h : env.Probes) (wcd : Codec) :
    wcd9320SlimStatus wcd env = (wcd9320Probe wcd, 0) := by
  obtain ⟨hdev, hnp, hifc, hregmap, haddr, hifregmap, hup, hirq⟩ := h
  simp only [wcd9320SlimStatus, hdev, hnp, hifc, hregmap, haddr, hifregmap, hup, hirq]
  rfl

theorem slimStatus_fails {env : StatusEnv} (h : ¬ env.Probes) (wcd : Codec) : (wcd9320SlimStatus wcd env).1 = wcd := by
  unfold wcd9320SlimStatus
  split_ifs with hdev hnp hifc hregmap haddr hifregmap hup hirq
  case neg => exact absurd ⟨by simpa using hdev, by simpa using hnp, by simpa using hifc, by simpa using hregmap,
    by simpa using haddr, by simpa using hifregmap, by simpa using hup, by simpa using hirq⟩ h
  all_goals rfl

/-- The values survive a reinitialisation, so the lists do exactly where it hit nothing that is named. -/
theorem Routed.reinit_inOrder (h : Routed wcd.withTemplates L) {rxNum txNum : ℕ}
    (hlinks : wcd'.links = initLists wcd.links (ports rxNum txNum)) (hrx : wcd'.rxPortValue = wcd.rxPortValue)
    (htx : wcd'.txPortValue = wcd.txPortValue) (hfree : Free wcd rxNum txNum) : InOrder (some wcd') := by
  have hcodec : wcd'.withTemplates = wcd.withTemplates := by
    unfold Codec.withTemplates
    rw [hlinks, h.reinit_free hfree, hrx, htx]
  exact ⟨wcd', L, rfl, hcodec ▸ h⟩

theorem act_inOrder (h : Routed wcd.withTemplates L) {a : Act} (hfree : HitsFree (some wcd) a) :
    InOrder (act wcd a) := by
  cases a with
  | write w => exact write_inOrder h w
  | setChannelMap txNum txSlot rxNum rxSlot =>
      cases txSlot with
      | none => exact ⟨wcd, L, rfl, h⟩
      | some txSlot =>
          cases rxSlot with
          | none => exact ⟨wcd, L, rfl, h⟩
          | some rxSlot =>
              exact h.reinit_inOrder (setChannelMap_links wcd txSlot rxSlot) rfl rfl (hfree rfl rfl wcd rfl)
  | componentProbe clshCtrl =>
      rw [act, componentProbe]
      split_ifs with hclsh
      · exact ⟨wcd, L, rfl, h⟩
      · rw [h.reheads (hfree (not_not.mp hclsh) wcd rfl)]
        exact ⟨wcd, L, rfl, h⟩
  | slimStatus env =>
      rw [act]
      by_cases henv : env.Probes
      · rw [slimStatus_probes henv]
        exact h.reinit_inOrder (wcd9320Probe_links wcd) rfl rfl (hfree henv wcd rfl)
      · rw [slimStatus_fails henv]
        exact ⟨wcd, L, rfl, h⟩

theorem act_hitsFree (h : Routed wcd.withTemplates L) {a : Act} (hact : act wcd a = some wcd')
    (hnamed : Named wcd' L') : HitsFree (some wcd) a := by
  cases a with
  | write w => trivial
  | setChannelMap txNum txSlot rxNum rxSlot =>
      intro htx hrx w hw
      cases hw
      obtain ⟨txSlot, rfl⟩ := Option.isSome_iff_exists.mp htx
      obtain ⟨rxSlot, rfl⟩ := Option.isSome_iff_exists.mp hrx
      cases hact
      exact h.free_of_reinit (setChannelMap_links wcd txSlot rxSlot) hnamed
  | componentProbe clshCtrl =>
      intro hclsh w hw
      cases hw
      rw [act, componentProbe, if_neg (not_not.mpr hclsh), Option.some.injEq] at hact
      rw [← hact] at hnamed
      exact free_of_reheads hnamed
  | slimStatus env =>
      intro henv w hw
      cases hw
      rw [act, slimStatus_probes henv, Option.some.injEq] at hact
      rw [← hact] at hnamed
      exact h.free_of_reinit (wcd9320Probe_links wcd) hnamed

end

theorem registered_inOrder : InOrder (some registered) := ⟨registered, fun _ => [], rfl, probed_routed⟩

/-- In a run of writes, channel maps, probes and status reports the lists stay those that the values
name exactly where nothing that is named is initialised again. -/
theorem lists_stay_named_iff (acts : List Act) :
    Always step StaysNamed (some registered) acts ↔ Always step HitsFree (some registered) acts := by
  apply always_iff_of_invariant (I := InOrder)
  · rintro _ a ⟨wcd, L, rfl, h⟩ hfree
    exact act_inOrder h hfree
  · rintro _ a ⟨wcd, L, rfl, h⟩
    constructor
    · rintro ⟨wcd', L', hact, hnamed⟩
      exact act_hitsFree h hact hnamed
    · exact fun hfree => (act_inOrder h hfree).named
  · exact registered_inOrder

/-- A port is sent to the first interface, and the sound card is bound again. -/
theorem rebound_card_forgets_its_ports :
    ¬ ∀ acts : List Act, Always step StaysNamed (some registered) acts := by
  intro h
  obtain ⟨-, ⟨wcd', L', hstep, hnamed⟩, -⟩ := h [.write (.rxMux 0 1), .componentProbe 0]
  have hread : ((step (step (some registered) (.write (.rxMux 0 1))) (.componentProbe 0)).bind fun wcd =>
      listForEachEntry wcd.links (.dai .aif1Pb) collect WALK []) = some [] := by decide
  have hvalue : (step (step (some registered) (.write (.rxMux 0 1))) (.componentProbe 0)).map
      (fun wcd => wcd.rxPortValue 0) = some 1 := by decide
  rw [hstep, Option.bind_some] at hread
  rw [hstep, Option.map_some, Option.some.injEq] at hvalue
  have hmem := (hnamed.rx 0 .aif1Pb).mpr (by rw [hvalue]; rfl)
  rw [(hnamed.reads .aif1Pb).unique ⟨_, hread⟩] at hmem
  exact absurd hmem List.not_mem_nil

end Sirius.Wcd9320
