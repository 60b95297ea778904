import Sirius.Lib.Runs
import Sirius.Wcd9320.ChannelLists

/-!
# The SLIM controls of the card

A mux for each of seven RX ports and a switch for each of ten TX ports. The three capture mixers
share the switches: `aif_cap_mixer` is one array, so a switch of the card has one widget that its
put function is called with. Any value is written: the put functions are what looks at it.
-/
namespace Sirius.Wcd9320
open ListHead

/-- The mixer widgets that have the controls of `aif_cap_mixer`. -/
inductive CapMixer
  | aif1Cap
  | aif2Cap
  | aif3Cap
  deriving DecidableEq, Repr

/-- `shift` of the widget. -/
def CapMixer.dai : CapMixer → Dai
  | .aif1Cap => .aif1Cap
  | .aif2Cap => .aif2Cap
  | .aif3Cap => .aif3Cap

/-- "SLIM RXn MUX" and "SLIM TXn", counted from zero. -/
inductive Control
  | rxMux (n : Fin 7)
  | txSwitch (n : Fin 10)
  deriving DecidableEq, Repr

/-- A value for a control: an item for a mux, an integer for a switch. -/
inductive Setting
  | rxMux (n : Fin 7) (item : ℕ)
  | txSwitch (n : Fin 10) (enable : ℤ)
  deriving DecidableEq, Repr

/-- A call of a put function, for a switch with the mixer of the widget. -/
inductive Write
  | rxMux (n : Fin 7) (item : ℕ)
  | txSwitch (mixer : CapMixer) (n : Fin 10) (enable : ℤ)
  deriving DecidableEq, Repr

/-- The call a setting makes; `snd_soc_dapm_kcontrol_widget` gives a switch the first of the widgets
that share it. -/
def Setting.write (widget : Fin 10 → CapMixer) : Setting → Write
  | .rxMux n item => .rxMux n item
  | .txSwitch n enable => .txSwitch (widget n) n enable

/-- `WCD9320_RX1` and on, the shifts of the mux widgets. -/
def rxPort (n : Fin 7) : RxPort := n.castLE (by decide)

/-- `WCD9320_TX1` and on, the shifts of the switches. -/
def txPort (n : Fin 10) : TxPort := n.castLE (by decide)

def slimRxMuxGet (wcd : Codec) (port : RxPort) : ℕ := wcd.rxPortValue port

/-- Reports this port's own bit, not the whole set. -/
def slimTxMixerGet (wcd : Codec) (port : TxPort) : ℤ := if wcd.txPortValue &&& bit port ≠ 0 then 1 else 0

/-- The codec after a write, if it does not fault; a refused item has been stored all the same. -/
def put (wcd : Codec) : Write → Option Codec
  | .rxMux n item => (slimRxMuxPut wcd (rxPort n) item).map Prod.fst
  | .txSwitch mixer n enable => (slimTxMixerPut wcd mixer.dai (txPort n) enable).map Prod.fst

def putAll (wcd : Codec) (ws : List Write) : Option Codec := ws.foldlM put wcd

/-- The codec as its first registration leaves it. -/
def registered : Codec := wcd9320CodecProbe (wcd9320Probe codecAlloc)

theorem rxPort_inj {m n : Fin 7} : rxPort m = rxPort n ↔ m = n := Fin.castLE_inj

theorem txPort_inj {m n : Fin 10} : txPort m = txPort n ↔ m = n := Fin.castLE_inj

theorem CapMixer.dai_inj {j k : CapMixer} : j.dai = k.dai ↔ j = k := by
  cases j <;> cases k <;> decide

theorem CapMixer.dai_isCapture (k : CapMixer) : k.dai.IsCapture := by
  cases k <;> trivial

/-- Every capture interface has its mixer. -/
theorem Dai.IsCapture.mixer {d : Dai} (h : d.IsCapture) : ∃ k : CapMixer, d = k.dai := by
  cases d with
  | aif1Cap => exact ⟨.aif1Cap, rfl⟩
  | aif2Cap => exact ⟨.aif2Cap, rfl⟩
  | aif3Cap => exact ⟨.aif3Cap, rfl⟩
  | _ => exact absurd h id

def Written (wcd : Codec) (L : Dai → List Node) : Write → Codec → (Dai → List Node) → Prop
  | .rxMux n item => MuxWritten wcd L (rxPort n) item
  | .txSwitch mixer n enable => SwitchWritten wcd L mixer.dai (txPort n) enable

section
variable {wcd wcd' : Codec} {L L' : Dai → List Node}

theorem Routed.put (h : Routed wcd L) (w : Write) :
    ∃ wcd' L', put wcd w = some wcd' ∧ Written wcd L w wcd' L' := by
  cases w with
  | rxMux n item =>
      obtain ⟨wcd', L', ret, hput, -, hwritten⟩ := h.rxMux (rxPort n) item
      refine ⟨wcd', L', ?_, hwritten⟩
      rw [Wcd9320.put, hput]
      rfl
  | txSwitch mixer n enable =>
      obtain ⟨wcd', L', hput, hwritten⟩ := h.txMixer mixer.dai_isCapture (txPort n) enable
      refine ⟨wcd', L', ?_, hwritten⟩
      rw [Wcd9320.put, hput]
      rfl

theorem Written.routed {w : Write} (h : Written wcd L w wcd' L') : Routed wcd' L' := by
  cases w with
  | rxMux n item => exact MuxWritten.routed h
  | txSwitch mixer n enable => exact SwitchWritten.routed h

/-- A switch that is on shows in the lists, and only there. -/
theorem Routed.txSet_iff (h : Routed wcd L) (p : TxPort) : TxSet wcd p ↔ ∃ k : CapMixer, .tx p ∈ L k.dai := by
  constructor
  · intro hset
    obtain ⟨d, hd⟩ := h.txLinked p hset
    obtain ⟨k, rfl⟩ := (h.tx p d hd).1.mixer
    exact ⟨k, hd⟩
  · rintro ⟨k, hk⟩
    exact (h.tx p _ hk).2

/-- A port is on one list at most. -/
theorem Routed.one_list (h : Routed wcd L) {x : Node} {d e : Dai} (hd : x ∈ L d) (he : x ∈ L e) : d = e :=
  h.linked.apart (List.mem_cons_of_mem _ hd) (List.mem_cons_of_mem _ he)

/-- No mux and no switch reaches the ports beyond the seventh and the tenth. -/
structure InReach (wcd : Codec) (L : Dai → List Node) : Prop where
  rx : ∀ p, (∀ n, p ≠ rxPort n) → wcd.rxPortValue p = 0
  tx : ∀ p d, .tx p ∈ L d → ∃ n, p = txPort n

theorem InReach.put (h : InReach wcd L) {w : Write} (hw : Written wcd L w wcd' L') : InReach wcd' L' := by
  cases w with
  | rxMux n item =>
      refine ⟨fun p hp => ?_, fun p d hmem => h.tx p d ((MuxWritten.tx hw p d).mp hmem)⟩
      rw [MuxWritten.rxPortValue hw, Function.update_of_ne (hp n)]
      exact h.rx p hp
  | txSwitch mixer n enable =>
      refine ⟨fun p hp => SwitchWritten.rxPortValue hw ▸ h.rx p hp, fun p d hmem => ?_⟩
      by_cases hoff : enable = 0
      · exact h.tx p d ((SwitchWritten.off hw hoff p d).mp hmem).1
      · rcases (SwitchWritten.on hw hoff p d).mp hmem with hmem | ⟨-, rfl, -⟩
        · exact h.tx p d hmem
        · exact ⟨n, rfl⟩

theorem putAll_routed {L : Dai → List Node} (h : Routed wcd L) (hreach : InReach wcd L) (ws : List Write) :
    ∃ wcd' L', putAll wcd ws = some wcd' ∧ Routed wcd' L' ∧ InReach wcd' L' := by
  induction ws generalizing wcd L with
  | nil => exact ⟨wcd, L, rfl, h, hreach⟩
  | cons w ws ih =>
      obtain ⟨wcd₁, L₁, hput, hwritten⟩ := h.put w
      obtain ⟨wcd', L', hputs, hrest⟩ := ih hwritten.routed (hreach.put hwritten)
      refine ⟨wcd', L', ?_, hrest⟩
      rw [putAll, List.foldlM_cons, hput]
      exact hputs

theorem registered_inReach : InReach registered fun _ => [] := by
  refine ⟨fun p _ => ?_, fun p d hmem => absurd hmem List.not_mem_nil⟩
  rfl

end
end Sirius.Wcd9320
