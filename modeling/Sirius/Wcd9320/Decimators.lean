import Mathlib.Data.Set.List
import Sirius.Lib.Fields
import Sirius.Wcd9320.Streams

/-!
# The capture path

Each decimator has a mux before it; ten SLIM TX muxes after them pick what each port carries, the last four of
them from any decimator; the capture mixers pick the ports of a stream. The rate is written by the number of the
port, and a bit of each decimator says whether its source is a digital microphone.
-/
namespace Sirius.Wcd9320
open Fields ListHead

/-- What the mux of a decimator selects. -/
inductive DecInput
  | zero
  | dmic (n : ℕ)
  | adc (n : ℕ)
  | adcMb
  | anc1Fb
  | anc2Fb
  deriving DecidableEq, Repr

/-- `dec1_mux_text` to `dec10_mux_text` -/
def decMuxText : Fin 10 → List DecInput
  | 0 => [.zero, .dmic 1, .adc 6]
  | 1 => [.zero, .dmic 2, .adc 5]
  | 2 => [.zero, .dmic 3, .adc 4]
  | 3 => [.zero, .dmic 4, .adc 3]
  | 4 => [.zero, .dmic 5, .adc 2]
  | 5 => [.zero, .dmic 6, .adc 1]
  | 6 => [.zero, .dmic 1, .dmic 6, .adc 1, .adc 6, .anc1Fb, .anc2Fb]
  | 7 => [.zero, .dmic 2, .dmic 5, .adc 2, .adc 5]
  | 8 => [.zero, .dmic 4, .dmic 5, .adc 2, .adc 3, .adcMb, .anc1Fb, .anc2Fb]
  | 9 => [.zero, .dmic 3, .dmic 6, .adc 1, .adc 4, .adcMb, .anc1Fb, .anc2Fb]

/-- What a SLIM TX mux selects. -/
inductive SlimTxInput
  | zero
  | rmix (n : ℕ)
  | dec (n : Fin 10)
  deriving DecidableEq, Repr

/-- `sb_tx1_mux_text` to `sb_tx6_mux_text`, and `sb_tx7_to_tx10_mux_text` -/
def sbTxMuxText (p : Fin 10) : List SlimTxInput :=
  .zero :: (List.range' 1 7).map .rmix ++ if p < 6 then [.dec p] else (List.finRange 10).map .dec

/-- `dec1_mux_enum` to `dec10_mux_enum`: the register, the shift and the items rounded up. -/
def decMuxEnum : Fin 10 → Field 8
  | 0 => ⟨WCD9320_REG 0x03 0x093, 0, 3, by decide⟩
  | 1 => ⟨WCD9320_REG 0x03 0x093, 2, 3, by decide⟩
  | 2 => ⟨WCD9320_REG 0x03 0x093, 4, 3, by decide⟩
  | 3 => ⟨WCD9320_REG 0x03 0x093, 6, 3, by decide⟩
  | 4 => ⟨WCD9320_REG 0x03 0x094, 0, 3, by decide⟩
  | 5 => ⟨WCD9320_REG 0x03 0x094, 2, 3, by decide⟩
  | 6 => ⟨WCD9320_REG 0x03 0x094, 4, 7, by decide⟩
  | 7 => ⟨WCD9320_REG 0x03 0x095, 0, 7, by decide⟩
  | 8 => ⟨WCD9320_REG 0x03 0x095, 3, 7, by decide⟩
  | 9 => ⟨WCD9320_REG 0x03 0x096, 0, 7, by decide⟩

/-- `sb_tx1_mux_enum` to `sb_tx10_mux_enum` -/
def sbTxMuxEnum (p : Fin 10) : Field 8 :=
  if p < 6 then ⟨WCD9320_REG 0x03 (0x0A3 + p), 0, 15, by decide⟩ else ⟨WCD9320_REG 0x03 (0x0A3 + p), 0, 31, by decide⟩

def WCD9320_CDC_TX1_MUX_CTL : ℕ := WCD9320_REG 0x02 0x023

theorem dmicBit_fits : ((1 : BitVec 8) <<< 0) >>> 0 = 1 := rfl

/-- The bit of a decimator for a digital microphone, in `WCD9320_CDC_TX1_MUX_CTL` to `WCD9320_CDC_TX10_MUX_CTL`. -/
def dmicBit (n : Fin 10) : Field 8 := ⟨WCD9320_REG 0x02 (0x023 + 8 * n), 0, 1, dmicBit_fits⟩

/-- The rate of a decimator, in `WCD9320_CDC_TX1_CLK_FS_CTL` to `WCD9320_CDC_TX10_CLK_FS_CTL`. -/
def rateField (n : Fin 10) : Field 8 := ⟨WCD9320_REG 0x02 (0x024 + 8 * n), 0, 7, by decide⟩

/-- The register of a mux takes an item; an item beyond the last is refused. -/
def sndSocDapmPutEnumDouble (regmap : ℕ → BitVec 8) (e : Field 8) (items item : ℕ) : ℕ → BitVec 8 :=
  if item ≥ items then regmap else maskWrite regmap (e.row (BitVec.ofNat 8 item))

/-- The names of the decimator widgets. -/
def decWidgetName : Fin 10 → List Char
  | 0 => ['D', 'E', 'C', '1', ' ', 'M', 'U', 'X']
  | 1 => ['D', 'E', 'C', '2', ' ', 'M', 'U', 'X']
  | 2 => ['D', 'E', 'C', '3', ' ', 'M', 'U', 'X']
  | 3 => ['D', 'E', 'C', '4', ' ', 'M', 'U', 'X']
  | 4 => ['D', 'E', 'C', '5', ' ', 'M', 'U', 'X']
  | 5 => ['D', 'E', 'C', '6', ' ', 'M', 'U', 'X']
  | 6 => ['D', 'E', 'C', '7', ' ', 'M', 'U', 'X']
  | 7 => ['D', 'E', 'C', '8', ' ', 'M', 'U', 'X']
  | 8 => ['D', 'E', 'C', '9', ' ', 'M', 'U', 'X']
  | 9 => ['D', 'E', 'C', '1', '0', ' ', 'M', 'U', 'X']

/-- The number in the name of the widget. -/
def decimatorOf (name : List Char) : ℕ := if name[4]? = some ' ' then (name.getD 3 '0').toNat - '0'.toNat else 10

/-- `sel` of `wcd9320_put_dec_enum` -/
def decSel (decimator val : ℕ) : Bool :=
  decide ((decimator ≤ 6 ∧ val = 1) ∨ (decimator ≥ 6 ∧ (val = 1 ∨ val = 2)))

/-- The bit is written before the item is looked at. -/
def wcd9320PutDecEnum (regmap : ℕ → BitVec 8) (n : Fin 10) (item : ℕ) : ℕ → BitVec 8 :=
  let decimator := decimatorOf (decWidgetName n)
  let sel := if decSel decimator item then 1 else 0
  let regmap := updateBits regmap (WCD9320_CDC_TX1_MUX_CTL + 8 * (decimator - 1)) 1 sel
  sndSocDapmPutEnumDouble regmap (decMuxEnum n) (decMuxText n).length item

/-- A write to a decimator mux, to a SLIM TX mux, or to one of the controls of the channel lists. -/
inductive PathWrite
  | decMux (n : Fin 10) (item : ℕ)
  | slimTxMux (p : Fin 10) (item : ℕ)
  | control (w : Write)
  deriving DecidableEq, Repr

def pathPut (dev : Device) : PathWrite → Option Device
  | .decMux n item => some { dev with regmap := wcd9320PutDecEnum dev.regmap n item }
  | .slimTxMux p item =>
      some { dev with regmap := sndSocDapmPutEnumDouble dev.regmap (sbTxMuxEnum p) (sbTxMuxText p).length item }
  | .control w => (put dev.wcd w).map fun wcd => { dev with wcd }

def pathPutAll (dev : Device) (ws : List PathWrite) : Option Device := ws.foldlM pathPut dev

/-- The rows of `wcd9320_codec_reg_init` and `wcd9320_codec_reg_init_val` for the registers of the capture path. -/
def txRegInit : List (MaskVal 8) :=
  (List.range 10).map (fun n => ⟨WCD9320_REG 0x02 (0x023 + 8 * n), 0xFF, 0x48⟩) ++
    (List.range 6).map (fun p => ⟨WCD9320_REG 0x03 (0x0A3 + p), 0x30, 0x20⟩) ++
    (List.range' 6 4).map (fun p => ⟨WCD9320_REG 0x03 (0x0A3 + p), 0x60, 0x40⟩) ++
    (List.range 10).map (fun n => ⟨WCD9320_REG 0x02 (0x023 + 8 * n), 0x08, 0x00⟩)

/-- The codec registered, over the registers as the probe finds them. -/
def captureRegistered (found : ℕ → BitVec 8) (ifRegmap : ℕ → ℕ) : Device :=
  (streamRegistered (writeAll found txRegInit) ifRegmap).dev

/-- The item is a digital microphone. -/
def isDmic (n : Fin 10) (item : ℕ) : Bool :=
  match (decMuxText n)[item]? with
  | some (.dmic _) => true
  | _ => false

def slimTxInput (regmap : ℕ → BitVec 8) (p : Fin 10) : Option SlimTxInput :=
  (sbTxMuxText p)[((sbTxMuxEnum p).get regmap).toNat]?

/-- The port is on the list of the interface. -/
def Listed (dev : Device) (d : Dai) (p : Fin 10) : Prop := ∃ ch ∈ channels dev.wcd d, ch.port = p

/-- The output of the decimator is routed to a port on the list. -/
def Carries (dev : Device) (d : Dai) (n : Fin 10) : Prop :=
  ∃ p, Listed dev d p ∧ slimTxInput dev.regmap p = some (.dec n)

/-- What the capture path should be after hw_params. -/
structure Coherent (dev : Device) (d : Dai) (rateIndex : ℕ) (dev' : Device) : Prop where
  carried : ∀ n, Carries dev d n → (rateField n).get dev'.regmap = BitVec.ofNat 8 rateIndex
  kept : ∀ n, ¬Carries dev d n → (rateField n).get dev'.regmap = (rateField n).get dev.regmap
  dmic : ∀ n, (dmicBit n).get dev'.regmap = 1 ↔ isDmic n ((decMuxEnum n).get dev'.regmap).toNat = true

/-- The item a write has for the mux of the decimator. -/
def decItem (n : Fin 10) : PathWrite → Option ℕ
  | .decMux m item => if m = n then some item else none
  | _ => none

/-- What the mux of the decimator holds after these items. -/
def decHeld (n : Fin 10) (found : BitVec 8) (items : List ℕ) : BitVec 8 :=
  ((items.filter (· < (decMuxText n).length)).getLast?.map (BitVec.ofNat 8)).getD found

/-- The last item written to the decimator was accepted, and was not ADC1 of the sixth; or the mux does not hold a
digital microphone. -/
def LastAccepted (n : Fin 10) (found : BitVec 8) (items : List ℕ) : Prop :=
  match items.getLast? with
  | none => isDmic n found.toNat = false
  | some item =>
      if item < (decMuxText n).length then ¬(n = 5 ∧ item = 2) else isDmic n (decHeld n found items).toNat = false

/-- The ports on the list and the decimators behind them have the same numbers, but for decimators that have the
rate already. -/
def RoutedByNumber (dev : Device) (d : Dai) (rateIndex : ℕ) : Prop :=
  ∀ n, (Listed dev d n ↔ Carries dev d n) ∨ (rateField n).get dev.regmap = BitVec.ofNat 8 rateIndex

theorem decimatorOf_name : ∀ n : Fin 10, decimatorOf (decWidgetName n) = n + 1 := by
  decide

/-- What the bit of the decimator gets with an item. -/
def decBit (n : Fin 10) (item : ℕ) : BitVec 8 := if decSel (n + 1) item then 1 else 0

theorem wcd9320PutDecEnum_eq (regmap : ℕ → BitVec 8) (n : Fin 10) (item : ℕ) :
    wcd9320PutDecEnum regmap n item = sndSocDapmPutEnumDouble (maskWrite regmap ((dmicBit n).row (decBit n item)))
      (decMuxEnum n) (decMuxText n).length item := by
  have hreg : ∀ n : Fin 10, WCD9320_CDC_TX1_MUX_CTL + 8 * ((n : ℕ) + 1 - 1) = (dmicBit n).reg := by
    decide
  rw [wcd9320PutDecEnum, decimatorOf_name, hreg, decBit]
  split <;> rfl

section
variable {f e : Field 8} {regmap : ℕ → BitVec 8} {items item : ℕ}

theorem get_putEnum_of_apart (h : f.Apart (e.row 0)) :
    f.get (sndSocDapmPutEnumDouble regmap e items item) = f.get regmap := by
  rw [sndSocDapmPutEnumDouble]
  split
  · rfl
  · exact Field.get_row_of_apart h _

end

theorem decMuxEnum_apart : ∀ n m : Fin 10, n ≠ m → (decMuxEnum n).Apart ((decMuxEnum m).row 0) := by
  decide

theorem dmicBit_apart : ∀ n m : Fin 10, n ≠ m → (dmicBit n).Apart ((dmicBit m).row 0) := by
  decide

theorem rateField_apart : ∀ n m : Fin 10, n ≠ m → (rateField n).Apart ((rateField m).row 0) := by
  decide

theorem decMux_dmicBit_apart : ∀ n m : Fin 10, (decMuxEnum n).Apart ((dmicBit m).row 0) ∧
    (dmicBit n).Apart ((decMuxEnum m).row 0) := by
  decide

theorem sbTxMux_apart : ∀ n p : Fin 10, (decMuxEnum n).Apart ((sbTxMuxEnum p).row 0) ∧
    (dmicBit n).Apart ((sbTxMuxEnum p).row 0) := by
  decide

theorem rate_apart : ∀ n p : Fin 10, (decMuxEnum n).Apart ((rateField p).row 0) ∧
    (dmicBit n).Apart ((rateField p).row 0) := by
  decide

/-- The items that are accepted fit the field. -/
theorem decItem_fits : ∀ n : Fin 10, (decMuxText n).length ≤ 8 ∧ ∀ item : Fin 8, item < (decMuxText n).length →
    BitVec.ofNat 8 item &&& (decMuxEnum n).mask = BitVec.ofNat 8 item := by
  decide

theorem decMux_get_put (regmap : ℕ → BitVec 8) (n : Fin 10) (item : ℕ) :
    (decMuxEnum n).get (sndSocDapmPutEnumDouble regmap (decMuxEnum n) (decMuxText n).length item) =
      decHeld n ((decMuxEnum n).get regmap) [item] := by
  by_cases hlt : item < (decMuxText n).length
  · obtain ⟨hle, hfits⟩ := decItem_fits n
    rw [sndSocDapmPutEnumDouble, if_neg (not_le.2 hlt), Field.get_row, hfits ⟨item, hlt.trans_le hle⟩ hlt, decHeld,
      List.filter_cons_of_pos (by simpa using hlt)]
    rfl
  · rw [sndSocDapmPutEnumDouble, if_pos (not_lt.1 hlt), decHeld, List.filter_cons_of_neg (by simpa using hlt)]
    rfl

/-- What writes do to the muxes of the decimators and to their bits. -/
structure PathRun (dev : Device) (ws : List PathWrite) (dev' : Device) : Prop where
  mux : ∀ n, (decMuxEnum n).get dev'.regmap = decHeld n ((decMuxEnum n).get dev.regmap) (ws.filterMap (decItem n))
  bit : ∀ n, (dmicBit n).get dev'.regmap =
    (((ws.filterMap (decItem n)).getLast?).map (decBit n)).getD ((dmicBit n).get dev.regmap)

theorem decHeld_append (n : Fin 10) (found : BitVec 8) (as bs : List ℕ) :
    decHeld n found (as ++ bs) = decHeld n (decHeld n found as) bs := by
  rw [decHeld, List.filter_append, List.getLast?_append, decHeld]
  cases (bs.filter (· < (decMuxText n).length)).getLast? <;> rfl

theorem PathRun.trans {dev dev' dev'' : Device} {as bs : List PathWrite} (h : PathRun dev as dev')
    (h' : PathRun dev' bs dev'') : PathRun dev (as ++ bs) dev'' := by
  constructor
  · intro n
    rw [h'.mux, h.mux, List.filterMap_append, decHeld_append]
  · intro n
    rw [h'.bit, h.bit, List.filterMap_append, List.getLast?_append]
    cases (bs.filterMap (decItem n)).getLast? <;> rfl

theorem PathRun.decMux (dev : Device) (n : Fin 10) (item : ℕ) :
    PathRun dev [.decMux n item] { dev with regmap := wcd9320PutDecEnum dev.regmap n item } := by
  constructor
  · intro m
    rw [wcd9320PutDecEnum_eq]
    by_cases hm : n = m
    · subst hm
      rw [decMux_get_put, Field.get_row_of_apart (decMux_dmicBit_apart n n).1]
      simp [decItem]
    · rw [get_putEnum_of_apart (decMuxEnum_apart m n (Ne.symm hm)), Field.get_row_of_apart (decMux_dmicBit_apart m n).1]
      simp [decItem, hm, decHeld]
  · intro m
    rw [wcd9320PutDecEnum_eq, get_putEnum_of_apart (decMux_dmicBit_apart m n).2]
    by_cases hm : n = m
    · subst hm
      have hfits : ∀ b : Bool, (if b = true then 1 else 0 : BitVec 8) &&& 1#8 = if b = true then 1 else 0 := by
        decide
      rw [Field.get_row, show decBit n item &&& (dmicBit n).mask = decBit n item from hfits _]
      simp [decItem]
    · rw [Field.get_row_of_apart (dmicBit_apart m n (Ne.symm hm))]
      simp [decItem, hm]

theorem PathRun.slimTxMux (dev : Device) (p : Fin 10) (item : ℕ) : PathRun dev [.slimTxMux p item]
    { dev with regmap := sndSocDapmPutEnumDouble dev.regmap (sbTxMuxEnum p) (sbTxMuxText p).length item } :=
  ⟨fun n => get_putEnum_of_apart (sbTxMux_apart n p).1, fun n => get_putEnum_of_apart (sbTxMux_apart n p).2⟩

theorem pathPut_run {dev : Device} {L : Dai → List Node} (h : Routed dev.wcd L) (hreach : InReach dev.wcd L)
    (w : PathWrite) : ∃ dev' L', pathPut dev w = some dev' ∧ Routed dev'.wcd L' ∧ InReach dev'.wcd L' ∧
      PathRun dev [w] dev' := by
  cases w with
  | decMux n item => exact ⟨_, L, rfl, h, hreach, PathRun.decMux dev n item⟩
  | slimTxMux p item => exact ⟨_, L, rfl, h, hreach, PathRun.slimTxMux dev p item⟩
  | control w =>
      obtain ⟨wcd', L', hput, hwritten⟩ := h.put w
      refine ⟨{ dev with wcd := wcd' }, L', ?_, hwritten.routed, hreach.put hwritten, fun _ => rfl, fun _ => rfl⟩
      rw [pathPut, hput]
      rfl

theorem pathPutAll_run (ws : List PathWrite) {dev : Device} {L : Dai → List Node} (h : Routed dev.wcd L)
    (hreach : InReach dev.wcd L) : ∃ dev' L', pathPutAll dev ws = some dev' ∧ Routed dev'.wcd L' ∧
      InReach dev'.wcd L' ∧ PathRun dev ws dev' := by
  induction ws generalizing dev L with
  | nil => exact ⟨dev, L, rfl, h, hreach, fun _ => rfl, fun _ => rfl⟩
  | cons w ws ih =>
      obtain ⟨dev₁, L₁, hput, h₁, hreach₁, hrun₁⟩ := pathPut_run h hreach w
      obtain ⟨dev', L', hputs, h', hreach', hrun'⟩ := ih h₁ hreach₁
      refine ⟨dev', L', ?_, h', hreach', hrun₁.trans hrun'⟩
      rw [pathPutAll, List.foldlM_cons, hput]
      exact hputs

theorem captureWalk {wcd : Codec} {L : Dai → List Node} (h : Routed wcd L) (rateIndex : ℕ) (ports : List (Fin 10))
    (regmap : ℕ → BitVec 8) :
    forEach (setRate wcd rateIndex .capture) (ports.map fun p => .tx (txPort p)) regmap =
      some (writeAll regmap (ports.map fun p => (rateField p).row (BitVec.ofNat 8 rateIndex))) := by
  induction ports generalizing regmap with
  | nil => rfl
  | cons p ports ih =>
      have hreg : ∀ p : Fin 10, WCD9320_CDC_TX1_CLK_FS_CTL + 8 * (slimTxCh (txPort p)).port = (rateField p).reg := by
        decide
      have hbody : setRate wcd rateIndex .capture regmap (.tx (txPort p)) =
          some (.yield (maskWrite regmap ((rateField p).row (BitVec.ofNat 8 rateIndex)))) := by
        rw [setRate, setDecimatorRate, h.ch_tx, Option.bind_eq_bind, Option.bind_some, hreg p,
          Field.row_of_shift_zero rfl]
        rfl
      rw [List.map_cons, forEach, hbody]
      exact ih _

/-- A capture list has some of the first ten ports. -/
theorem InReach.txPorts {wcd : Codec} {L : Dai → List Node} (hreach : InReach wcd L) (h : Routed wcd L) {d : Dai}
    (hd : d.stream = .capture) : ∃ ports : List (Fin 10), L d = ports.map fun p => .tx (txPort p) := by
  have hcapture : ∀ d : Dai, d.IsPlayback → d.stream ≠ .capture := by
    intro d
    cases d <;> first | exact fun _ => by decide | exact fun h => h.elim
  have hports : ∀ x ∈ L d, ∃ p, .tx (txPort p) = x := by
    intro x hx
    cases x with
    | dai e => exact absurd hx (h.no_head d e)
    | rx p => exact absurd (muxDai_isPlayback ((h.rx p d).1 hx)) fun hplay => hcapture d hplay hd
    | tx p =>
        obtain ⟨n, rfl⟩ := hreach.tx p d hx
        exact ⟨n, rfl⟩
  have hrange : L d ∈ Set.range (List.map fun p : Fin 10 => Node.tx (txPort p)) := by
    rw [Set.range_list_map]
    exact hports
  obtain ⟨ports, heq⟩ := hrange
  exact ⟨ports, heq.symm⟩

theorem Routed.listed_iff {dev : Device} {L : Dai → List Node} (h : Routed dev.wcd L) {d : Dai} {ports : List (Fin 10)}
    (hd : L d = ports.map fun p => .tx (txPort p)) (p : Fin 10) : Listed dev d p ↔ p ∈ ports := by
  unfold Listed
  simp only [h.channels_eq, hd, List.mem_filterMap, List.mem_map]
  constructor
  · rintro ⟨ch, ⟨_, ⟨q, hq, rfl⟩, hch⟩, hport⟩
    rw [h.ch_tx] at hch
    obtain rfl := Option.some.inj hch
    rwa [← Fin.ext (show (q : ℕ) = p from hport)]
  · intro hp
    exact ⟨slimTxCh (txPort p), ⟨_, ⟨p, hp, rfl⟩, h.ch_tx _⟩, rfl⟩

/-- What a successful hw_params does to the registers of the capture path. -/
structure CaptureRun (dev : Device) (d : Dai) (rateIndex : ℕ) (dev' : Device) : Prop where
  rate : ∀ n, Listed dev d n → (rateField n).get dev'.regmap = BitVec.ofNat 8 rateIndex
  other : ∀ n, ¬Listed dev d n → (rateField n).get dev'.regmap = (rateField n).get dev.regmap
  mux : ∀ n, (decMuxEnum n).get dev'.regmap = (decMuxEnum n).get dev.regmap
  bit : ∀ n, (dmicBit n).get dev'.regmap = (dmicBit n).get dev.regmap

theorem Routed.captureRun {dev : Device} {L : Dai → List Node} (h : Routed dev.wcd L) (hreach : InReach dev.wcd L)
    (env : Env) {d : Dai} (hd : d.stream = .capture) (rate : ℕ) :
    ∃ dev' ret, wcd9320HwParams env WALK dev d .capture rate = some (dev', ret) ∧
      (ret = 0 → ∃ rateIndex, rates[rateIndex]? = some rate ∧ CaptureRun dev d rateIndex dev') := by
  obtain ⟨dev', ret, hrun, hset⟩ := h.hwParams env d .capture rate (Nat.lt_succ_of_le (h.length_le d))
  refine ⟨dev', ret, hrun, fun hret => ?_⟩
  obtain ⟨rateIndex, hidx, hwalk⟩ := hset.walk hret
  obtain ⟨hlt, hrate, -⟩ := List.findIdx?_eq_some_iff_getElem.1 hidx
  refine ⟨rateIndex, List.getElem?_eq_some_iff.2 ⟨hlt, of_decide_eq_true hrate⟩, ?_⟩
  obtain ⟨ports, hports⟩ := hreach.txPorts h hd
  rw [hports, captureWalk h] at hwalk
  have hregmap := (Option.some.inj hwalk).symm
  have hfits : ∀ i : Fin 6, BitVec.ofNat 8 i &&& 7#8 = BitVec.ofNat 8 i := by
    decide
  constructor
  · intro n hn
    rw [hregmap, get_writeAll_rows rateField_apart, if_pos ((h.listed_iff hports n).1 hn)]
    exact hfits ⟨rateIndex, hlt⟩
  · intro n hn
    rw [hregmap, get_writeAll_rows rateField_apart, if_neg fun hmem => hn ((h.listed_iff hports n).2 hmem)]
  · intro n
    rw [hregmap]
    refine Field.get_writeAll fun r hr => ?_
    obtain ⟨p, -, rfl⟩ := List.mem_map.1 hr
    exact (rate_apart n p).1
  · intro n
    rw [hregmap]
    refine Field.get_writeAll fun r hr => ?_
    obtain ⟨p, -, rfl⟩ := List.mem_map.1 hr
    exact (rate_apart n p).2

theorem registered_mux (found : ℕ → BitVec 8) (ifRegmap : ℕ → ℕ) (n : Fin 10) :
    (decMuxEnum n).get (captureRegistered found ifRegmap).regmap = (decMuxEnum n).get found := by
  have hapart : ∀ n, ∀ r ∈ txRegInit, (decMuxEnum n).Apart r := by
    decide
  exact Field.get_writeAll (hapart n)

/-- The registration clears the bit. -/
theorem registered_bit (found : ℕ → BitVec 8) (ifRegmap : ℕ → ℕ) (n : Fin 10) :
    (dmicBit n).get (captureRegistered found ifRegmap).regmap = 0 := by
  have hrow : ∀ n : Fin 10, txRegInit = txRegInit.take n ++ ⟨(dmicBit n).reg, 0xFF, 0x48⟩ :: txRegInit.drop (n + 1) ∧
      ∀ r ∈ txRegInit.drop (n + 1), (dmicBit n).Apart r := by
    decide
  obtain ⟨htable, hrest⟩ := hrow n
  change (dmicBit n).get (writeAll found txRegInit) = 0
  rw [htable]
  exact (Field.get_writeAll_last (r := ⟨(dmicBit n).reg, 0xFF, 0x48⟩) rfl BitVec.and_allOnes hrest).trans
    (show 0x48#8 >>> 0 &&& 1#8 = 0 by decide)

theorem decSel_iff : ∀ n : Fin 10, ∀ item : Fin 8, item < (decMuxText n).length →
    ((decSel (n + 1) item = true ↔ isDmic n item = true) ↔ ¬(n = 5 ∧ (item : ℕ) = 2)) := by
  decide

theorem decBit_eq_one {n : Fin 10} {item : ℕ} : decBit n item = 1 ↔ decSel (n + 1) item = true := by
  rw [decBit]
  split <;> simp_all

/-- The bit agrees with the mux exactly where the last item allows it to. -/
theorem lastAccepted_iff (n : Fin 10) (found : BitVec 8) (items : List ℕ) :
    ((items.getLast?.map (decBit n)).getD 0 = 1 ↔ isDmic n (decHeld n found items).toNat = true) ↔
      LastAccepted n found items := by
  rcases List.eq_nil_or_concat' items with rfl | ⟨init, item, rfl⟩
  · simp [LastAccepted, decHeld]
  · rw [LastAccepted, List.getLast?_concat]
    change (decBit n item = 1 ↔ _) ↔ if _ then _ else _
    rw [decBit_eq_one]
    obtain ⟨hle, -⟩ := decItem_fits n
    by_cases hlt : item < (decMuxText n).length
    · have hheld : (decHeld n found (init ++ [item])).toNat = item := by
        rw [decHeld_append, decHeld, List.filter_cons_of_pos (by simpa using hlt)]
        exact Nat.mod_eq_of_lt (show item < 256 by omega)
      rw [hheld, if_pos hlt]
      exact decSel_iff n ⟨item, hlt.trans_le hle⟩ hlt
    · have hlen : ∀ n, 3 ≤ (decMuxText n).length := by
        decide
      have hsel : decSel (n + 1) item = false := by
        have := hlen n
        exact decide_eq_false (by omega)
      rw [if_neg hlt, hsel, Bool.false_eq_true, false_iff, Bool.not_eq_true]

theorem CaptureRun.rates_iff {dev dev' : Device} {d : Dai} {rateIndex : ℕ} (h : CaptureRun dev d rateIndex dev') :
    ((∀ n, Carries dev d n → (rateField n).get dev'.regmap = BitVec.ofNat 8 rateIndex) ∧
      ∀ n, ¬Carries dev d n → (rateField n).get dev'.regmap = (rateField n).get dev.regmap) ↔
      RoutedByNumber dev d rateIndex := by
  constructor
  · rintro ⟨hcarried, hkept⟩ n
    by_cases hlisted : Listed dev d n <;> by_cases hcarries : Carries dev d n
    · exact .inl (iff_of_true hlisted hcarries)
    · exact .inr ((hkept n hcarries).symm.trans (h.rate n hlisted))
    · exact .inr ((h.other n hlisted).symm.trans (hcarried n hcarries))
    · exact .inl (iff_of_false hlisted hcarries)
  · intro hroute
    constructor
    · intro n hcarries
      by_cases hlisted : Listed dev d n
      · exact h.rate n hlisted
      · refine (h.other n hlisted).trans ((hroute n).resolve_left fun hiff => hlisted (hiff.2 hcarries))
    · intro n hcarries
      by_cases hlisted : Listed dev d n
      · rw [h.rate n hlisted]
        exact ((hroute n).resolve_left fun hiff => hcarries (hiff.1 hlisted)).symm
      · exact h.other n hlisted

/-- After any writes and a successful hw_params the capture path is coherent exactly where the ports and the
decimators behind them have the same numbers and the last item of each decimator was accepted. -/
theorem capture_coherent_iff (found : ℕ → BitVec 8) (ifRegmap : ℕ → ℕ) (ws : List PathWrite) (env : Env) {d : Dai}
    (hd : d.stream = .capture) (rate : ℕ) :
    ∃ dev dev' ret, pathPutAll (captureRegistered found ifRegmap) ws = some dev ∧
      wcd9320HwParams env WALK dev d .capture rate = some (dev', ret) ∧
      (ret = 0 → ∃ rateIndex, rates[rateIndex]? = some rate ∧
        (Coherent dev d rateIndex dev' ↔ RoutedByNumber dev d rateIndex ∧
          ∀ n, LastAccepted n ((decMuxEnum n).get found) (ws.filterMap (decItem n)))) := by
  have hprobed : Routed (captureRegistered found ifRegmap).wcd _ := probed_routed
  obtain ⟨dev, L, hput, hrouted, hreach, hpath⟩ := pathPutAll_run ws hprobed registered_inReach
  obtain ⟨dev', ret, hrun, hset⟩ := hrouted.captureRun hreach env hd rate
  refine ⟨dev, dev', ret, hput, hrun, fun hret => ?_⟩
  obtain ⟨rateIndex, hrate, hcapture⟩ := hset hret
  refine ⟨rateIndex, hrate, ?_⟩
  have hdmic : (∀ n, (dmicBit n).get dev'.regmap = 1 ↔ isDmic n ((decMuxEnum n).get dev'.regmap).toNat = true) ↔
      ∀ n, LastAccepted n ((decMuxEnum n).get found) (ws.filterMap (decItem n)) := by
    refine forall_congr' fun n => ?_
    rw [hcapture.bit, hcapture.mux, hpath.bit, hpath.mux, registered_mux, registered_bit]
    exact lastAccepted_iff n _ _
  rw [← hcapture.rates_iff, ← hdmic]
  exact ⟨fun h => ⟨⟨h.carried, h.kept⟩, h.dmic⟩, fun h => ⟨h.1.1, h.1.2, h.2⟩⟩

theorem capture_coherent_tx1 :
    ∃ dev dev' ret, pathPutAll (captureRegistered (fun _ => 0) fun _ => 0)
        [.slimTxMux 0 8, .decMux 0 1, .control (.txSwitch .aif1Cap 0 1)] = some dev ∧
      wcd9320HwParams ⟨fun _ => 0, true, 0⟩ WALK dev .aif1Cap .capture 48000 = some (dev', ret) ∧
      (ret = 0 → ∃ rateIndex, rates[rateIndex]? = some 48000 ∧
        (Coherent dev .aif1Cap rateIndex dev' ↔ RoutedByNumber dev .aif1Cap rateIndex ∧
          ∀ n, LastAccepted n ((decMuxEnum n).get fun _ => 0)
            ([.slimTxMux 0 8, .decMux 0 1, .control (.txSwitch .aif1Cap 0 1)].filterMap (decItem n)))) :=
  capture_coherent_iff (fun _ => 0) (fun _ => 0) _ ⟨fun _ => 0, true, 0⟩ (by decide) 48000

/-- TX7 is on the list of AIF1 and carries the first decimator. -/
def tx7CarriesDec1 : Device :=
  (pathPutAll (captureRegistered (fun _ => 0) fun _ => 0)
    [.decMux 0 1, .slimTxMux 6 8, .control (.txSwitch .aif1Cap 6 1)]).getD (captureRegistered (fun _ => 0) fun _ => 0)

/-- The seventh decimator is told the rate instead of the first. -/
theorem tx7CarriesDec1_not_coherent :
    ¬∀ dev', wcd9320HwParams ⟨fun _ => 0, true, 0⟩ WALK tx7CarriesDec1 .aif1Cap .capture 48000 = some (dev', 0) →
      Coherent tx7CarriesDec1 .aif1Cap 3 dev' := by
  intro h
  have hrun : (wcd9320HwParams ⟨fun _ => 0, true, 0⟩ WALK tx7CarriesDec1 .aif1Cap .capture 48000).map
      (fun r => (r.2, (rateField 0).get r.1.regmap)) = some (0, 0) := by
    decide +kernel
  obtain ⟨⟨dev', ret⟩, heq, hpair⟩ := Option.map_eq_some_iff.1 hrun
  obtain ⟨rfl, hrate⟩ := Prod.mk.inj hpair
  have hlisted : Listed tx7CarriesDec1 .aif1Cap 6 := by
    unfold Listed
    decide +kernel
  have hset := (h dev' heq).carried 0 ⟨6, hlisted, by decide +kernel⟩
  rw [hset] at hrate
  revert hrate
  decide

end Sirius.Wcd9320
