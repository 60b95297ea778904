import Sirius.Wcd9320.Model

/-!
# The walks over the channel lists in hw_params

`wcd9320_hw_params` and its two helpers configure a stream from the channel list of its
interface. The slave ports are written through the register map of the interface
device, where any write can fail; reads and writes of the codec's own registers do not.
-/
namespace Sirius.Wcd9320
open ListHead

inductive Stream
  | playback
  | capture
  deriving DecidableEq, Repr

/-- `struct slim_stream_config`; `chs` is null or an array. -/
structure SlimStreamConfig where
  rate : ℕ
  bps : ℕ
  chCount : ℕ
  chs : Option (List ℕ)
  portMask : BitVec 32
  direction : Stream

/-- `struct wcd_slim_codec_dai_data` without its list head; of the runtime only whether there is one. -/
structure DaiData where
  streamUp : Bool
  sconfig : SlimStreamConfig
  sruntime : Bool

/-- The codec with its register maps; `ifWrites` counts the writes to the interface device. -/
structure Device where
  wcd : Codec
  dai : Dai → DaiData
  regmap : ℕ → BitVec 8
  ifRegmap : ℕ → ℕ
  ifWrites : ℕ

/-- What the bus, the allocator and the SLIMbus core answer. -/
structure Env where
  regmapWrite : ℕ → ℤ
  kcalloc : Bool
  slimStreamAllocate : ℤ

def Device.setConfig (dev : Device) (dai : Dai) (cfg : SlimStreamConfig) : Device :=
  { dev with dai := Function.update dev.dai dai { dev.dai dai with sconfig := cfg } }

/-- `kfree(cfg->chs)` with the pointer cleared. -/
def Device.freeChs (dev : Device) (dai : Dai) : Device :=
  dev.setConfig dai { (dev.dai dai).sconfig with chs := none }

def WCD9320_REG (pg r : ℕ) : ℕ := (pg <<< 8) ||| r ||| 0x800
def WCD9320_SLIM_PGD_RX_PORT_CFG (p : ℕ) : ℕ := WCD9320_REG 0 (0x30 + p)
def WCD9320_SLIM_PGD_TX_PORT_CFG (p : ℕ) : ℕ := WCD9320_REG 0 (0x50 + p)
def WCD9320_SLIM_PGD_TX_PORT_MULTI_CHNL_0 (p : ℕ) : ℕ := WCD9320_REG 0 (0x100 + 4 * p)
def WCD9320_SLIM_PGD_TX_PORT_MULTI_CHNL_1 (p : ℕ) : ℕ := WCD9320_REG 0 (0x101 + 4 * p)
def WCD9320_SLIM_PGD_RX_PORT_MULTI_CHNL_0 (p : ℕ) : ℕ := WCD9320_REG 0 (0x140 + 4 * p)
def WCD9320_CDC_TX1_CLK_FS_CTL : ℕ := WCD9320_REG 0x02 0x024
def WCD9320_CDC_RX1_B5_CTL : ℕ := WCD9320_REG 0x02 0x0B4
def WCD9320_CDC_CONN_RX1_B1_CTL : ℕ := WCD9320_REG 0x03 0x080
def WCD9320_SLIM_WATER_MARK_VAL : ℕ := (2 <<< 1) ||| 1
def SLAVE_PORT_DISABLE : ℕ := 0
def RX_MIX1_INP_SEL_RX1 : ℕ := 5
def WCD9320_NUM_INTERPOLATORS : ℕ := 7

/-- `snd_soc_component_update_bits` -/
def updateBits (regmap : ℕ → BitVec 8) (reg : ℕ) (mask val : BitVec 8) : ℕ → BitVec 8 :=
  Function.update regmap reg ((regmap reg &&& ~~~mask) ||| (val &&& mask))

section
variable (env : Env)

/-- `regmap_write` to the interface device; a failed write changes no register. -/
def regmapWrite (dev : Device) (reg val : ℕ) : Device × ℤ :=
  let ret := env.regmapWrite dev.ifWrites
  let ifRegmap := if ret < 0 then dev.ifRegmap else Function.update dev.ifRegmap reg val
  ({ dev with ifRegmap, ifWrites := dev.ifWrites + 1 }, ret)

/-- Writes in sequence up to the first that fails. -/
def regmapWrites (dev : Device) : List (ℕ × ℕ) → Device × ℤ
  | [] => (dev, 0)
  | (reg, val) :: writes =>
      let r := regmapWrite env dev reg val
      if r.2 < 0 then r else regmapWrites r.1 writes

/-- The writes that configure one slave port. -/
def portWrites (direction : Stream) (payload : BitVec 16) (port : ℕ) : List (ℕ × ℕ) :=
  match direction with
  | .playback =>
      [(WCD9320_SLIM_PGD_RX_PORT_MULTI_CHNL_0 port, payload.toNat),
        (WCD9320_SLIM_PGD_RX_PORT_CFG port, WCD9320_SLIM_WATER_MARK_VAL)]
  | .capture =>
      [(WCD9320_SLIM_PGD_TX_PORT_MULTI_CHNL_0 port, (payload &&& 0x00FF#16).toNat),
        (WCD9320_SLIM_PGD_TX_PORT_MULTI_CHNL_1 port, ((payload &&& 0xFF00#16) >>> 8).toNat),
        (WCD9320_SLIM_PGD_TX_PORT_CFG port, WCD9320_SLIM_WATER_MARK_VAL)]

/-- The body of the first walk: count the channels and collect their ports. -/
def countChannel (wcd : Codec) (state : SlimStreamConfig × BitVec 16) (n : Node) :
    Option (ForInStep (SlimStreamConfig × BitVec 16)) := do
  let (cfg, payload) := state
  let ch ← wcd.ch n
  let cfg := { cfg with chCount := cfg.chCount + 1, portMask := cfg.portMask ||| bit ch.port }
  some (.yield (cfg, payload ||| 1#16 <<< ch.shift))

/-- The body of the second walk: note the channel number and write the port's registers. -/
def configureChannel (dai : Dai) (direction : Stream) (payload : BitVec 16)
    (state : Device × ℕ × ℤ) (n : Node) : Option (ForInStep (Device × ℕ × ℤ)) := do
  let (dev, i, _) := state
  let ch ← dev.wcd.ch n
  let cfg := (dev.dai dai).sconfig
  let dev := dev.setConfig dai { cfg with chs := cfg.chs.map fun chs => chs.set i ch.chNum }
  let (dev, ret) := regmapWrites env dev (portWrites direction payload ch.port)
  some (if ret < 0 then .done (dev, i + 1, ret) else .yield (dev, i + 1, ret))

def wcd9320SlimSetHwParams (fuel : ℕ) (dev : Device) (dai : Dai) (direction : Stream) :
    Option (Device × ℤ) := do
  let cfg := { (dev.dai dai).sconfig with chCount := 0, direction, portMask := 0 }
  let (cfg, payload) ← listForEachEntry dev.wcd.links (.dai dai) (countChannel dev.wcd) fuel (cfg, 0)
  if env.kcalloc then
    let dev := dev.setConfig dai { cfg with chs := some (List.replicate cfg.chCount 0) }
    let (dev, _, ret) ← listForEachEntry dev.wcd.links (.dai dai)
      (configureChannel env dai direction payload) fuel (dev, 0, 0)
    if ret < 0 then some (dev.freeChs dai, ret)
    -- one runtime per interface, allocated the first time it is needed
    else if (dev.dai dai).sruntime then some (dev, 0)
    else if env.slimStreamAllocate < 0 then some (dev.freeChs dai, env.slimStreamAllocate)
    else some ({ dev with dai := Function.update dev.dai dai { dev.dai dai with sruntime := true } }, 0)
  else some (dev.setConfig dai { cfg with chs := none }, -ENOMEM)

/-- The body of the walk of `wcd9320_slim_ports_disable`, which ignores failed writes. -/
def disablePort (direction : Stream) (dev : Device) (n : Node) : Option (ForInStep Device) := do
  let ch ← dev.wcd.ch n
  let reg := match direction with
    | .playback => WCD9320_SLIM_PGD_RX_PORT_CFG ch.port
    | .capture => WCD9320_SLIM_PGD_TX_PORT_CFG ch.port
  some (.yield (regmapWrite env dev reg SLAVE_PORT_DISABLE).1)

def wcd9320SlimPortsDisable (fuel : ℕ) (dev : Device) (dai : Dai) (direction : Stream) : Option Device :=
  listForEachEntry dev.wcd.links (.dai dai) (disablePort env direction) fuel dev

/-- The rates of `wcd9320_hw_params`; the position of a rate is its index in the rate fields. -/
def rates : List ℕ := [8000, 16000, 32000, 48000, 96000, 192000]

def setDecimatorRate (wcd : Codec) (rateIndex : ℕ) (regmap : ℕ → BitVec 8) (n : Node) :
    Option (ForInStep (ℕ → BitVec 8)) := do
  let ch ← wcd.ch n
  some (.yield (updateBits regmap (WCD9320_CDC_TX1_CLK_FS_CTL + 8 * ch.port) 0x07 (BitVec.ofNat 8 rateIndex)))

/-- One of the three inputs of the interpolator selects the port. -/
def mixSelects (regmap : ℕ → BitVec 8) (reg : ℕ) (inp : BitVec 8) : Bool :=
  decide (regmap reg &&& 0x0F = inp ∨ (regmap reg >>> 4) &&& 0x0F = inp ∨ regmap (reg + 1) &&& 0x0F = inp)

/-- The inner loop over the interpolators from `j` on, `reg` holding the inputs of the next one. -/
def setInterpolatorRates (rateIndex : ℕ) (inp : BitVec 8) :
    ℕ → ℕ → ℕ → (ℕ → BitVec 8) → ℕ → BitVec 8
  | 0, _, _, regmap => regmap
  | left + 1, j, reg, regmap =>
      let regmap := if mixSelects regmap reg inp then
          updateBits regmap (WCD9320_CDC_RX1_B5_CTL + 8 * j) 0xE0 (BitVec.ofNat 8 rateIndex <<< 5)
        else regmap
      setInterpolatorRates rateIndex inp left (j + 1) (if j < 2 then reg + 3 else reg + 2) regmap

def setPlaybackRate (wcd : Codec) (rateIndex : ℕ) (regmap : ℕ → BitVec 8) (n : Node) :
    Option (ForInStep (ℕ → BitVec 8)) := do
  let ch ← wcd.ch n
  let inp := BitVec.ofInt 8 (ch.port + RX_MIX1_INP_SEL_RX1 - 16)
  some (.yield (setInterpolatorRates rateIndex inp WCD9320_NUM_INTERPOLATORS 0
    WCD9320_CDC_CONN_RX1_B1_CTL regmap))

/-- The body of the walk that sets the rate, of decimators or of interpolators. -/
def setRate (wcd : Codec) (rateIndex : ℕ) (stream : Stream) :
    (ℕ → BitVec 8) → Node → Option (ForInStep (ℕ → BitVec 8)) :=
  match stream with
  | .capture => setDecimatorRate wcd rateIndex
  | .playback => setPlaybackRate wcd rateIndex

def wcd9320HwParams (fuel : ℕ) (dev : Device) (dai : Dai) (stream : Stream) (rate : ℕ) :
    Option (Device × ℤ) :=
  match rates.findIdx? (· = rate) with
  | none => some (dev, -EINVAL)
  | some rateIndex => do
      let dev := dev.setConfig dai { (dev.dai dai).sconfig with bps := 16, rate }
      let (dev, ret) ← wcd9320SlimSetHwParams env fuel dev dai stream
      if ret ≠ 0 then some (dev, ret)
      else
        let regmap ← listForEachEntry dev.wcd.links (.dai dai) (setRate dev.wcd rateIndex stream) fuel dev.regmap
        some ({ dev with regmap }, 0)

end
end Sirius.Wcd9320
