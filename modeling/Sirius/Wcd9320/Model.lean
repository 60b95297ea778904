import Mathlib.Algebra.GroupWithZero.Nat
import Sirius.Lib.ListHead

/-!
# The SLIMbus channel lists of the codec, drivers/audio/wcd9320/wcd9320.c

The channels of the RX and TX ports are linked on one list per interface by the mixer
controls and read back by `wcd9320_get_channel_map`. A null pointer that is followed is
`none`; so is a walk that does not end in the given number of turns. Power management
(the DAPM updates behind each control) is left out.
-/
namespace Sirius.Wcd9320
open ListHead

@[simp] def WCD9320_RX_START : ℕ := 16
@[simp] def WCD9320_SLIM_CH_OFFSET : ℕ := 128
@[simp] def WCD9320_RX_MAX : ℕ := 13
@[simp] def WCD9320_TX_MAX : ℕ := 16
@[simp] def EINVAL : ℤ := 22
@[simp] def ENOMEM : ℤ := 12

instance : NeZero WCD9320_RX_MAX := ⟨by decide⟩
instance : NeZero WCD9320_TX_MAX := ⟨by decide⟩

abbrev RxPort := Fin WCD9320_RX_MAX
abbrev TxPort := Fin WCD9320_TX_MAX

/-- The interfaces of the codec, `NUM_CODEC_DAIS` of them. -/
inductive Dai
  | aif1Pb
  | aif1Cap
  | aif2Pb
  | aif2Cap
  | aif3Pb
  | aif3Cap
  | aif4Vifeed
  | aif4MadTx
  deriving DecidableEq, Repr

/-- Everything that has a `list_head`: `slim_ch_list` of an interface, `list` of a channel. -/
inductive Node
  | dai (d : Dai)
  | rx (p : RxPort)
  | tx (p : TxPort)
  deriving DecidableEq, Repr

/-- `struct wcd9320_slim_ch` without its links. -/
structure SlimCh where
  chNum : ℕ
  port : ℕ
  shift : ℕ
  deriving DecidableEq, Repr

/-- The part of `struct wcd9320_codec` that the channel lists live in. -/
structure Codec where
  links : Links Node
  rxChs : RxPort → SlimCh
  txChs : TxPort → SlimCh
  rxPortValue : RxPort → ℕ
  txPortValue : BitVec 32

/-- The channel a list entry is embedded in; a list head is embedded in none. -/
def Codec.ch (wcd : Codec) : Node → Option SlimCh
  | .dai _ => none
  | .rx p => some (wcd.rxChs p)
  | .tx p => some (wcd.txChs p)

/-- `WCD9320_SLIM_RX_CH` -/
def slimRxCh (p : ℕ) : SlimCh where
  chNum := p + WCD9320_RX_START + WCD9320_SLIM_CH_OFFSET
  port := p + WCD9320_RX_START
  shift := p

/-- `WCD9320_SLIM_TX_CH` -/
def slimTxCh (p : ℕ) : SlimCh where
  chNum := p + WCD9320_SLIM_CH_OFFSET
  port := p
  shift := p

/-- The codec as `devm_kzalloc` hands it over. -/
def codecAlloc : Codec where
  links := ⟨fun _ => none, fun _ => none⟩
  rxChs := fun _ => ⟨0, 0, 0⟩
  txChs := fun _ => ⟨0, 0, 0⟩
  rxPortValue := fun _ => 0
  txPortValue := 0

/-- `memcpy` of the channel templates, whose links are null. -/
def copyTemplates (wcd : Codec) : Codec :=
  { wcd with
    rxChs := fun p => slimRxCh p
    txChs := fun p => slimTxCh p
    links :=
      { next := fun n => match n with
          | .dai d => wcd.links.next (.dai d)
          | _ => none
        prev := fun n => match n with
          | .dai d => wcd.links.prev (.dai d)
          | _ => none } }

def initLists (links : Links Node) (ns : List Node) : Links Node := ns.foldl initListHead links

def wcd9320Probe (wcd : Codec) : Codec :=
  let wcd := copyTemplates wcd
  let links := initLists wcd.links ((List.finRange WCD9320_RX_MAX).map .rx)
  { wcd with links := initLists links ((List.finRange WCD9320_TX_MAX).map .tx) }

/-- All interfaces, in the order of their numbers. -/
def dais : List Dai :=
  [.aif1Pb, .aif1Cap, .aif2Pb, .aif2Cap, .aif3Pb, .aif3Cap, .aif4Vifeed, .aif4MadTx]

def wcd9320CodecProbe (wcd : Codec) : Codec :=
  { wcd with links := initLists wcd.links (dais.map .dai) }

/-- The result of a control write: the codec and the returned error or zero. -/
def slimRxMuxPut (wcd : Codec) (port : RxPort) (item : ℕ) : Option (Codec × ℤ) :=
  if wcd.rxPortValue port = item then some (wcd, 0)
  else do
    let wcd := { wcd with rxPortValue := Function.update wcd.rxPortValue port item }
    let links ← listDelInit wcd.links (.rx port)
    match item with
    | 0 => some ({ wcd with links }, 0)
    | 1 => do
        let links ← listAddTail links (.rx port) (.dai .aif1Pb)
        some ({ wcd with links }, 0)
    | 2 => do
        let links ← listAddTail links (.rx port) (.dai .aif2Pb)
        some ({ wcd with links }, 0)
    | 3 => do
        let links ← listAddTail links (.rx port) (.dai .aif3Pb)
        some ({ wcd with links }, 0)
    | _ => some ({ wcd with links }, -EINVAL)

def bit (p : ℕ) : BitVec 32 := 1#32 <<< p

def slimTxMixerPut (wcd : Codec) (dai : Dai) (port : TxPort) (enable : ℤ) : Option (Codec × ℤ) :=
  match dai with
  | .aif1Cap | .aif2Cap | .aif3Cap =>
      -- only add to the list if value not set
      if enable ≠ 0 ∧ wcd.txPortValue &&& bit port = 0 then do
        let links ← listAddTail wcd.links (.tx port) (.dai dai)
        some ({ wcd with txPortValue := wcd.txPortValue ||| bit port, links }, 0)
      else if enable = 0 ∧ wcd.txPortValue &&& bit port ≠ 0 then do
        let links ← listDelInit wcd.links (.tx port)
        some ({ wcd with txPortValue := wcd.txPortValue &&& ~~~bit port, links }, 0)
      else some (wcd, 0)
  | _ => some (wcd, -EINVAL)

/-- What the caller of `wcd9320_get_channel_map` points to; `none` is a null pointer. -/
structure ChannelMap where
  txNum : Option ℕ
  txSlot : Option (ℕ → ℕ)
  rxNum : Option ℕ
  rxSlot : Option (ℕ → ℕ)

/-- The body of both walks of `wcd9320_get_channel_map`. -/
def storeSlot (wcd : Codec) (max : ℕ) (state : ℕ × (ℕ → ℕ)) (n : Node) :
    Option (ForInStep (ℕ × (ℕ → ℕ))) := do
  if state.1 = max then some (.done state)
  else
    let ch ← wcd.ch n
    some (.yield (state.1 + 1, Function.update state.2 state.1 ch.chNum))

def wcd9320GetChannelMap (fuel : ℕ) (wcd : Codec) (dai : Dai) (map : ChannelMap) :
    Option (ℤ × ChannelMap) :=
  match dai with
  | .aif1Pb | .aif2Pb | .aif3Pb =>
      match map.rxSlot, map.rxNum with
      | some rxSlot, some _ => do
          let (i, rxSlot) ← listForEachEntry wcd.links (.dai dai) (storeSlot wcd WCD9320_RX_MAX) fuel (0, rxSlot)
          some (0, { map with rxSlot := some rxSlot, rxNum := some i })
      | _, _ => some (-EINVAL, map)
  | .aif1Cap | .aif2Cap | .aif3Cap =>
      match map.txSlot, map.txNum with
      | some txSlot, some _ => do
          let (i, txSlot) ← listForEachEntry wcd.links (.dai dai) (storeSlot wcd WCD9320_TX_MAX) fuel (0, txSlot)
          some (0, { map with txSlot := some txSlot, txNum := some i })
      | _, _ => some (-EINVAL, map)
  | _ => some (0, map)

end Sirius.Wcd9320
