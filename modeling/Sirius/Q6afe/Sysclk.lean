import Mathlib.Data.Int.Order.Basic
import Sirius.Lib.Runs

/-!
# The LPAIF clocks of an AFE port

`q6afe_port_set_sysclk` for LPAIF_BIT_CLK and LPAIF_OSR_CLK, as the patch leaves it and as it was. A
command carries the values of both clocks and a mode that says which of them the DSP applies.
-/
namespace Sirius.Q6afe
open Runs

inductive LpaifClk
  | bit
  | osr
  deriving DecidableEq, Repr

def LpaifClk.other : LpaifClk → LpaifClk
  | .bit => .osr
  | .osr => .bit

inductive ClkSetMode
  | clk1Valid
  | clk2Valid
  | bothValid
  deriving DecidableEq, Repr

def AFE_API_VERSION_I2S_CONFIG : ℕ := 1

structure AfeClkCfg where
  i2sCfgMinorVersion : ℕ
  clkVal1 : ℕ
  clkVal2 : ℕ
  clkSrc : ℕ
  clkRoot : ℕ
  clkSetMode : ClkSetMode
  deriving DecidableEq, Repr

def AfeClkCfg.valid (cfg : AfeClkCfg) : LpaifClk → Option ℕ
  | .bit => if cfg.clkSetMode = .clk2Valid then none else some cfg.clkVal1
  | .osr => if cfg.clkSetMode = .clk1Valid then none else some cfg.clkVal2

/-- A call of `q6afe_port_set_sysclk`; `ret` is what `q6afe_port_set_lpass_clock` answers. -/
structure SetSysclk where
  clkId : LpaifClk
  clkSrc : ℕ
  clkRoot : ℕ
  freq : ℕ
  ret : ℤ
  deriving DecidableEq, Repr

/-- The command of the code that the patch removes. -/
def SetSysclk.removed (call : SetSysclk) : AfeClkCfg :=
  match call.clkId with
  | .bit => ⟨AFE_API_VERSION_I2S_CONFIG, call.freq, 0, call.clkSrc, call.clkRoot, .clk1Valid⟩
  | .osr => ⟨AFE_API_VERSION_I2S_CONFIG, 0, call.freq, call.clkSrc, call.clkRoot, .clk2Valid⟩

/-- `struct q6afe_port`. `applied` is what the DSP has applied last for each clock. -/
structure Q6afePort where
  lpaifBitClk : ℕ
  lpaifOsrClk : ℕ
  applied : LpaifClk → ℕ

def Q6afePort.allocated : Q6afePort := ⟨0, 0, fun _ => 0⟩

namespace Q6afePort
variable (port : Q6afePort) (call : SetSysclk)

def lpaifClk : LpaifClk → ℕ
  | .bit => port.lpaifBitClk
  | .osr => port.lpaifOsrClk

def remember : Q6afePort :=
  match call.clkId with
  | .bit => { port with lpaifBitClk := call.freq }
  | .osr => { port with lpaifOsrClk := call.freq }

def clkSetMode : ClkSetMode :=
  if port.lpaifBitClk ≠ 0 ∧ port.lpaifOsrClk ≠ 0 then .bothValid
  else if port.lpaifOsrClk ≠ 0 then .clk2Valid
  else .clk1Valid

def ccfg : AfeClkCfg where
  i2sCfgMinorVersion := AFE_API_VERSION_I2S_CONFIG
  clkVal1 := (port.remember call).lpaifBitClk
  clkVal2 := (port.remember call).lpaifOsrClk
  clkSrc := call.clkSrc
  clkRoot := call.clkRoot
  clkSetMode := (port.remember call).clkSetMode

/-- `q6afe_port_set_sysclk`; the DSP applies what a command that succeeds marks valid. -/
def setSysclk : Q6afePort :=
  if call.ret = 0 then
    { port.remember call with applied := fun clk => ((port.ccfg call).valid clk).getD (port.applied clk) }
  else port.remember call

def Unaffected : Prop := ∀ clk, (port.ccfg call).valid clk = call.removed.valid clk

/-- The clock of the call is marked valid with its frequency, the other one with the frequency applied last
exactly when that is nonzero. -/
def MarksBoth : Prop :=
  (port.ccfg call).valid call.clkId = some call.freq ∧
    (port.ccfg call).valid call.clkId.other =
      if port.applied call.clkId.other ≠ 0 then some (port.applied call.clkId.other) else none

/-- Ports that only ever set one of the two clocks are unaffected; the others have both marked. -/
def Promise (calls : List SetSysclk) : Prop :=
  (∀ clk, (∀ call ∈ calls, call.clkId = clk) → Always setSysclk Unaffected port calls) ∧
    ((∃ call ∈ calls, call.clkId = .bit) → (∃ call ∈ calls, call.clkId = .osr) →
      Always setSysclk MarksBoth port calls)

/-- What is remembered of the other clock is what was applied last; and the frequency is not zero, unless
the call is for the bit clock and no oversampling clock is remembered. -/
def Faithful : Prop :=
  port.lpaifClk call.clkId.other = port.applied call.clkId.other ∧
    (call.freq ≠ 0 ∨ call.clkId = .bit ∧ port.lpaifOsrClk = 0)

variable {port call}

section
variable {bit osr : ℕ} (hbit : (port.remember call).lpaifBitClk = bit) (hosr : (port.remember call).lpaifOsrClk = osr)
include hbit hosr

theorem valid_bit : (port.ccfg call).valid .bit = if bit = 0 ∧ osr ≠ 0 then none else some bit := by
  by_cases h : bit = 0 <;> by_cases h' : osr = 0 <;> simp [AfeClkCfg.valid, ccfg, clkSetMode, hbit, hosr, h, h']

theorem valid_osr : (port.ccfg call).valid .osr = if osr = 0 then none else some osr := by
  by_cases h : bit = 0 <;> by_cases h' : osr = 0 <;> simp [AfeClkCfg.valid, ccfg, clkSetMode, hbit, hosr, h, h']

end

theorem marked_iff {remembered applied : ℕ} :
    ((if remembered = 0 then none else some remembered) = if applied ≠ 0 then some applied else none) ↔
      remembered = applied := by
  by_cases h : remembered = 0
  · by_cases h' : applied = 0
    · simp [h, h']
    · simp [h, h', Ne.symm h']
  · by_cases h' : applied = 0
    · simp [h, h']
    · simp [h, h']

theorem marksBoth_iff : port.MarksBoth call ↔ port.Faithful call := by
  obtain ⟨clkId, src, root, freq, ret⟩ := call
  unfold MarksBoth Faithful
  cases clkId with
  | bit =>
      rw [LpaifClk.other, lpaifClk, valid_bit rfl rfl, valid_osr rfl rfl]
      change ((if freq = 0 ∧ port.lpaifOsrClk ≠ 0 then none else some freq) = some freq ∧
        (if port.lpaifOsrClk = 0 then none else some port.lpaifOsrClk) = _) ↔ _
      rw [marked_iff]
      by_cases hfreq : freq = 0
      · simp [hfreq, and_comm]
      · simp [hfreq]
  | osr =>
      rw [LpaifClk.other, lpaifClk, valid_osr rfl rfl, valid_bit rfl rfl]
      change ((if freq = 0 then none else some freq) = some freq ∧
        (if port.lpaifBitClk = 0 ∧ freq ≠ 0 then none else some port.lpaifBitClk) = _) ↔ _
      by_cases hfreq : freq = 0
      · simp [hfreq]
      · have hother : (if port.lpaifBitClk = 0 ∧ freq ≠ 0 then none else some port.lpaifBitClk) =
            if port.lpaifBitClk = 0 then none else some port.lpaifBitClk := by simp [hfreq]
        rw [hother, marked_iff]
        simp [hfreq]

theorem removed_valid (clk : LpaifClk) :
    call.removed.valid clk = if clk = call.clkId then some call.freq else none := by
  unfold SetSysclk.removed
  cases hid : call.clkId <;> cases clk <;> simp [AfeClkCfg.valid]

/-- Where nothing has been applied for the other clock, that is what the promise asks for. -/
theorem unaffected_iff (happlied : port.applied call.clkId.other = 0) : port.Unaffected call ↔ port.MarksBoth call := by
  unfold Unaffected MarksBoth
  simp only [removed_valid, happlied]
  cases call.clkId <;> constructor
  · exact fun h => ⟨h .bit, h .osr⟩
  · rintro ⟨hbit, hosr⟩ (_ | _)
    · exact hbit
    · exact hosr
  · exact fun h => ⟨h .osr, h .bit⟩
  · rintro ⟨hosr, hbit⟩ (_ | _)
    · exact hbit
    · exact hosr

def Only (clk : LpaifClk) (port : Q6afePort) : Prop := port.lpaifClk clk.other = 0 ∧ port.applied clk.other = 0

theorem Only.setSysclk {clk : LpaifClk} (h : Only clk port) (hcall : call.clkId = clk) :
    Only clk (port.setSysclk call) := by
  obtain ⟨hremembered, happlied⟩ := h
  have hkept : (port.remember call).lpaifClk clk.other = 0 := by
    rw [← hremembered, remember]
    subst hcall
    cases call.clkId <;> rfl
  -- a clock that is remembered as zero is not marked, or marked with zero
  have hvalid : ((port.ccfg call).valid clk.other).getD (port.applied clk.other) = 0 := by
    cases clk with
    | bit =>
        rw [LpaifClk.other, valid_osr rfl hkept]
        exact happlied
    | osr =>
        rw [LpaifClk.other, valid_bit hkept rfl]
        split
        · exact happlied
        · rfl
  unfold Q6afePort.setSysclk
  split
  · exact ⟨hkept, hvalid⟩
  · refine ⟨hkept, ?_⟩
    rw [← happlied, remember]
    cases call.clkId <;> rfl

/-- On a port that only ever sets one clock, the two parts of the promise ask for the same. -/
theorem Only.always_iff {clk : LpaifClk} {calls : List SetSysclk} (hcalls : ∀ call ∈ calls, call.clkId = clk)
    (h : Only clk port) :
    Always Q6afePort.setSysclk Unaffected port calls ↔ Always Q6afePort.setSysclk MarksBoth port calls := by
  induction calls generalizing port with
  | nil => exact Iff.rfl
  | cons call calls ih =>
      have hcall := hcalls call List.mem_cons_self
      have hrest : ∀ c ∈ calls, c.clkId = clk := fun c hc => hcalls c (List.mem_cons_of_mem _ hc)
      have happlied : port.applied call.clkId.other = 0 := by
        rw [hcall]
        exact h.2
      exact and_congr (unaffected_iff happlied) (ih hrest (h.setSysclk hcall))

theorem always_marksBoth_iff {calls : List SetSysclk} :
    Always Q6afePort.setSysclk MarksBoth port calls ↔ Always Q6afePort.setSysclk Faithful port calls :=
  always_iff_of_invariant (I := fun _ => True) (fun _ _ _ _ => trivial) (fun _ _ _ => marksBoth_iff) trivial

/-- The promise is kept over a sequence of calls exactly where every command of it is faithful. -/
theorem promise_iff (calls : List SetSysclk) :
    allocated.Promise calls ↔ Always Q6afePort.setSysclk Faithful allocated calls := by
  have honly : ∀ clk, Only clk allocated := fun clk => ⟨by cases clk <;> rfl, rfl⟩
  rw [← always_marksBoth_iff]
  constructor
  · rintro ⟨hone, hboth⟩
    by_cases hosr : ∀ call ∈ calls, call.clkId = .osr
    · exact ((honly .osr).always_iff hosr).1 (hone .osr hosr)
    · by_cases hbit : ∀ call ∈ calls, call.clkId = .bit
      · exact ((honly .bit).always_iff hbit).1 (hone .bit hbit)
      · obtain ⟨call, hcall, hne⟩ := not_forall₂.1 hosr
        obtain ⟨call', hcall', hne'⟩ := not_forall₂.1 hbit
        refine hboth ⟨call, hcall, ?_⟩ ⟨call', hcall', ?_⟩
        · cases hid : call.clkId with
          | bit => rfl
          | osr => exact absurd hid hne
        · cases hid : call'.clkId with
          | bit => exact absurd hid hne'
          | osr => rfl
  · exact fun h => ⟨fun clk hclk => ((honly clk).always_iff hclk).2 h, fun _ _ => h⟩

def MI2S_OSR_RATE : ℕ := 48000 * 256

def MI2S_BCLK_RATE : ℕ := 48000 * 16 * 2

/-- `snd_soc_dai_set_sysclk` of the AFE port, from the internal source and the default root. -/
def daiSetSysclk (clkId : LpaifClk) (freq : ℕ) (ret : ℤ) : SetSysclk := ⟨clkId, 1, 0, freq, ret⟩

def msm8974SndStartup (osrRet bitRet offRet : ℤ) : List SetSysclk :=
  daiSetSysclk .osr MI2S_OSR_RATE osrRet ::
    if osrRet ≠ 0 then []
    else daiSetSysclk .bit MI2S_BCLK_RATE bitRet :: if bitRet ≠ 0 then [daiSetSysclk .osr 0 offRet] else []

def msm8974SndShutdown (bitRet osrRet : ℤ) : List SetSysclk :=
  [daiSetSysclk .bit 0 bitRet, daiSetSysclk .osr 0 osrRet]

/-- A stream that starts and stops: the command that is to turn the bit clock off does not mark it. -/
theorem startup_shutdown_breaks_promise :
    ¬allocated.Promise (msm8974SndStartup 0 0 0 ++ msm8974SndShutdown 0 0) := by
  intro h
  have hboth := h.2 ⟨daiSetSysclk .bit 0 0, by decide, rfl⟩ ⟨daiSetSysclk .osr 0 0, by decide, rfl⟩
  have hoff := hboth.2.2.1.1
  revert hoff
  decide

end Q6afePort
end Sirius.Q6afe
