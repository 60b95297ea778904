import Mathlib.Data.List.Basic
import Mathlib.Tactic.Ring
import Mathlib.Tactic.Linarith
import Sirius.Lib.Fields
import Sirius.Lib.Runs

/-!
# The PMIC clock dividers

A controller has several outputs, each with a divider and an enable bit in registers of its own, all on one register
map. The hardware wants the divider changed only while the output is stopped, and some periods of the crystal after
each switch; the driver counts them in whole nanoseconds a period. Any access to the register map may fail.
-/
namespace Sirius.Clk
open Fields Runs

def EIO : ℤ := 5
def EINVAL : ℤ := 22
def NSEC_PER_SEC : ℕ := 1000000000

def REG_DIV_CTL1 : ℕ := 0x43
def DIV_CTL1_DIV_FACTOR_MASK : BitVec 8 := 0x07
def REG_EN_CTL : ℕ := 0x46
def REG_EN_MASK : BitVec 8 := 0x80

/-- `ilog2` of an unsigned value: one less than `fls`, which is 0 of 0. -/
def ilog2 (n : ℕ) : ℤ := if n = 0 then -1 else Nat.log2 n

def divFactorToDiv (divFactor : ℕ) : ℕ := 1 <<< ((if divFactor = 0 then 1 else divFactor) - 1)

def divToDivFactor (div : ℕ) : ℕ := (min (ilog2 div + 1) 7).toNat

/-- `DIV_ROUND_UP` of two `unsigned long`; the sum wraps. -/
def divRoundUp (n d : ℕ) : ℕ := (n + d - 1) % 2 ^ 32 / d

def roundRate (rate parentRate : ℕ) : ℕ :=
  parentRate / divFactorToDiv (divToDivFactor (divRoundUp parentRate rate))

inductive Event
  | write (reg : ℕ) (val : BitVec 8)
  | ndelay (ns : ℕ)
  deriving DecidableEq, Repr

/-- The registers, what has happened, and which of the accesses to come fail. -/
structure Bus where
  regs : ℕ → BitVec 8
  reads : List Bool
  updates : List Bool
  events : List Event

/-- `struct clkdiv` -/
structure Clkdiv where
  base : ℕ
  cxoPeriodNs : ℕ
  deriving DecidableEq, Repr

/-- A read that fails leaves the variable as it was. -/
def regmapRead (bus : Bus) (reg val : ℕ) : Bus × ℕ :=
  ({ bus with reads := bus.reads.tail }, if bus.reads.headD false then val else (bus.regs reg).toNat)

/-- The write is left out where it would change nothing. -/
def regmapUpdateBits (bus : Bus) (reg : ℕ) (mask val : BitVec 8) : Bus × ℤ :=
  let rest := { bus with updates := bus.updates.tail }
  let tmp := bus.regs reg &&& ~~~mask ||| val &&& mask
  if bus.updates.headD false then (rest, - EIO)
  else if tmp = bus.regs reg then (rest, 0)
  else ({ rest with regs := Function.update bus.regs reg tmp, events := bus.events ++ [.write reg tmp] }, 0)

def ndelay (bus : Bus) (ns : ℕ) : Bus := { bus with events := bus.events ++ [.ndelay (ns % 2 ^ 32)] }

def isSpmiPmicClkdivEnabled (clkdiv : Clkdiv) (bus : Bus) : Bus × Bool :=
  let (bus, val) := regmapRead bus (clkdiv.base + REG_EN_CTL) 0
  (bus, val &&& 0x80 ≠ 0)

/-- `__spmi_pmic_clkdiv_set_enable_state` -/
def setEnableState (clkdiv : Clkdiv) (bus : Bus) (enable : Bool) (divFactor : ℕ) : Bus × ℤ :=
  let ns := clkdiv.cxoPeriodNs
  let div := divFactorToDiv divFactor
  let (bus, ret) := regmapUpdateBits bus (clkdiv.base + REG_EN_CTL) REG_EN_MASK (if enable then REG_EN_MASK else 0)
  if ret ≠ 0 then (bus, ret)
  else if enable then (ndelay bus ((2 + 3 * div) * ns), 0)
  else (ndelay bus (3 * div * ns), 0)

/-- `divFactor` is read into a variable that holds `junk` before. -/
def spmiPmicClkdivSetEnableState (clkdiv : Clkdiv) (bus : Bus) (enable : Bool) (junk : ℕ) : Bus × ℤ :=
  let (bus, divFactor) := regmapRead bus (clkdiv.base + REG_DIV_CTL1) junk
  setEnableState clkdiv bus enable (divFactor &&& 7)

def clkSpmiPmicDivEnable (clkdiv : Clkdiv) (bus : Bus) (junk : ℕ) : Bus × ℤ :=
  spmiPmicClkdivSetEnableState clkdiv bus true junk

def clkSpmiPmicDivDisable (clkdiv : Clkdiv) (bus : Bus) (junk : ℕ) : Bus :=
  (spmiPmicClkdivSetEnableState clkdiv bus false junk).1

def clkSpmiPmicDivRecalcRate (clkdiv : Clkdiv) (bus : Bus) (parentRate junk : ℕ) : Bus × ℕ :=
  let (bus, divFactor) := regmapRead bus (clkdiv.base + REG_DIV_CTL1) junk
  (bus, parentRate / divFactorToDiv (divFactor &&& 7))

def clkSpmiPmicDivSetRate (clkdiv : Clkdiv) (bus : Bus) (rate parentRate junk : ℕ) : Bus × ℤ :=
  let divFactor := divToDivFactor (parentRate / rate)
  let (bus, enabled) := isSpmiPmicClkdivEnabled clkdiv bus
  let (bus, ret) := if enabled then spmiPmicClkdivSetEnableState clkdiv bus false junk else (bus, 0)
  if ret ≠ 0 then (bus, ret)
  else
    let (bus, ret) := regmapUpdateBits bus (clkdiv.base + REG_DIV_CTL1) DIV_CTL1_DIV_FACTOR_MASK (.ofNat 8 divFactor)
    if ret ≠ 0 then (bus, ret)
    else if enabled then setEnableState clkdiv bus true divFactor
    else (bus, ret)

/-- `struct spmi_pmic_div_clk_cc` as `spmi_pmic_clkdiv_probe` fills it. -/
structure Cc where
  start : ℕ
  nclks : ℕ
  cxoHz : ℕ
  deriving DecidableEq, Repr

/-- `base` is a `u16`. -/
def Cc.clks (cc : Cc) (i : ℕ) : Clkdiv := ⟨(cc.start + i * 0x100) % 2 ^ 16, NSEC_PER_SEC / cc.cxoHz⟩

def spmiPmicDivClkHwGet (cc : Cc) (arg : BitVec 32) : Except ℤ ℕ :=
  let idx := (arg - 1).toInt
  if idx < 0 ∨ idx ≥ cc.nclks then .error (-EINVAL) else .ok idx.toNat

inductive Op
  | enable
  | disable
  | setRate (rate parentRate : ℕ)
  deriving DecidableEq, Repr

/-- A call on the output a specifier names, with the accesses in it that fail and what its variable holds. -/
structure Call where
  arg : BitVec 32
  op : Op
  reads : List Bool
  updates : List Bool
  junk : ℕ
  deriving DecidableEq, Repr

def Op.exec (op : Op) (clkdiv : Clkdiv) (bus : Bus) (junk : ℕ) : Bus :=
  match op with
  | .enable => (clkSpmiPmicDivEnable clkdiv bus junk).1
  | .disable => clkSpmiPmicDivDisable clkdiv bus junk
  | .setRate rate parentRate => (clkSpmiPmicDivSetRate clkdiv bus rate parentRate junk).1

/-- The registers, and for each output what its calls have done. -/
structure State where
  regs : ℕ → BitVec 8
  log : ℕ → List Event

def step (cc : Cc) (s : State) (c : Call) : State :=
  match spmiPmicDivClkHwGet cc c.arg with
  | .error _ => s
  | .ok i =>
      let bus := c.op.exec (cc.clks i) ⟨s.regs, c.reads, c.updates, []⟩ c.junk
      ⟨bus.regs, Function.update s.log i (s.log i ++ bus.events)⟩

theorem divFactorToDiv_succ (k : ℕ) : divFactorToDiv (k + 1) = 2 ^ k := Nat.one_shiftLeft k

/-- The factor of a divider is one more than its logarithm, up to 7. -/
theorem divToDivFactor_eq {n : ℕ} (hn : n ≠ 0) : divToDivFactor n = min (Nat.log2 n) 6 + 1 := by
  rw [divToDivFactor, ilog2, if_neg hn]
  omega

theorem divToDivFactor_le (n : ℕ) : divToDivFactor n ≤ 7 := by
  unfold divToDivFactor
  omega

/-- Dividing by the quotient gives the divider back, to less than a factor of two. -/
theorem div_div_bounds {p d : ℕ} (hd : 0 < d) (hdp : d ≤ p) : d ≤ p / (p / d) ∧ p / (p / d) < 2 * d := by
  have hq : 0 < p / d := Nat.div_pos hdp hd
  constructor
  · rw [Nat.le_div_iff_mul_le hq, mul_comm]
    exact Nat.div_mul_le_self p d
  · rw [Nat.div_lt_iff_lt_mul hq]
    have hlt : p < d * (p / d + 1) := Nat.lt_mul_div_succ p hd
    have hone : d * 1 ≤ d * (p / d) := Nat.mul_le_mul_left d hq
    linarith

/-- The divider that made a rate is found again from the rate. -/
theorem divToDivFactor_div_div {p k : ℕ} (hk : k ≤ 6) (hkp : 2 ^ k ≤ p) :
    divToDivFactor (p / (p / 2 ^ k)) = k + 1 := by
  obtain ⟨hlow, hhigh⟩ := div_div_bounds (Nat.two_pow_pos k) hkp
  have hne : p / (p / 2 ^ k) ≠ 0 := fun h => by
    rw [h] at hlow
    exact absurd (Nat.two_pow_pos k) (not_lt.mpr hlow)
  have hlog : Nat.log2 (p / (p / 2 ^ k)) = k := by
    rw [Nat.log2_eq_iff hne, pow_succ, mul_comm]
    exact ⟨hlow, hhigh⟩
  rw [divToDivFactor_eq hne, hlog, Nat.min_eq_left hk]

/-- The divider chosen for a rate: the exponent is the largest that the rounded-up quotient has room for. -/
structure Chosen (rate parentRate k : ℕ) : Prop where
  le_six : k ≤ 6
  le_parent : 2 ^ k ≤ parentRate
  eq : roundRate rate parentRate = parentRate / 2 ^ k
  fits : parentRate + rate ≤ 2 ^ 32 → 2 ^ k ≤ (parentRate + rate - 1) / rate
  largest : parentRate + rate ≤ 2 ^ 32 → ∀ j ≤ 6, 2 ^ j ≤ (parentRate + rate - 1) / rate → j ≤ k
  wrapped : 2 ^ 32 < parentRate + rate → k = 0

/-- The sum in `divRoundUp` wraps to less than the divisor, so the quotient is 0 and the divider 1. -/
theorem divRoundUp_wrapped {n d : ℕ} (hn : n < 2 ^ 32) (hd : d < 2 ^ 32) (h : 2 ^ 32 < n + d) : divRoundUp n d = 0 := by
  have hmod : (n + d - 1) % 2 ^ 32 = n + d - 1 - 2 ^ 32 := by
    rw [Nat.mod_eq_sub_mod (by omega), Nat.mod_eq_of_lt (by omega)]
  rw [divRoundUp, hmod]
  exact Nat.div_eq_of_lt (by omega)

theorem exists_chosen {rate parentRate : ℕ} (hr : 0 < rate) (hrate : rate < 2 ^ 32) (hp : 0 < parentRate)
    (hparent : parentRate < 2 ^ 32) : ∃ k, Chosen rate parentRate k := by
  by_cases hsum : parentRate + rate ≤ 2 ^ 32
  · set q := (parentRate + rate - 1) / rate with hqdef
    have hround : divRoundUp parentRate rate = q := by
      rw [divRoundUp, Nat.mod_eq_of_lt (by omega)]
    have hpos : 0 < q := Nat.div_pos (by omega) hr
    have hle : q ≤ parentRate := by
      rw [hqdef, ← Nat.lt_succ_iff, Nat.div_lt_iff_lt_mul hr]
      have hone : parentRate * 1 ≤ parentRate * rate := Nat.mul_le_mul_left parentRate hr
      rw [Nat.succ_mul]
      omega
    have hfit : 2 ^ min (Nat.log2 q) 6 ≤ q :=
      (Nat.pow_le_pow_right two_pos (Nat.min_le_left ..)).trans (Nat.log2_self_le hpos.ne')
    refine ⟨min (Nat.log2 q) 6, Nat.min_le_right .., hfit.trans hle, ?_, fun _ => hfit, fun _ j hj h => ?_,
      fun h => absurd hsum (not_le.mpr h)⟩
    · rw [roundRate, hround, divToDivFactor_eq hpos.ne', divFactorToDiv_succ]
    · exact le_min ((Nat.le_log2 hpos.ne').mpr h) hj
  · have hwrap : 2 ^ 32 < parentRate + rate := not_le.mp hsum
    refine ⟨0, Nat.zero_le 6, hp, ?_, fun h => absurd h hsum, fun h => absurd h hsum, fun _ => rfl⟩
    rw [roundRate, divRoundUp_wrapped hparent hrate hwrap]
    rfl

def Bus.Answers (bus : Bus) : Prop := ∀ b ∈ bus.reads, b = false

theorem Bus.Answers.tail {bus : Bus} (h : bus.Answers) : ∀ b ∈ bus.reads.tail, b = false :=
  fun b hb => h b (List.mem_of_mem_tail hb)

theorem headD_eq_false {bs : List Bool} (h : ∀ b ∈ bs, b = false) : bs.headD false = false := by
  cases bs with
  | nil => rfl
  | cons b bs => exact h b List.mem_cons_self

theorem regmapRead_eq {bus : Bus} (h : bus.Answers) (reg val : ℕ) :
    regmapRead bus reg val = ({ bus with reads := bus.reads.tail }, (bus.regs reg).toNat) := by
  rw [regmapRead, headD_eq_false h]
  rfl

theorem neg_EIO_ne : - EIO ≠ 0 := by decide

/-- An update fails and does nothing, or finds the bits as they should be, or writes them. -/
theorem regmapUpdateBits_cases (bus : Bus) (reg : ℕ) (mask val : BitVec 8) :
    regmapUpdateBits bus reg mask val = ({ bus with updates := bus.updates.tail }, - EIO) ∨
    bus.regs reg &&& ~~~mask ||| val &&& mask = bus.regs reg ∧
      regmapUpdateBits bus reg mask val = ({ bus with updates := bus.updates.tail }, 0) ∨
    regmapUpdateBits bus reg mask val =
      ({ bus with
        updates := bus.updates.tail
        regs := maskWrite bus.regs ⟨reg, mask, val⟩
        events := bus.events ++ [.write reg (bus.regs reg &&& ~~~mask ||| val &&& mask)] }, 0) := by
  unfold regmapUpdateBits
  dsimp only
  split
  · exact .inl rfl
  · split
    · exact .inr (.inl ⟨‹_›, rfl⟩)
    · exact .inr (.inr rfl)

theorem masked_and_not (v x m : BitVec 8) : (v &&& ~~~m ||| x &&& m) &&& ~~~m = v &&& ~~~m := by
  ext i hi
  simp only [BitVec.getElem_and, BitVec.getElem_or, BitVec.getElem_not]
  cases m[i] <;> simp

theorem masked_and (v x m : BitVec 8) : (v &&& ~~~m ||| x &&& m) &&& m = x &&& m := by
  ext i hi
  simp only [BitVec.getElem_and, BitVec.getElem_or, BitVec.getElem_not]
  cases m[i] <;> simp

/-- The two registers of an output, and whether its last switch has still to settle. -/
structure Output where
  divCtl1 : BitVec 8
  enCtl : BitVec 8
  settling : Bool
  deriving DecidableEq, Repr

def Output.div (o : Output) : ℕ := divFactorToDiv (o.divCtl1 &&& DIV_CTL1_DIV_FACTOR_MASK).toNat

def Output.on (o : Output) : Bool := o.enCtl &&& REG_EN_MASK ≠ 0

def Output.periods (o : Output) : ℕ := if o.on then 2 + 3 * o.div else 3 * o.div

/-- Nothing is written before the last switch has settled, the divider only while the output is off, and of the two
registers nothing but the enable bit and the factor. A switch settles in some periods of a crystal of `cxoHz`; a delay
may be short of them by less than a nanosecond a period. -/
def Output.next (cxoHz base : ℕ) (o : Output) : Event → Option Output
  | .write reg val =>
      if o.settling then none
      else if reg = base + REG_EN_CTL ∧ val &&& ~~~REG_EN_MASK = o.enCtl &&& ~~~REG_EN_MASK then
        some { o with enCtl := val, settling := true }
      else if reg = base + REG_DIV_CTL1 ∧ o.on = false ∧
          val &&& ~~~DIV_CTL1_DIV_FACTOR_MASK = o.divCtl1 &&& ~~~DIV_CTL1_DIV_FACTOR_MASK then
        some { o with divCtl1 := val }
      else none
  | .ndelay ns =>
      if o.settling = false ∨ o.periods * NSEC_PER_SEC < (ns + o.periods) * cxoHz then some { o with settling := false }
      else none

def Output.follow (cxoHz base : ℕ) (o : Output) (events : List Event) : Option Output :=
  events.foldlM (Output.next cxoHz base) o

theorem Output.follow_cons {cxoHz base : ℕ} {o o' : Output} {e : Event} (es : List Event)
    (h : o.next cxoHz base e = some o') : o.follow cxoHz base (e :: es) = o'.follow cxoHz base es := by
  rw [Output.follow, List.foldlM_cons, h]
  rfl

/-- An output with nothing left to settle, as its registers have it. -/
def output (clkdiv : Clkdiv) (regs : ℕ → BitVec 8) : Output :=
  ⟨regs (clkdiv.base + REG_DIV_CTL1), regs (clkdiv.base + REG_EN_CTL), false⟩

theorem Output.follow_append {cxoHz base : ℕ} {o o' : Output} {es es' : List Event}
    (h : o.follow cxoHz base es = some o') : o.follow cxoHz base (es ++ es') = o'.follow cxoHz base es' := by
  rw [Output.follow, List.foldlM_append]
  exact (congrArg (· >>= fun o => o.follow cxoHz base es') h).trans rfl

/-- What was done between two buses is right for the output, and no other register changed. -/
structure Follows (cxoHz : ℕ) (clkdiv : Clkdiv) (bus bus' : Bus) : Prop where
  events : ∃ es, bus'.events = bus.events ++ es ∧
    (output clkdiv bus.regs).follow cxoHz clkdiv.base es = some (output clkdiv bus'.regs)
  frame : ∀ reg, reg ≠ clkdiv.base + REG_DIV_CTL1 → reg ≠ clkdiv.base + REG_EN_CTL → bus'.regs reg = bus.regs reg

theorem Follows.of_same {cxoHz : ℕ} {clkdiv : Clkdiv} {bus bus' : Bus} (hregs : bus'.regs = bus.regs)
    (hevents : bus'.events = bus.events) : Follows cxoHz clkdiv bus bus' := by
  refine ⟨⟨[], ?_, ?_⟩, fun reg _ _ => congrFun hregs reg⟩
  · rw [hevents, List.append_nil]
  · rw [hregs]
    rfl

theorem Follows.trans {cxoHz : ℕ} {clkdiv : Clkdiv} {a b c : Bus} (h : Follows cxoHz clkdiv a b)
    (h' : Follows cxoHz clkdiv b c) : Follows cxoHz clkdiv a c := by
  obtain ⟨es, hes, hfollow⟩ := h.events
  obtain ⟨es', hes', hfollow'⟩ := h'.events
  refine ⟨⟨es ++ es', ?_, ?_⟩, fun reg hdiv hen => (h'.frame reg hdiv hen).trans (h.frame reg hdiv hen)⟩
  · rw [hes', hes, List.append_assoc]
  · rw [Output.follow_append hfollow, hfollow']

/-- The period is the crystal's in whole nanoseconds, and the delays fit 32 bits, as they do over 45 Hz. -/
structure Clkdiv.Fits (clkdiv : Clkdiv) (cxoHz : ℕ) : Prop where
  pos : 0 < cxoHz
  period : clkdiv.cxoPeriodNs = NSEC_PER_SEC / cxoHz
  small : (2 + 3 * 64) * clkdiv.cxoPeriodNs < 2 ^ 32

theorem divFactorToDiv_le {f : ℕ} (h : f ≤ 7) : divFactorToDiv f ≤ 64 := by
  have hexp : (if f = 0 then 1 else f) - 1 ≤ 6 := by split <;> omega
  rw [divFactorToDiv, Nat.one_shiftLeft]
  exact Nat.pow_le_pow_right two_pos hexp

theorem factor_le (v : BitVec 8) : (v &&& DIV_CTL1_DIV_FACTOR_MASK).toNat ≤ 7 := by
  rw [BitVec.toNat_and]
  exact Nat.and_le_right

section
variable {cxoHz : ℕ} {clkdiv : Clkdiv} {bus : Bus}

theorem periods_lt (hfit : clkdiv.Fits cxoHz) (o : Output) : o.periods * clkdiv.cxoPeriodNs < 2 ^ 32 := by
  have hdiv : o.div ≤ 64 := divFactorToDiv_le (factor_le o.divCtl1)
  have hperiods : o.periods ≤ 2 + 3 * 64 := by
    unfold Output.periods
    split <;> omega
  exact lt_of_le_of_lt (Nat.mul_le_mul_right _ hperiods) hfit.small

/-- What the whole nanoseconds leave out is less than one of them a period. -/
theorem periods_short (hfit : clkdiv.Fits cxoHz) {n : ℕ} (hn : 0 < n) :
    n * NSEC_PER_SEC < (n * clkdiv.cxoPeriodNs + n) * cxoHz := by
  have hfloor : NSEC_PER_SEC < cxoHz * (clkdiv.cxoPeriodNs + 1) := hfit.period ▸ Nat.lt_mul_div_succ _ hfit.pos
  calc n * NSEC_PER_SEC < n * (cxoHz * (clkdiv.cxoPeriodNs + 1)) := Nat.mul_lt_mul_of_pos_left hfloor hn
    _ = (n * clkdiv.cxoPeriodNs + n) * cxoHz := by ring

theorem periods_pos (o : Output) : 0 < o.periods := by
  have hdiv : 0 < o.div := by
    rw [Output.div, divFactorToDiv, Nat.one_shiftLeft]
    exact Nat.two_pow_pos _
  unfold Output.periods
  split <;> omega

theorem next_ndelay (hfit : clkdiv.Fits cxoHz) (o : Output) :
    o.next cxoHz clkdiv.base (.ndelay (o.periods * clkdiv.cxoPeriodNs % 2 ^ 32)) =
      some { o with settling := false } := by
  rw [Nat.mod_eq_of_lt (periods_lt hfit o)]
  exact if_pos (.inr (periods_short hfit (periods_pos o)))

theorem base_ne (clkdiv : Clkdiv) : clkdiv.base + REG_DIV_CTL1 ≠ clkdiv.base + REG_EN_CTL := by
  unfold REG_DIV_CTL1 REG_EN_CTL
  omega

theorem div_of_write_en (regs : ℕ → BitVec 8) (mask val : BitVec 8) :
    maskWrite regs ⟨clkdiv.base + REG_EN_CTL, mask, val⟩ (clkdiv.base + REG_DIV_CTL1) =
      regs (clkdiv.base + REG_DIV_CTL1) :=
  maskWrite_of_ne (base_ne clkdiv)

theorem en_of_write_div (regs : ℕ → BitVec 8) (mask val : BitVec 8) :
    maskWrite regs ⟨clkdiv.base + REG_DIV_CTL1, mask, val⟩ (clkdiv.base + REG_EN_CTL) =
      regs (clkdiv.base + REG_EN_CTL) :=
  maskWrite_of_ne (base_ne clkdiv).symm

theorem on_of_update {o : Output} {v : BitVec 8} {enable : Bool}
    (h : o.enCtl = v &&& ~~~REG_EN_MASK ||| (if enable then REG_EN_MASK else 0) &&& REG_EN_MASK) : o.on = enable := by
  rw [Output.on, h, masked_and]
  cases enable <;> rfl

/-- Where the enable bit is as wanted, the wait of `setEnableState` is the one the output needs. -/
theorem setEnableState_wait {bus : Bus} {enable : Bool} {divFactor : ℕ} {o : Output} (hon : o.on = enable)
    (hdiv : o.div = divFactorToDiv divFactor) :
    (if enable then (ndelay bus ((2 + 3 * divFactorToDiv divFactor) * clkdiv.cxoPeriodNs), (0 : ℤ))
      else (ndelay bus (3 * divFactorToDiv divFactor * clkdiv.cxoPeriodNs), 0)) =
    (ndelay bus (o.periods * clkdiv.cxoPeriodNs), 0) := by
  rw [Output.periods, hon, hdiv]
  cases enable <;> rfl

/-- The delay `setEnableState` makes is that of the state it has switched to. -/
theorem setEnableState_follows (hfit : clkdiv.Fits cxoHz) {divFactor : ℕ}
    (hfactor : divFactor = (bus.regs (clkdiv.base + REG_DIV_CTL1) &&& DIV_CTL1_DIV_FACTOR_MASK).toNat) (enable : Bool) :
    let r := setEnableState clkdiv bus enable divFactor
    Follows cxoHz clkdiv bus r.1 ∧ (r.2 = 0 → (output clkdiv r.1.regs).on = enable) ∧ r.1.reads = bus.reads := by
  have hdiv : (output clkdiv bus.regs).div = divFactorToDiv divFactor := congrArg divFactorToDiv hfactor.symm
  have hcases := regmapUpdateBits_cases bus (clkdiv.base + REG_EN_CTL) REG_EN_MASK (if enable then REG_EN_MASK else 0)
  obtain h | ⟨hsame, h⟩ | h := hcases
  · simp only [setEnableState, h, ne_eq, neg_EIO_ne, not_false_eq_true, if_true]
    exact ⟨.of_same rfl rfl, fun h => h.elim, trivial⟩
  · have hon : (output clkdiv bus.regs).on = enable := on_of_update hsame.symm
    simp only [setEnableState, h, ne_eq, not_true_eq_false, if_false, setEnableState_wait hon hdiv]
    refine ⟨⟨⟨_, rfl, ?_⟩, fun _ _ _ => rfl⟩, fun _ => hon, rfl⟩
    exact Output.follow_cons [] (next_ndelay hfit _)
  · set val := bus.regs (clkdiv.base + REG_EN_CTL) &&& ~~~REG_EN_MASK |||
      (if enable then REG_EN_MASK else 0) &&& REG_EN_MASK with hval
    -- what the output is between the write and the wait
    let o : Output := ⟨bus.regs (clkdiv.base + REG_DIV_CTL1), val, true⟩
    have hon : o.on = enable := on_of_update rfl
    have hwrite : (output clkdiv bus.regs).next cxoHz clkdiv.base (.write (clkdiv.base + REG_EN_CTL) val) = some o :=
      if_pos ⟨rfl, masked_and_not ..⟩
    have hregs : output clkdiv (maskWrite bus.regs
        ⟨clkdiv.base + REG_EN_CTL, REG_EN_MASK, if enable then REG_EN_MASK else 0⟩) = { o with settling := false } := by
      rw [output, div_of_write_en, maskWrite, Function.update_self]
    simp only [setEnableState, h, ne_eq, not_true_eq_false, if_false, setEnableState_wait hon hdiv]
    refine ⟨⟨⟨[_, _], List.append_assoc .., ?_⟩, fun reg _ hen => maskWrite_of_ne hen⟩, fun _ => ?_, rfl⟩
    · rw [ndelay, hregs, Output.follow_cons _ hwrite]
      exact Output.follow_cons [] (next_ndelay hfit o)
    · rw [ndelay, hregs]
      exact hon

theorem toNat_and_seven (v : BitVec 8) : v.toNat &&& 7 = (v &&& DIV_CTL1_DIV_FACTOR_MASK).toNat :=
  (BitVec.toNat_and v DIV_CTL1_DIV_FACTOR_MASK).symm

theorem spmiPmicClkdivSetEnableState_follows (hfit : clkdiv.Fits cxoHz) (hbus : bus.Answers) (enable : Bool)
    (junk : ℕ) :
    let r := spmiPmicClkdivSetEnableState clkdiv bus enable junk
    Follows cxoHz clkdiv bus r.1 ∧ (r.2 = 0 → (output clkdiv r.1.regs).on = enable) ∧ r.1.Answers := by
  rw [spmiPmicClkdivSetEnableState, regmapRead_eq hbus]
  dsimp only
  obtain ⟨hfollows, hon, hreads⟩ :=
    @setEnableState_follows cxoHz clkdiv { bus with reads := bus.reads.tail } hfit _ (toNat_and_seven _) enable
  refine ⟨⟨hfollows.events, hfollows.frame⟩, hon, ?_⟩
  rw [Bus.Answers, hreads]
  exact hbus.tail

theorem regmapUpdateBits_follows (hoff : (output clkdiv bus.regs).on = false) (val : BitVec 8) :
    let r := regmapUpdateBits bus (clkdiv.base + REG_DIV_CTL1) DIV_CTL1_DIV_FACTOR_MASK val
    Follows cxoHz clkdiv bus r.1 ∧ (r.2 = 0 → r.1.regs (clkdiv.base + REG_DIV_CTL1) &&& DIV_CTL1_DIV_FACTOR_MASK =
      val &&& DIV_CTL1_DIV_FACTOR_MASK) ∧ r.1.reads = bus.reads := by
  obtain h | ⟨hsame, h⟩ | h :=
    regmapUpdateBits_cases bus (clkdiv.base + REG_DIV_CTL1) DIV_CTL1_DIV_FACTOR_MASK val
  · rw [h]
    exact ⟨.of_same rfl rfl, fun h => absurd h neg_EIO_ne, rfl⟩
  · rw [h]
    refine ⟨.of_same rfl rfl, fun _ => ?_, rfl⟩
    rw [← hsame, masked_and]
  · rw [h]
    refine ⟨⟨⟨_, rfl, ?_⟩, fun reg hdiv _ => maskWrite_of_ne hdiv⟩, fun _ => ?_, rfl⟩
    · set new := bus.regs (clkdiv.base + REG_DIV_CTL1) &&& ~~~DIV_CTL1_DIV_FACTOR_MASK |||
        val &&& DIV_CTL1_DIV_FACTOR_MASK with hnew
      have hwrite : (output clkdiv bus.regs).next cxoHz clkdiv.base (.write (clkdiv.base + REG_DIV_CTL1) new) =
          some { output clkdiv bus.regs with divCtl1 := new } :=
        (if_neg fun h => base_ne clkdiv h.1).trans (if_pos ⟨rfl, hoff, masked_and_not ..⟩)
      have hregs : output clkdiv (maskWrite bus.regs
          ⟨clkdiv.base + REG_DIV_CTL1, DIV_CTL1_DIV_FACTOR_MASK, val⟩) =
            { output clkdiv bus.regs with divCtl1 := new } := by
        rw [output, en_of_write_div, maskWrite, Function.update_self]
        rfl
      rw [hregs]
      exact Output.follow_cons [] hwrite
    · dsimp only
      rw [maskWrite, Function.update_self, masked_and]

theorem setRate_factor_eq {divFactor : ℕ} {v : BitVec 8} (hle : divFactor ≤ 7)
    (h : v &&& DIV_CTL1_DIV_FACTOR_MASK = .ofNat 8 divFactor &&& DIV_CTL1_DIV_FACTOR_MASK) :
    divFactor = (v &&& DIV_CTL1_DIV_FACTOR_MASK).toNat := by
  rw [h, BitVec.toNat_and, BitVec.toNat_ofNat, Nat.mod_eq_of_lt (by omega)]
  exact (Nat.and_two_pow_sub_one_of_lt_two_pow (n := 3) (by omega)).symm

theorem isSpmiPmicClkdivEnabled_eq (hbus : bus.Answers) :
    isSpmiPmicClkdivEnabled clkdiv bus = ({ bus with reads := bus.reads.tail }, (output clkdiv bus.regs).on) := by
  rw [isSpmiPmicClkdivEnabled, regmapRead_eq hbus]
  refine Prod.ext rfl (decide_eq_decide.mpr (not_congr ?_))
  exact (BitVec.toNat_and (bus.regs (clkdiv.base + REG_EN_CTL)) REG_EN_MASK).symm ▸ BitVec.toNat_inj (y := 0)

/-- The second half of `clkSpmiPmicDivSetRate`, after the output has been switched off. -/
theorem setRate_tail_follows (hfit : clkdiv.Fits cxoHz) {divFactor : ℕ} (hle : divFactor ≤ 7) (enabled : Bool)
    (hoff : (output clkdiv bus.regs).on = false) :
    let r := regmapUpdateBits bus (clkdiv.base + REG_DIV_CTL1) DIV_CTL1_DIV_FACTOR_MASK (.ofNat 8 divFactor)
    Follows cxoHz clkdiv bus
      (if r.2 ≠ 0 then r else if enabled then setEnableState clkdiv r.1 true divFactor else r).1 := by
  obtain ⟨hwrite, hfactor, -⟩ := regmapUpdateBits_follows hoff (.ofNat 8 divFactor)
  dsimp only
  split
  · exact hwrite
  · split
    · have hret := not_not.mp ‹_›
      exact hwrite.trans (setEnableState_follows hfit (setRate_factor_eq hle (hfactor hret)) true).1
    · exact hwrite

theorem clkSpmiPmicDivSetRate_follows (hfit : clkdiv.Fits cxoHz) (hbus : bus.Answers) (rate parentRate junk : ℕ) :
    Follows cxoHz clkdiv bus (clkSpmiPmicDivSetRate clkdiv bus rate parentRate junk).1 := by
  have hle := divToDivFactor_le (parentRate / rate)
  unfold clkSpmiPmicDivSetRate
  rw [isSpmiPmicClkdivEnabled_eq hbus]
  have htail : Bus.Answers { bus with reads := bus.reads.tail } := hbus.tail
  have hsame : Follows cxoHz clkdiv bus { bus with reads := bus.reads.tail } := .of_same rfl rfl
  cases hon : (output clkdiv bus.regs).on with
  | false => exact hsame.trans (setRate_tail_follows hfit hle false hon)
  | true =>
      obtain ⟨hstop, hoff, -⟩ := spmiPmicClkdivSetEnableState_follows hfit htail false junk
      set stop := spmiPmicClkdivSetEnableState clkdiv { bus with reads := bus.reads.tail } false junk with hstopdef
      by_cases hret : stop.2 = 0
      · simp only [if_true, ← hstopdef, hret, ne_eq, not_true_eq_false, if_false]
        exact (hsame.trans hstop).trans (setRate_tail_follows hfit hle true (hoff hret))
      · simp only [if_true, ← hstopdef, hret, ne_eq, not_false_eq_true]
        exact hsame.trans hstop

theorem exec_follows (hfit : clkdiv.Fits cxoHz) (hbus : bus.Answers) (op : Op) (junk : ℕ) :
    Follows cxoHz clkdiv bus (op.exec clkdiv bus junk) := by
  cases op with
  | enable => exact (spmiPmicClkdivSetEnableState_follows hfit hbus true junk).1
  | disable => exact (spmiPmicClkdivSetEnableState_follows hfit hbus false junk).1
  | setRate rate parentRate => exact clkSpmiPmicDivSetRate_follows hfit hbus rate parentRate junk

end

section
variable {clkdiv : Clkdiv} {bus : Bus}

/-- An update that does not fail leaves what it should, whether or not it wrote. -/
theorem regmapUpdateBits_regs {reg : ℕ} {mask val : BitVec 8} (h : (regmapUpdateBits bus reg mask val).2 = 0) :
    (regmapUpdateBits bus reg mask val).1.regs = maskWrite bus.regs ⟨reg, mask, val⟩ := by
  obtain heq | ⟨hsame, heq⟩ | heq := regmapUpdateBits_cases bus reg mask val
  · rw [heq] at h
    exact absurd h neg_EIO_ne
  · rw [heq, maskWrite]
    exact (Function.update_eq_self_iff.mpr hsame).symm
  · rw [heq]

theorem setEnableState_regs {enable : Bool} {divFactor : ℕ} (h : (setEnableState clkdiv bus enable divFactor).2 = 0) :
    (setEnableState clkdiv bus enable divFactor).1.regs =
      maskWrite bus.regs ⟨clkdiv.base + REG_EN_CTL, REG_EN_MASK, if enable then REG_EN_MASK else 0⟩ := by
  unfold setEnableState at h ⊢
  by_cases hret : (regmapUpdateBits bus (clkdiv.base + REG_EN_CTL) REG_EN_MASK
      (if enable then REG_EN_MASK else 0)).2 = 0
  · simp only [hret, ne_eq, not_true_eq_false, if_false]
    rw [← regmapUpdateBits_regs hret]
    cases enable <;> rfl
  · simp only [ne_eq, hret, not_false_eq_true, if_true] at h

theorem div_of_factor (regs : ℕ → BitVec 8) {divFactor : ℕ} (hle : divFactor ≤ 7) :
    (output clkdiv (maskWrite regs
      ⟨clkdiv.base + REG_DIV_CTL1, DIV_CTL1_DIV_FACTOR_MASK, .ofNat 8 divFactor⟩)).div = divFactorToDiv divFactor := by
  refine congrArg divFactorToDiv (setRate_factor_eq hle ?_).symm
  rw [output, maskWrite, Function.update_self, masked_and]

theorem on_of_factor (regs : ℕ → BitVec 8) (val : BitVec 8) :
    (output clkdiv (maskWrite regs ⟨clkdiv.base + REG_DIV_CTL1, DIV_CTL1_DIV_FACTOR_MASK, val⟩)).on =
      (output clkdiv regs).on := by
  rw [Output.on, Output.on, output, output, en_of_write_div]

theorem div_of_enable (regs : ℕ → BitVec 8) (val : BitVec 8) :
    (output clkdiv (maskWrite regs ⟨clkdiv.base + REG_EN_CTL, REG_EN_MASK, val⟩)).div = (output clkdiv regs).div := by
  rw [Output.div, Output.div, output, output, div_of_write_en]

theorem on_of_enable (regs : ℕ → BitVec 8) (enable : Bool) :
    (output clkdiv (maskWrite regs
      ⟨clkdiv.base + REG_EN_CTL, REG_EN_MASK, if enable then REG_EN_MASK else 0⟩)).on = enable := by
  refine on_of_update (v := regs (clkdiv.base + REG_EN_CTL)) ?_
  rw [output, maskWrite, Function.update_self]

theorem clkSpmiPmicDivSetRate_output (hbus : bus.Answers) {rate parentRate junk : ℕ}
    (h : (clkSpmiPmicDivSetRate clkdiv bus rate parentRate junk).2 = 0) :
    let o := output clkdiv (clkSpmiPmicDivSetRate clkdiv bus rate parentRate junk).1.regs
    o.div = divFactorToDiv (divToDivFactor (parentRate / rate)) ∧ o.on = (output clkdiv bus.regs).on := by
  have hle := divToDivFactor_le (parentRate / rate)
  unfold clkSpmiPmicDivSetRate at h ⊢
  rw [isSpmiPmicClkdivEnabled_eq hbus] at h ⊢
  cases hon : (output clkdiv bus.regs).on with
  | false =>
      set write := regmapUpdateBits { bus with reads := bus.reads.tail } (clkdiv.base + REG_DIV_CTL1)
        DIV_CTL1_DIV_FACTOR_MASK (.ofNat 8 (divToDivFactor (parentRate / rate))) with hwrite
      simp only [hon, Bool.false_eq_true, if_false, ne_eq, not_true_eq_false, ← hwrite, ite_self] at h ⊢
      have hregs := regmapUpdateBits_regs h
      rw [hregs]
      exact ⟨div_of_factor _ hle, (on_of_factor ..).trans hon⟩
  | true =>
      set stop := spmiPmicClkdivSetEnableState clkdiv { bus with reads := bus.reads.tail } false junk with hstop
      by_cases hret : stop.2 = 0
      · set write := regmapUpdateBits stop.1 (clkdiv.base + REG_DIV_CTL1) DIV_CTL1_DIV_FACTOR_MASK
          (.ofNat 8 (divToDivFactor (parentRate / rate))) with hwrite
        by_cases hret' : write.2 = 0
        · simp only [hon, if_true, ← hstop, hret, ne_eq, not_true_eq_false, if_false, ← hwrite, hret'] at h ⊢
          rw [setEnableState_regs h, regmapUpdateBits_regs hret']
          exact ⟨(div_of_enable ..).trans (div_of_factor _ hle), on_of_enable ..⟩
        · simp only [hon, if_true, ← hstop, hret, ne_eq, not_true_eq_false, if_false, ← hwrite, hret',
            not_false_eq_true] at h
      · simp only [hon, if_true, ← hstop, ne_eq, hret, not_false_eq_true] at h

/-- Setting the rate that rounding promised gives that rate, read back by any later access, and leaves the output on
or off as it was. -/
theorem clkSpmiPmicDivSetRate_roundRate {rate parentRate : ℕ} (hr : 0 < rate) (hrate : rate < 2 ^ 32)
    (hp : 0 < parentRate) (hparent : parentRate < 2 ^ 32) (hbus : bus.Answers) (junk : ℕ)
    (h : (clkSpmiPmicDivSetRate clkdiv bus (roundRate rate parentRate) parentRate junk).2 = 0) :
    let after := (clkSpmiPmicDivSetRate clkdiv bus (roundRate rate parentRate) parentRate junk).1
    (∃ k, Chosen rate parentRate k ∧ (output clkdiv after.regs).div = 2 ^ k) ∧
      (output clkdiv after.regs).on = (output clkdiv bus.regs).on ∧
      ∀ bus' : Bus, bus'.Answers → bus'.regs = after.regs → ∀ junk',
        (clkSpmiPmicDivRecalcRate clkdiv bus' parentRate junk').2 = roundRate rate parentRate := by
  obtain ⟨k, hk⟩ := exists_chosen hr hrate hp hparent
  obtain ⟨hdiv, hon⟩ := clkSpmiPmicDivSetRate_output hbus h
  have hpow : (output clkdiv
      (clkSpmiPmicDivSetRate clkdiv bus (roundRate rate parentRate) parentRate junk).1.regs).div = 2 ^ k := by
    rw [hdiv, hk.eq, divToDivFactor_div_div hk.le_six hk.le_parent, divFactorToDiv_succ]
  refine ⟨⟨k, hk, hpow⟩, hon, fun bus' hbus' hregs junk' => ?_⟩
  rw [clkSpmiPmicDivRecalcRate, regmapRead_eq hbus', hregs]
  dsimp only
  rw [toNat_and_seven]
  exact (congrArg (parentRate / ·) hpow).trans hk.eq.symm

end

/-- The first divider of the PMIC as the camera's clock, while it is running. -/
theorem clkSpmiPmicDivSetRate_roundRate_camera :
    (clkSpmiPmicDivRecalcRate ⟨0x5b00, 52⟩
      ⟨(clkSpmiPmicDivSetRate ⟨0x5b00, 52⟩ ⟨fun _ => 0x80, [], [], []⟩ (roundRate 9600000 19200000) 19200000 0).1.regs,
        [], [], []⟩ 19200000 0).2 = roundRate 9600000 19200000 :=
  (@clkSpmiPmicDivSetRate_roundRate ⟨0x5b00, 52⟩ ⟨fun _ => 0x80, [], [], []⟩ 9600000 19200000 (by decide) (by decide)
    (by decide) (by decide) (by intro b h; cases h) 0 (by decide +kernel)).2.2 _ (by intro b h; cases h) rfl 0

theorem spmiPmicDivClkHwGet_lt {cc : Cc} {arg : BitVec 32} {i : ℕ} (h : spmiPmicDivClkHwGet cc arg = .ok i) :
    i < cc.nclks := by
  unfold spmiPmicDivClkHwGet at h
  dsimp only at h
  split at h
  · cases h
  · cases h
    omega

section
variable {cc : Cc}

/-- Bases wrap after 256 outputs. -/
theorem clks_apart (hn : cc.nclks ≤ 256) {i j : ℕ} (hi : i < cc.nclks) (hj : j < cc.nclks) (h : i ≠ j) :
    (cc.clks i).base ≠ (cc.clks j).base ∧ (cc.clks i).base + REG_DIV_CTL1 ≠ (cc.clks j).base + REG_EN_CTL ∧
      (cc.clks i).base + REG_EN_CTL ≠ (cc.clks j).base + REG_DIV_CTL1 := by
  simp only [Cc.clks, REG_DIV_CTL1, REG_EN_CTL]
  omega

theorem clks_fits (hcxo : 46 ≤ cc.cxoHz) (i : ℕ) : (cc.clks i).Fits cc.cxoHz := by
  have hns : NSEC_PER_SEC / cc.cxoHz ≤ NSEC_PER_SEC / 46 := Nat.div_le_div_left hcxo (by norm_num)
  refine ⟨by omega, rfl, ?_⟩
  simp only [Cc.clks]
  unfold NSEC_PER_SEC at hns ⊢
  omega

/-- What is done to one output leaves the others alone. -/
theorem output_of_follows (hn : cc.nclks ≤ 256) {i j : ℕ} (hi : i < cc.nclks) (hj : j < cc.nclks) (h : i ≠ j)
    {bus bus' : Bus} (hfollows : Follows cc.cxoHz (cc.clks j) bus bus') :
    output (cc.clks i) bus'.regs = output (cc.clks i) bus.regs := by
  obtain ⟨hbase, hdiv, hen⟩ := clks_apart hn hi hj h
  rw [output, output, hfollows.frame _ (fun h => hbase (Nat.add_right_cancel h)) hdiv,
    hfollows.frame _ hen fun h => hbase (Nat.add_right_cancel h)]

/-- What has been done to each output is right, and no register but theirs has changed. -/
structure Right (cc : Cc) (regs : ℕ → BitVec 8) (s : State) : Prop where
  follow : ∀ i < cc.nclks,
    (output (cc.clks i) regs).follow cc.cxoHz (cc.clks i).base (s.log i) = some (output (cc.clks i) s.regs)
  frame : ∀ reg, (∀ i < cc.nclks, reg ≠ (cc.clks i).base + REG_DIV_CTL1 ∧ reg ≠ (cc.clks i).base + REG_EN_CTL) →
    s.regs reg = regs reg

theorem step_right (hn : cc.nclks ≤ 256) (hcxo : 46 ≤ cc.cxoHz) {regs : ℕ → BitVec 8} (s : State) (c : Call)
    (hs : Right cc regs s) (hreads : ∀ b ∈ c.reads, b = false) : Right cc regs (step cc s c) := by
  unfold step
  cases hget : spmiPmicDivClkHwGet cc c.arg with
  | error e => exact hs
  | ok j =>
      have hj := spmiPmicDivClkHwGet_lt hget
      have hexec :=
        @exec_follows cc.cxoHz (cc.clks j) ⟨s.regs, c.reads, c.updates, []⟩ (clks_fits hcxo j) hreads c.op c.junk
      obtain ⟨es, hes, hfollow⟩ := hexec.events
      rw [List.nil_append] at hes
      constructor
      · intro i hi
        dsimp only
        by_cases h : i = j
        · rw [h, Function.update_self, Output.follow_append (hs.follow j hj), hes]
          exact hfollow
        · rw [Function.update_of_ne h, hs.follow i hi]
          exact congrArg some (output_of_follows hn hi hj h hexec).symm
      · intro reg hreg
        exact (hexec.frame reg (hreg j hj).1 (hreg j hj).2).trans (hs.frame reg hreg)

/-- In every run in which no read fails, whatever updates do, each output is switched and divided as its hardware
wants it, to a nanosecond a period, and ends with nothing to settle. -/
theorem run_right (hn : cc.nclks ≤ 256) (hcxo : 46 ≤ cc.cxoHz) (regs : ℕ → BitVec 8) (calls : List Call)
    (hreads : ∀ c ∈ calls, ∀ b ∈ c.reads, b = false) :
    Right cc regs (run (step cc) ⟨regs, fun _ => []⟩ calls) := by
  have hstart : Right cc regs ⟨regs, fun _ => []⟩ := ⟨fun _ _ => rfl, fun _ _ => rfl⟩
  exact run_invariant (step_right hn hcxo) hstart (always_of_forall hreads _)

/-- The second of three outputs is switched on and its rate halved, and once the write of the divider fails. -/
theorem run_right_three :
    Right ⟨0x5b00, 3, 19200000⟩ (fun _ => 0) (run (step ⟨0x5b00, 3, 19200000⟩) ⟨fun _ => 0, fun _ => []⟩
      [⟨2, .enable, [], [], 0⟩, ⟨2, .setRate 9600000 19200000, [], [false, true], 0⟩,
        ⟨2, .setRate 9600000 19200000, [], [], 0⟩]) :=
  run_right (by decide) (by decide) _ _ (by decide)

end
end Sirius.Clk
