import Sirius.Wcd9320.Streams

/-!
# The rate of a playback stream

The walk over the channels reads the inputs of the interpolators from registers whose addresses it counts up by
hand. Where it writes is apart from where it reads, so the interpolators it finds are those of the routing it
started from.
-/
namespace Sirius.Wcd9320
open ListHead

/-- `WCD9320_CDC_CONN_RX1_B1_CTL` to `WCD9320_CDC_CONN_RX7_B1_CTL` -/
def connRxB1Ctl : ℕ → ℕ
  | 0 => WCD9320_REG 0x03 0x080
  | 1 => WCD9320_REG 0x03 0x083
  | 2 => WCD9320_REG 0x03 0x086
  | 3 => WCD9320_REG 0x03 0x088
  | 4 => WCD9320_REG 0x03 0x08A
  | 5 => WCD9320_REG 0x03 0x08C
  | _ => WCD9320_REG 0x03 0x08E

/-- `WCD9320_CDC_CONN_RX1_B2_CTL` to `WCD9320_CDC_CONN_RX7_B2_CTL` -/
def connRxB2Ctl : ℕ → ℕ
  | 0 => WCD9320_REG 0x03 0x081
  | 1 => WCD9320_REG 0x03 0x084
  | 2 => WCD9320_REG 0x03 0x087
  | 3 => WCD9320_REG 0x03 0x089
  | 4 => WCD9320_REG 0x03 0x08B
  | 5 => WCD9320_REG 0x03 0x08D
  | _ => WCD9320_REG 0x03 0x08F

/-- `WCD9320_CDC_RX1_B5_CTL` to `WCD9320_CDC_RX7_B5_CTL` -/
def rxB5Ctl : ℕ → ℕ
  | 0 => WCD9320_REG 0x02 0x0B4
  | 1 => WCD9320_REG 0x02 0x0BC
  | 2 => WCD9320_REG 0x02 0x0C4
  | 3 => WCD9320_REG 0x02 0x0CC
  | 4 => WCD9320_REG 0x02 0x0D4
  | 5 => WCD9320_REG 0x02 0x0DC
  | _ => WCD9320_REG 0x02 0x0E4

/-- The three MIX1 inputs of interpolator `j`. -/
def mix1Inputs (regmap : ℕ → BitVec 8) (j : ℕ) : List (BitVec 8) :=
  [regmap (connRxB1Ctl j) &&& 0x0F, (regmap (connRxB1Ctl j) >>> 4) &&& 0x0F, regmap (connRxB2Ctl j) &&& 0x0F]

/-- What an input has that selects port `n`: `RX_MIX1_INP_SEL_RX1` and on. -/
def inpSel (n : Fin 7) : BitVec 8 := BitVec.ofNat 8 (RX_MIX1_INP_SEL_RX1 + n)

/-- Interpolator `j` plays a port of the list. -/
def Plays (regmap : ℕ → BitVec 8) (list : List Node) (j : Fin 7) : Prop :=
  ∃ n : Fin 7, .rx (rxPort n) ∈ list ∧ inpSel n ∈ mix1Inputs regmap j

/-- The register with `rateIndex` in bits 7 to 5. -/
def withRate (rateIndex : ℕ) (v : BitVec 8) : BitVec 8 := (v &&& 0x1F#8) ||| (BitVec.ofNat 8 rateIndex <<< 5)

/-- The rate is set for these interpolators, and no other register has changed. -/
structure RateSet (rateIndex : ℕ) (S : Fin 7 → Prop) (regmap regmap' : ℕ → BitVec 8) : Prop where
  set : ∀ j : Fin 7, S j → regmap' (rxB5Ctl j) = withRate rateIndex (regmap (rxB5Ctl j))
  kept : ∀ reg, (∀ j : Fin 7, S j → reg ≠ rxB5Ctl j) → regmap' reg = regmap reg

theorem rxB5Ctl_inj : ∀ j k : Fin 7, rxB5Ctl j = rxB5Ctl k → j = k := by
  decide

theorem conn_ne_rxB5Ctl : ∀ j k : Fin 7, connRxB1Ctl j ≠ rxB5Ctl k ∧ connRxB2Ctl j ≠ rxB5Ctl k := by
  decide

theorem rates_length : rates.length = 6 := rfl

theorem rate_fits : ∀ i : Fin 6, (BitVec.ofNat 8 i <<< 5) &&& 0xE0#8 = BitVec.ofNat 8 i <<< 5 ∧
    (BitVec.ofNat 8 i <<< 5) &&& 0x1F#8 = 0 := by
  decide

theorem withRate_idem (i : Fin 6) (v : BitVec 8) : withRate i (withRate i v) = withRate i v := by
  have hlow : withRate i v &&& 0x1F#8 = v &&& 0x1F#8 := by
    rw [withRate, BitVec.and_or_distrib_right, (rate_fits i).2, BitVec.and_assoc, BitVec.and_self]
    exact BitVec.or_zero
  exact congrArg (· ||| BitVec.ofNat 8 i <<< 5) hlow

section
variable {rateIndex : ℕ} {S T : Fin 7 → Prop} {regmap regmap' regmap'' : ℕ → BitVec 8}

theorem RateSet.refl (rateIndex : ℕ) (regmap : ℕ → BitVec 8) : RateSet rateIndex (fun _ => False) regmap regmap :=
  ⟨fun _ h => h.elim, fun _ _ => rfl⟩

theorem RateSet.congr (h : RateSet rateIndex S regmap regmap') (hST : ∀ j, S j ↔ T j) :
    RateSet rateIndex T regmap regmap' :=
  ⟨fun j hj => h.set j ((hST j).2 hj), fun reg hreg => h.kept reg fun j hj => hreg j ((hST j).1 hj)⟩

theorem RateSet.trans (hi : rateIndex < 6) (h : RateSet rateIndex S regmap regmap')
    (h' : RateSet rateIndex T regmap' regmap'') : RateSet rateIndex (fun j => S j ∨ T j) regmap regmap'' := by
  constructor
  · intro j hj
    by_cases hT : T j
    · rw [h'.set j hT]
      by_cases hS : S j
      · rw [h.set j hS]
        exact withRate_idem ⟨rateIndex, hi⟩ _
      · rw [h.kept _ fun k hk heq => hS (rxB5Ctl_inj j k heq ▸ hk)]
    · rw [h'.kept _ fun k hk heq => hT (rxB5Ctl_inj j k heq ▸ hk)]
      exact h.set j (hj.resolve_right hT)
  · intro reg hreg
    rw [h'.kept reg fun j hj => hreg j (.inr hj), h.kept reg fun j hj => hreg j (.inl hj)]

theorem RateSet.mix1Inputs (h : RateSet rateIndex S regmap regmap') (j : Fin 7) :
    mix1Inputs regmap' j = mix1Inputs regmap j := by
  rw [Wcd9320.mix1Inputs, Wcd9320.mix1Inputs, h.kept _ fun k _ => (conn_ne_rxB5Ctl j k).1,
    h.kept _ fun k _ => (conn_ne_rxB5Ctl j k).2]

theorem mixSelects_iff (regmap : ℕ → BitVec 8) (j : Fin 7) (inp : BitVec 8) :
    mixSelects regmap (connRxB1Ctl j) inp = true ↔ inp ∈ mix1Inputs regmap j := by
  have hnext : ∀ j : Fin 7, connRxB1Ctl j + 1 = connRxB2Ctl j := by
    decide
  rw [mixSelects, decide_eq_true_eq, hnext j, mix1Inputs, List.mem_cons, List.mem_cons, List.mem_singleton,
    eq_comm, eq_comm (b := inp), eq_comm (b := inp)]

theorem rateSet_updateBits (hi : rateIndex < 6) (regmap : ℕ → BitVec 8) (j : Fin 7) :
    RateSet rateIndex (· = j) regmap
      (updateBits regmap (WCD9320_CDC_RX1_B5_CTL + 8 * j) 0xE0 (BitVec.ofNat 8 rateIndex <<< 5)) := by
  have hreg : ∀ j : Fin 7, WCD9320_CDC_RX1_B5_CTL + 8 * j = rxB5Ctl j := by
    decide
  rw [hreg j]
  constructor
  · rintro k hk
    rw [show k = j from hk, updateBits, Function.update_self]
    exact congrArg (regmap (rxB5Ctl j) &&& 0x1F#8 ||| ·) (rate_fits ⟨rateIndex, hi⟩).1
  · intro reg hne
    exact Function.update_of_ne (hne j rfl) ..

theorem rateSet_setInterpolatorRates (hi : rateIndex < 6) (inp : BitVec 8) (left j : ℕ) (hj : left + j = 7) (reg : ℕ)
    (hreg : 0 < left → reg = connRxB1Ctl j) (regmap : ℕ → BitVec 8) :
    RateSet rateIndex (fun k => j ≤ k ∧ inp ∈ mix1Inputs regmap k) regmap
      (setInterpolatorRates rateIndex inp left j reg regmap) := by
  induction left generalizing j reg regmap with
  | zero => exact (RateSet.refl rateIndex regmap).congr fun k => iff_of_false id fun h => by omega
  | succ left ih =>
      obtain rfl := hreg (Nat.succ_pos left)
      have hstride : ∀ j : Fin 7, (j : ℕ) + 1 < 7 →
          (if (j : ℕ) < 2 then connRxB1Ctl j + 3 else connRxB1Ctl j + 2) = connRxB1Ctl (j + 1) := by
        decide
      have hlt : j < 7 := by omega
      have hrest := fun regmap' => ih (j + 1) (by omega) (if j < 2 then connRxB1Ctl j + 3 else connRxB1Ctl j + 2)
        (fun hleft => hstride ⟨j, hlt⟩ (show j + 1 < 7 by omega)) regmap'
      rw [setInterpolatorRates]
      by_cases hsel : mixSelects regmap (connRxB1Ctl j) inp = true
      · have hfirst := rateSet_updateBits hi regmap ⟨j, hlt⟩
        have hmem := (mixSelects_iff regmap ⟨j, hlt⟩ inp).1 hsel
        rw [if_pos hsel]
        refine (hfirst.trans hi (hrest _)).congr fun k => ?_
        rw [hfirst.mix1Inputs k]
        constructor
        · rintro (rfl | ⟨hle, hk⟩)
          · exact ⟨le_rfl, hmem⟩
          · exact ⟨by omega, hk⟩
        · rintro ⟨hle, hk⟩
          rcases hle.eq_or_lt with heq | hlt'
          · exact .inl (Fin.ext heq.symm)
          · exact .inr ⟨hlt', hk⟩
      · rw [if_neg hsel]
        refine (hrest regmap).congr fun k => and_congr_left fun hk => ⟨fun hle => by omega, fun hle => ?_⟩
        rcases hle.eq_or_lt with heq | hlt'
        · refine absurd ((mixSelects_iff regmap ⟨j, hlt⟩ inp).2 ?_) hsel
          rw [show ((⟨j, hlt⟩ : Fin 7) : ℕ) = k from heq]
          exact hk
        · exact hlt'

theorem rateSet_walk (hi : rateIndex < 6) {wcd : Codec} {L : Dai → List Node} (h : Routed wcd L) (xs : List Node)
    (hxs : ∀ x ∈ xs, ∃ n : Fin 7, x = .rx (rxPort n)) (regmap : ℕ → BitVec 8) :
    ∃ regmap', forEach (setRate wcd rateIndex .playback) xs regmap = some regmap' ∧
      RateSet rateIndex (Plays regmap xs) regmap regmap' := by
  induction xs generalizing regmap with
  | nil => exact ⟨regmap, rfl, (RateSet.refl rateIndex regmap).congr fun j =>
      iff_of_false id fun ⟨n, hn, _⟩ => List.not_mem_nil hn⟩
  | cons x xs ih =>
      obtain ⟨n, rfl⟩ := hxs x List.mem_cons_self
      have hinp : ∀ n : Fin 7, BitVec.ofInt 8 ((slimRxCh (rxPort n)).port + RX_MIX1_INP_SEL_RX1 - 16) = inpSel n := by
        decide
      have hbody : setRate wcd rateIndex .playback regmap (.rx (rxPort n)) =
          some (.yield (setInterpolatorRates rateIndex (inpSel n) 7 0 (connRxB1Ctl 0) regmap)) := by
        rw [setRate, setPlaybackRate, h.ch_rx, ← hinp n]
        rfl
      have hfirst := rateSet_setInterpolatorRates hi (inpSel n) 7 0 rfl _ (fun _ => rfl) regmap
      obtain ⟨regmap', hwalk, hrest⟩ := ih (fun y hy => hxs y (List.mem_cons_of_mem _ hy)) _
      refine ⟨regmap', ?_, (hfirst.trans hi hrest).congr fun j => ?_⟩
      · rw [forEach, hbody]
        exact hwalk
      · unfold Plays
        simp only [hfirst.mix1Inputs j, List.mem_cons, Nat.zero_le, true_and]
        constructor
        · rintro (hsel | ⟨m, hm, hsel⟩)
          · exact ⟨n, .inl rfl, hsel⟩
          · exact ⟨m, .inr hm, hsel⟩
        · rintro ⟨m, hm | hm, hsel⟩
          · rw [rxPort_inj.1 (Node.rx.inj hm)] at hsel
            exact .inl hsel
          · exact .inr ⟨m, hm, hsel⟩

end

/-- No mux and no switch puts anything but the first seven ports on a playback list. -/
theorem InReach.rxPorts {wcd : Codec} {L : Dai → List Node} (hreach : InReach wcd L) (h : Routed wcd L) {d : Dai}
    (hd : d.IsPlayback) {x : Node} (hx : x ∈ L d) : ∃ n : Fin 7, x = .rx (rxPort n) := by
  obtain ⟨p, rfl⟩ := h.playback hd hx
  by_contra hne
  have hzero := hreach.rx p fun n hp => hne ⟨n, congrArg Node.rx hp⟩
  have hmux := (h.rx p d).1 hx
  rw [hzero] at hmux
  cases hmux

/-- Whatever ports are on the list and whatever the inputs select, a playback hw_params sets the rate of the
interpolators that play the list and of no other; a rate that is not in the table changes nothing. -/
theorem playback_rate {dev : Device} {L : Dai → List Node} (h : Routed dev.wcd L) (env : Env) (d : Dai)
    (hports : ∀ x ∈ L d, ∃ n : Fin 7, x = .rx (rxPort n)) (rate : ℕ) :
    ∃ dev' ret, wcd9320HwParams env WALK dev d .playback rate = some (dev', ret) ∧
      (ret = 0 → ∃ rateIndex, rates[rateIndex]? = some rate ∧
        RateSet rateIndex (Plays dev.regmap (L d)) dev.regmap dev'.regmap) ∧
      (rate ∉ rates → dev' = dev ∧ ret = -EINVAL) := by
  obtain ⟨dev', ret, hrun, hset⟩ := h.hwParams env d .playback rate (Nat.lt_succ_of_le (h.length_le d))
  refine ⟨dev', ret, hrun, fun hret => ?_, hset.refused⟩
  obtain ⟨rateIndex, hidx, hwalk⟩ := hset.walk hret
  obtain ⟨hlt, hrate, -⟩ := List.findIdx?_eq_some_iff_getElem.1 hidx
  obtain ⟨regmap', hwalk', hrates⟩ := rateSet_walk (rates_length ▸ hlt) h (L d) hports dev.regmap
  obtain rfl : regmap' = dev'.regmap := Option.some.inj (hwalk'.symm.trans hwalk)
  exact ⟨rateIndex, List.getElem?_eq_some_iff.2 ⟨hlt, of_decide_eq_true hrate⟩, hrates⟩

/-- RX1 is routed to AIF1 and to the first input of RX3 MIX1. -/
def playsOnRx3 : Device :=
  { (streamRegistered (Function.update (fun _ => 0) (connRxB1Ctl 2) 5) fun _ => 0).dev with
    wcd := (putAll registered [.rxMux RX1 1]).getD registered }

theorem playback_rate_rx3 : ∃ dev', wcd9320HwParams ⟨fun _ => 0, true, 0⟩ WALK playsOnRx3 .aif1Pb .playback 48000 =
    some (dev', 0) ∧ dev'.regmap (rxB5Ctl 2) = 0x60 := by
  obtain ⟨wcd, L, hput, hrouted, hreach⟩ := putAll_routed probed_routed registered_inReach [.rxMux 0 1]
  have hwcd : playsOnRx3.wcd = wcd := congrArg (Option.getD · registered) hput
  subst hwcd
  obtain ⟨dev', ret, hrun, hset, -⟩ := playback_rate hrouted ⟨fun _ => 0, true, 0⟩ .aif1Pb
    (fun x hx => hreach.rxPorts hrouted (d := .aif1Pb) trivial hx) 48000
  have hret : (wcd9320HwParams ⟨fun _ => 0, true, 0⟩ WALK playsOnRx3 .aif1Pb .playback 48000).map Prod.snd =
      some 0 := by
    decide +kernel
  rw [hrun] at hret
  obtain rfl : ret = 0 := Option.some.inj hret
  obtain ⟨rateIndex, hidx, hrates⟩ := hset rfl
  have hmem : .rx (rxPort 0) ∈ L .aif1Pb := (hrouted.rx _ _).2 (by decide +kernel)
  refine ⟨dev', hrun, (hrates.set 2 ⟨0, hmem, by decide +kernel⟩).trans ?_⟩
  obtain ⟨hlt, hrate⟩ := List.getElem?_eq_some_iff.1 hidx
  have hidx : ∀ i : Fin 6, rates.get (i.cast rates_length.symm) = 48000 → withRate i 0 = 0x60 := by
    decide
  exact hidx ⟨rateIndex, hlt⟩ hrate

end Sirius.Wcd9320
