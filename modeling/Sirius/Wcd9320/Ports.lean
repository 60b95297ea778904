import Sirius.Wcd9320.Streams

/-!
# The slave ports between hw_params and STOP

A port stays enabled behind a STOP if it has left the list of the interface since it was enabled, if the
stream has no runtime, or if the write fails; and a hw_params that fails leaves the ports enabled that it
had come past.
-/
namespace Sirius.Wcd9320
open ListHead Runs

theorem portCfgs_rx : ∀ p : RxPort, portCfg .playback (slimRxCh p).port ∈ portCfgs ∧
    WCD9320_SLIM_PGD_RX_PORT_MULTI_CHNL_0 (slimRxCh p).port ∉ portCfgs := by
  decide

theorem portCfgs_tx : ∀ p : TxPort, portCfg .capture (slimTxCh p).port ∈ portCfgs ∧
    WCD9320_SLIM_PGD_TX_PORT_MULTI_CHNL_0 (slimTxCh p).port ∉ portCfgs ∧
    WCD9320_SLIM_PGD_TX_PORT_MULTI_CHNL_1 (slimTxCh p).port ∉ portCfgs := by
  decide

section
variable {env : Env} {dev dev' : Device} {L : Dai → List Node} {d : Dai}

/-- The channels of an interface are of its direction. -/
theorem Routed.channel_kind (h : Routed dev.wcd L) {ch : SlimCh} (hch : ch ∈ channels dev.wcd d) :
    (d.stream = .playback ∧ ∃ p : RxPort, ch = slimRxCh p) ∨ (d.stream = .capture ∧ ∃ p : TxPort, ch = slimTxCh p) := by
  rw [h.channels_eq, List.mem_filterMap] at hch
  obtain ⟨x, hx, hch⟩ := hch
  cases x with
  | dai e => exact absurd hx (h.no_head d e)
  | rx p =>
      have hpb := muxDai_isPlayback ((h.rx p d).1 hx)
      rw [h.ch_rx] at hch
      refine .inl ⟨?_, p, (Option.some.inj hch).symm⟩
      cases d <;> first | rfl | exact absurd hpb id
  | tx p =>
      have hcap := (h.tx p d hx).1
      rw [h.ch_tx] at hch
      refine .inr ⟨?_, p, (Option.some.inj hch).symm⟩
      cases d <;> first | rfl | exact absurd hcap id

/-- What hw_params writes to the configuration register of a slave port enables the port. -/
theorem Routed.configWrites_val (h : Routed dev.wcd L) {w : ℕ × ℕ}
    (hw : w ∈ configWrites d.stream (channels dev.wcd d)) (hreg : w.1 ∈ portCfgs) :
    w.2 = WCD9320_SLIM_WATER_MARK_VAL := by
  obtain ⟨ch, hch, hw⟩ := List.mem_flatMap.1 hw
  rcases h.channel_kind hch with ⟨hstream, p, rfl⟩ | ⟨hstream, p, rfl⟩
  · rw [hstream, portWrites] at hw
    rcases List.mem_cons.1 hw with rfl | hw
    · exact absurd hreg (portCfgs_rx p).2
    · rw [List.mem_singleton.1 hw]
  · rw [hstream, portWrites] at hw
    rcases List.mem_cons.1 hw with rfl | hw
    · exact absurd hreg (portCfgs_tx p).2.1
    · rcases List.mem_cons.1 hw with rfl | hw
      · exact absurd hreg (portCfgs_tx p).2.2
      · rw [List.mem_singleton.1 hw]

theorem mem_hwParamsEnables {rate reg : ℕ} :
    reg ∈ hwParamsEnables env dev d rate ↔ reg ∈ (hwParamsWrites env dev d rate).map Prod.fst ∧ reg ∈ portCfgs := by
  rw [hwParamsEnables, List.mem_filter, decide_eq_true_eq]

/-- Behind hw_params a slave port is enabled if it was before or if hw_params has enabled it. -/
theorem Configured.enabled_iff (h : Routed dev.wcd L) {ret : ℤ} (hconf : Configured env dev d dev' ret) {rate : ℕ}
    (hrate : rate ∈ rates) {reg : ℕ} (hreg : reg ∈ portCfgs) :
    Enabled dev' reg ↔ reg ∈ hwParamsEnables env dev d rate ∨ Enabled dev reg := by
  have hwrites : (if env.kcalloc then written env dev.ifWrites (configWrites d.stream (channels dev.wcd d)) else []) =
      hwParamsWrites env dev d rate := by
    rw [hwParamsWrites]
    exact if_congr (by simp [hrate]) rfl rfl
  have hval : ∀ w ∈ hwParamsWrites env dev d rate, w.1 = reg → w.2 = WCD9320_SLIM_WATER_MARK_VAL := by
    rintro w hw rfl
    rw [hwParamsWrites] at hw
    split at hw
    · exact h.configWrites_val ((written_sublist env _ _).subset hw) hreg
    · cases hw
  unfold Enabled
  rw [hconf.ifRegmap, hwrites, applyWrites_apply _ hval, mem_hwParamsEnables, and_iff_left hreg]
  by_cases hmem : reg ∈ (hwParamsWrites env dev d rate).map Prod.fst
  · rw [if_pos hmem]
    exact iff_of_true (by decide) (.inl hmem)
  · rw [if_neg hmem, or_iff_right hmem]

end

/-- After STOP every slave port that the stream's hw_params enabled is disabled; a hw_params that returns an
error leaves none enabled that was not before. -/
def PortsClosed (state : StreamState) : StreamAct → Prop
  | .trigger d .stop env =>
      ∀ reg ∈ state.enabled d, ¬Enabled (streamStep streaming state (.trigger d .stop env)).dev reg
  | .hwParams d rate env =>
      ∀ dev' ret, wcd9320HwParams env WALK state.dev d d.stream rate = some (dev', ret) → ret ≠ 0 →
        ∀ reg ∈ portCfgs, Enabled dev' reg → Enabled state.dev reg
  | _ => True

/-- At STOP the ports that hw_params enabled are disabled already, or the stream has a runtime, they are on
its list and the write lands. Where hw_params writes a port's registers and a later write or the allocation
of the runtime fails, the port was enabled before. -/
def PortsKept (state : StreamState) : StreamAct → Prop
  | .trigger d .stop env =>
      ∀ reg ∈ state.enabled d, ¬Enabled state.dev reg ∨
        (state.dev.dai d).sruntime = true ∧ reg ∈ stopDisables env.toEnv state.dev d
  | .hwParams d rate env =>
      written env state.dev.ifWrites (configWrites d.stream (channels state.dev.wcd d)) ≠
          configWrites d.stream (channels state.dev.wcd d) ∨
        (state.dev.dai d).sruntime = false ∧ env.slimStreamAllocate < 0 →
      ∀ reg ∈ hwParamsEnables env state.dev d rate, Enabled state.dev reg
  | _ => True

section
variable {state : StreamState} {L : Dai → List Node}

theorem Routed.stop_eq (h : Routed state.dev.wcd L) (d : Dai) (env : TriggerEnv)
    (hrun : (state.dev.dai d).sruntime = true) :
    ∃ dev', wcd9320Trigger env streaming WALK state.dev d d.stream .stop = some (dev', 0) ∧
      ∀ reg, dev'.ifRegmap reg =
        if reg ∈ stopDisables env.toEnv state.dev d then SLAVE_PORT_DISABLE else state.dev.ifRegmap reg := by
  have hdown : Routed (state.dev.setStreamUp d false).wcd L := h
  obtain ⟨dev', hdisable, -, -, hreg⟩ := hdown.slimPortsDisable_eq env.toEnv d
  refine ⟨dev', ?_, hreg⟩
  simp only [wcd9320Trigger, hrun, streaming, hdisable, Option.bind_eq_bind, Option.bind_some]
  rfl

theorem portsClosed_stop_iff (h : Routed state.dev.wcd L) (d : Dai) (env : TriggerEnv) :
    PortsClosed state (.trigger d .stop env) ↔ PortsKept state (.trigger d .stop env) := by
  refine forall₂_congr fun reg _ => ?_
  by_cases hrun : (state.dev.dai d).sruntime = true
  · obtain ⟨dev', htrigger, hreg⟩ := h.stop_eq d env hrun
    rw [streamStep, htrigger]
    simp only [Enabled, hreg, hrun, true_and]
    by_cases hmem : reg ∈ stopDisables env.toEnv state.dev d
    · simp [hmem, SLAVE_PORT_DISABLE]
    · simp [hmem]
  · rw [Bool.not_eq_true] at hrun
    have htrigger : wcd9320Trigger env streaming WALK state.dev d d.stream .stop = some (state.dev, 0) := by
      rw [wcd9320Trigger, if_pos hrun]
    rw [streamStep, htrigger]
    simp [hrun]

theorem portsClosed_hwParams_iff (h : Routed state.dev.wcd L) (d : Dai) (rate : ℕ) (env : Env) :
    PortsClosed state (.hwParams d rate env) ↔ PortsKept state (.hwParams d rate env) := by
  obtain ⟨dev', ret, heq, hrefused, hconf⟩ := h.hwParams_configured env d rate
  have hone : PortsClosed state (.hwParams d rate env) ↔
      (ret ≠ 0 → ∀ reg ∈ portCfgs, Enabled dev' reg → Enabled state.dev reg) := by
    constructor
    · exact fun hall => hall dev' ret heq
    · intro hthis dev'' ret' heq'
      rw [heq] at heq'
      cases heq'
      exact hthis
  rw [hone]
  by_cases hrate : rate ∈ rates
  · have hconf := hconf hrate
    -- nothing is enabled where the array of channel numbers is not allocated
    by_cases hk : env.kcalloc = true
    · have hret : ret ≠ 0 ↔ (written env state.dev.ifWrites (configWrites d.stream (channels state.dev.wcd d)) ≠
            configWrites d.stream (channels state.dev.wcd d) ∨
          (state.dev.dai d).sruntime = false ∧ env.slimStreamAllocate < 0) := by
        rw [Ne, hconf.ret_eq_zero, and_iff_right hk, not_and_or, not_or, Bool.not_eq_true, not_not]
      rw [PortsKept, hret]
      refine imp_congr_right fun _ => ⟨fun hall reg hmem => ?_, fun hall reg hreg hen => ?_⟩
      · have hreg := (mem_hwParamsEnables.1 hmem).2
        exact hall reg hreg ((hconf.enabled_iff h hrate hreg).2 (.inl hmem))
      · exact ((hconf.enabled_iff h hrate hreg).1 hen).elim (hall reg) id
    · have hnone : hwParamsEnables env state.dev d rate = [] := by
        rw [hwParamsEnables, hwParamsWrites, if_neg fun hboth => hk hboth.2]
        rfl
      rw [PortsKept, hnone]
      refine iff_of_true (fun _ reg hreg hen => ?_) fun _ reg hmem => absurd hmem List.not_mem_nil
      have := (hconf.enabled_iff h hrate hreg).1 hen
      rw [hnone] at this
      exact this.resolve_left List.not_mem_nil
  · have hnone : hwParamsEnables env state.dev d rate = [] := by
      rw [hwParamsEnables, hwParamsWrites, if_neg fun hboth => hrate hboth.1]
      rfl
    obtain ⟨rfl, -⟩ := hrefused hrate
    rw [PortsKept, hnone]
    exact iff_of_true (fun _ reg _ hen => hen) fun _ reg hmem => absurd hmem List.not_mem_nil

theorem portsClosed_iff (h : Routed state.dev.wcd L) (a : StreamAct) : PortsClosed state a ↔ PortsKept state a := by
  cases a with
  | write w => exact Iff.rfl
  | hwParams d rate env => exact portsClosed_hwParams_iff h d rate env
  | trigger d cmd env =>
      cases cmd with
      | stop => exact portsClosed_stop_iff h d env
      | _ => exact Iff.rfl
  | widget d event => exact Iff.rfl

end

/-- Over every sequence of writes, hw_params, triggers and power events, the slave ports are enabled only
while streaming exactly where every STOP reaches the ports that were enabled and no hw_params that fails
has enabled any. -/
theorem ports_closed_iff (regmap : ℕ → BitVec 8) (ifRegmap : ℕ → ℕ) (as : List StreamAct) :
    Always (streamStep streaming) PortsClosed (streamRegistered regmap ifRegmap) as ↔
      Always (streamStep streaming) PortsKept (streamRegistered regmap ifRegmap) as := by
  refine always_iff_of_invariant (I := fun state => ∃ L, Routed state.dev.wcd L) ?_ ?_ ⟨_, probed_routed⟩
  · rintro state a ⟨L, h⟩ _
    exact h.streamStep streaming a
  · rintro state a ⟨L, h⟩
    exact portsClosed_iff h a

/-- Nothing fails. -/
def goodBus : TriggerEnv := ⟨⟨fun _ => 0, true, 0⟩, 0, 0⟩

/-- RX1 is routed to AIF1, the stream is configured and started; RX1 is taken off the list; the stream stops. -/
def unroutedBeforeStop : List StreamAct :=
  [.write (.rxMux RX1 1), .hwParams .aif1Pb 48000 goodBus.toEnv, .trigger .aif1Pb .start goodBus,
    .write (.rxMux RX1 0), .trigger .aif1Pb .stop goodBus]

theorem unroutedBeforeStop_not_closed :
    ¬Always (streamStep streaming) PortsClosed (streamRegistered (fun _ => 0) fun _ => 0) unroutedBeforeStop := by
  intro h
  have hstop := h.2.2.2.2.1 (WCD9320_SLIM_PGD_RX_PORT_CFG 16)
  revert hstop
  decide +kernel

end Sirius.Wcd9320
