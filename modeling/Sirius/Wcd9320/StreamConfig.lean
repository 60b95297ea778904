import Sirius.Wcd9320.Streams

/-!
# The stream configuration when a stream is prepared

hw_params allocates the channel numbers, the power-down of the AIF widget frees them and leaves their count,
and the trigger hands both to the SLIMbus core.
-/
namespace Sirius.Wcd9320
open ListHead Runs

/-- `chs` points to `ch_count` channel numbers, those of the most recent successful hw_params; it is null only
with none. -/
def ValidConfig (state : StreamState) (d : Dai) : Prop :=
  (state.dev.dai d).sconfig.chCount = (state.numbers d).length ∧
    ((state.dev.dai d).sconfig.chs = some (state.numbers d) ∨
      (state.dev.dai d).sconfig.chs = none ∧ (state.dev.dai d).sconfig.chCount = 0)

/-- The configuration is valid where the trigger calls `slim_stream_prepare`. -/
def ConfigValid (state : StreamState) : StreamAct → Prop
  | .trigger d cmd _ => cmd.Starts → (state.dev.dai d).sruntime = true → ValidConfig state d
  | _ => True

/-- No power-down and no failed hw_params has freed the numbers since the most recent successful hw_params,
or neither it nor any that failed since has found a channel. -/
def ConfigKept (state : StreamState) : StreamAct → Prop
  | .trigger d cmd _ =>
      cmd.Starts → (state.dev.dai d).sruntime = true →
        state.current d = true ∨ (state.dev.dai d).sconfig.chCount = 0 ∧ state.numbers d = []
  | _ => True

/-- What is current is there, and what is not has been freed. -/
structure Owned (state : StreamState) : Prop where
  routed : ∃ L, Routed state.dev.wcd L
  current : ∀ d, state.current d = true → (state.dev.dai d).sconfig.chs = some (state.numbers d) ∧
    (state.dev.dai d).sconfig.chCount = (state.numbers d).length
  freed : ∀ d, state.current d = false → (state.dev.dai d).sconfig.chs = none

section
variable {state : StreamState}

theorem Owned.of_same (h : Owned state) {dev : Device} {enabled : Dai → List ℕ} (hrouted : ∃ L, Routed dev.wcd L)
    (hsame : ∀ d, (dev.dai d).sconfig = (state.dev.dai d).sconfig) : Owned { state with dev, enabled } where
  routed := hrouted
  current d hd := by
    rw [hsame]
    exact h.current d hd
  freed d hd := by
    rw [hsame]
    exact h.freed d hd

/-- The configuration of one interface is written, or freed. -/
theorem Owned.hwParams (h : Owned state) {env : Env} {d : Dai} {dev' : Device} {ret : ℤ}
    (hconf : Configured env state.dev d dev' ret) (enabled : Dai → List ℕ) :
    Owned
      { dev := dev'
        enabled
        numbers := if ret = 0 then
          Function.update state.numbers d ((channels state.dev.wcd d).map SlimCh.chNum) else state.numbers
        current := Function.update state.current d (ret = 0) } := by
  refine ⟨?_, ?_, ?_⟩
  · obtain ⟨L, hrouted⟩ := h.routed
    exact ⟨L, by rw [hconf.wcd]; exact hrouted⟩
  · intro e he
    by_cases hed : e = d
    · subst hed
      have hret : ret = 0 := by simpa using he
      have hchs := hconf.chs
      rw [if_pos hret] at hchs
      simp [hret, hchs, hconf.chCount]
    · have he' : state.current e = true := by simpa [hed] using he
      rw [show (dev'.dai e) = state.dev.dai e from hconf.other e hed]
      by_cases hret : ret = 0 <;> simpa [hret, hed] using h.current e he'
  · intro e he
    by_cases hed : e = d
    · subst hed
      have hret : ret ≠ 0 := by simpa using he
      exact hconf.chs.trans (if_neg hret)
    · have he' : state.current e = false := by simpa [hed] using he
      rw [show (dev'.dai e) = state.dev.dai e from hconf.other e hed]
      exact h.freed e he'

theorem widgetEvent_sconfig (dev : Device) (d : Dai) (event : DapmEvent) (e : Dai) :
    ((widgetEvent dev d event).dai e).sconfig =
      if e = d ∧ event = .postPmd ∧ (d.IsPlayback ∨ d.IsCapture) then { (dev.dai e).sconfig with chs := none }
      else (dev.dai e).sconfig := by
  have hfree : ((dev.freeChs d).dai e).sconfig =
      if e = d then { (dev.dai e).sconfig with chs := none } else (dev.dai e).sconfig := by
    by_cases he : e = d
    · subst he
      simp [Device.freeChs, Device.setConfig]
    · simp [Device.freeChs, Device.setConfig, he]
  cases event with
  | postPmu => cases d <;> simp [widgetEvent, taikoCodecEnableSlimrx, taikoCodecEnableSlimtx]
  | postPmd =>
      cases d <;> simp [widgetEvent, taikoCodecEnableSlimrx, taikoCodecEnableSlimtx, Dai.IsPlayback, Dai.IsCapture,
        hfree]

theorem Owned.widget (h : Owned state) (d : Dai) (event : DapmEvent) :
    Owned (streamStep streaming state (.widget d event)) := by
  rw [streamStep]
  by_cases hfrees : event = .postPmd ∧ (d.IsPlayback ∨ d.IsCapture)
  · rw [if_pos hfrees]
    refine ⟨?_, ?_, ?_⟩
    · obtain ⟨L, hrouted⟩ := h.routed
      exact ⟨L, by rw [widgetEvent_wcd]; exact hrouted⟩
    · intro e he
      by_cases hed : e = d
      · subst hed
        simp at he
      · dsimp only
        rw [widgetEvent_sconfig, if_neg fun hall => hed hall.1]
        exact h.current e (by simpa [hed] using he)
    · intro e he
      by_cases hed : e = d
      · subst hed
        dsimp only
        rw [widgetEvent_sconfig, if_pos ⟨rfl, hfrees⟩]
      · dsimp only
        rw [widgetEvent_sconfig, if_neg fun hall => hed hall.1]
        exact h.freed e (by simpa [hed] using he)
  · rw [if_neg hfrees]
    refine h.of_same ?_ fun e => ?_
    · obtain ⟨L, hrouted⟩ := h.routed
      exact ⟨L, by rw [widgetEvent_wcd]; exact hrouted⟩
    · rw [widgetEvent_sconfig, if_neg fun hall => hfrees hall.2]

theorem Owned.step (h : Owned state) (a : StreamAct) : Owned (streamStep streaming state a) := by
  obtain ⟨L, hrouted⟩ := h.routed
  have hrouted' := hrouted.streamStep streaming a
  cases a with
  | write w =>
      rw [streamStep] at hrouted' ⊢
      split at hrouted'
      case h_1 wcd hput => exact h.of_same hrouted' fun d => rfl
      case h_2 => exact h
  | hwParams d rate env =>
      obtain ⟨dev', ret, heq, hrefused, hconf⟩ := hrouted.hwParams_configured env d rate
      rw [streamStep, heq]
      by_cases hrate : rate ∈ rates
      · simp only [hrate, if_true]
        exact h.hwParams (hconf hrate) _
      · obtain ⟨rfl, hret⟩ := hrefused hrate
        simp only [hrate, hret, if_false]
        exact h.of_same h.routed fun e => rfl
  | trigger d cmd env =>
      rw [streamStep] at hrouted' ⊢
      split at hrouted'
      case h_1 dev' ret heq => exact h.of_same hrouted' (wcd9320Trigger_sameConfig hrouted heq).sconfig
      case h_2 => exact h
  | widget d event => exact h.widget d event

theorem Owned.configValid_iff (h : Owned state) (a : StreamAct) : ConfigValid state a ↔ ConfigKept state a := by
  cases a with
  | trigger d cmd env =>
      refine imp_congr_right fun _ => imp_congr_right fun _ => ?_
      cases hcurrent : state.current d with
      | true => exact iff_of_true ⟨(h.current d hcurrent).2, .inl (h.current d hcurrent).1⟩ (.inl rfl)
      | false =>
          have hfreed := h.freed d hcurrent
          simp only [ValidConfig, hfreed, Bool.false_eq_true, false_or, true_and, reduceCtorEq]
          constructor
          · rintro ⟨hcount, hzero⟩
            exact ⟨hzero, List.length_eq_zero_iff.1 (hcount ▸ hzero)⟩
          · rintro ⟨hzero, hnone⟩
            exact ⟨by rw [hnone, hzero]; rfl, hzero⟩
  | _ => exact Iff.rfl

end

theorem registered_owned (regmap : ℕ → BitVec 8) (ifRegmap : ℕ → ℕ) : Owned (streamRegistered regmap ifRegmap) :=
  ⟨⟨_, probed_routed⟩, fun _ h => absurd h Bool.false_ne_true, fun _ _ => rfl⟩

/-- Over every order of hw_params, power events and triggers, the configuration is valid at every start
exactly where nothing has freed the channel numbers since they were written. -/
theorem config_valid_iff (regmap : ℕ → BitVec 8) (ifRegmap : ℕ → ℕ) (as : List StreamAct) :
    Always (streamStep streaming) ConfigValid (streamRegistered regmap ifRegmap) as ↔
      Always (streamStep streaming) ConfigKept (streamRegistered regmap ifRegmap) as :=
  always_iff_of_invariant (I := Owned) (fun _ a h _ => h.step a) (fun _ a h => h.configValid_iff a)
    (registered_owned regmap ifRegmap)

/-- RX1 is routed to AIF1 and a stream is configured; the power-down of an earlier stream comes before the start. -/
def delayedPowerDown : List StreamAct :=
  [.write (.rxMux RX1 1), .hwParams .aif1Pb 48000 ⟨fun _ => 0, true, 0⟩, .widget .aif1Pb .postPmd,
    .trigger .aif1Pb .start ⟨⟨fun _ => 0, true, 0⟩, 0, 0⟩]

theorem delayedPowerDown_not_valid :
    ¬Always (streamStep streaming) ConfigValid (streamRegistered (fun _ => 0) fun _ => 0) delayedPowerDown := by
  intro h
  have hvalid := h.2.2.2.1 (by decide) (by decide +kernel)
  unfold ValidConfig at hvalid
  revert hvalid
  decide +kernel

end Sirius.Wcd9320
