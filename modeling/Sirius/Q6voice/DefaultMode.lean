import Sirius.Q6voice.Calls

/-!
# Waiting for both directions

With `require_both` set and no stream of its own, a path runs exactly while both of its
directions are marked, whichever commands of a start fail.
-/
namespace Sirius.Q6voice
open Runs

/-- `require_both` set, `attach_stream` and `playback_port` clear; commands that undo or stop succeed. -/
structure Call.Default (c : Call) : Prop where
  requireBoth : c.prm.requireBoth = true
  attachStream : c.prm.attachStream = false
  playbackPort : c.prm.playbackPort = 0
  undoes : Undoes c.env

abbrev DefaultCall := { c : Call // c.Default }

/-- The session of the path is up exactly while both directions are marked. -/
structure Settled (p : Path) : Prop where
  owned : Owned p
  up : p.started = 3 → p.dsp.Up
  down : p.started ≠ 3 → p.dsp.Down
  sound : p.Sound

theorem newPath_settled : Settled newPath := by
  refine ⟨fun _ => rfl, fun h => absurd h (by decide), fun _ => ⟨rfl, rfl, rfl⟩, ?_⟩
  exact fun e he => absurd he List.not_mem_nil

theorem or_bit_ne : ∀ (s : BitVec 2) (capture : Bool), s &&& bit capture = 0 → s ≠ 3 := by
  decide

theorem and_not_bit_ne : ∀ (s : BitVec 2) (capture : Bool), s &&& ~~~bit capture ≠ 3 := by
  decide

section
variable {prm : Params} {env : Env}

theorem wanted_requireBoth (h : prm.requireBoth = true) (s : BitVec 2) : wanted prm s = decide (s = 3) := by
  rw [wanted, h, if_pos rfl]

theorem startPath_settled (hboth : prm.requireBoth = true) (hoff : prm.attachStream = false) (hU : Undoes env)
    {p : Path} (h : Settled p) (capture : Bool) : Settled (startPath prm env capture p).1 := by
  rcases startPath_cases prm env capture p with ⟨-, -, he⟩ | ⟨-, he⟩ | ⟨hm, -, he⟩
  · rw [he]
    exact h
  · rw [he]
    exact h
  · rw [he]
    have hm : p.started &&& bit capture = 0 := not_not.mp hm
    have hdown : p.dsp.Down := h.down (or_bit_ne _ _ hm)
    have howned : Owned (mark capture p) := mark_owned h.owned
    cases hw : wanted prm (mark capture p).started with
    | false =>
        rw [startMarked_unwanted prm env hw]
        rw [wanted_requireBoth hboth, decide_eq_false_iff_not] at hw
        exact ⟨howned, fun h3 => absurd h3 hw, fun _ => hdown, h.sound⟩
    | true =>
        have hstart := pathStart_spec env prm (p := mark capture p) rfl howned
        have hstream : streamDsp env prm (mark capture p) = p.dsp := by
          rw [streamDsp, if_neg fun hs => absurd (hoff.symm.trans hs.attachStream) (by decide)]
          rfl
        have hsound : (q6voicePathStart prm env (mark capture p)).1.Sound :=
          h.sound.append hstart.events hdown.running
        rcases @startMarked_wanted prm env capture _ hw with ⟨hret, he⟩ | ⟨hret, he⟩
        · rw [he]
          obtain ⟨hopens, haccepts⟩ := hstart.ret.mp hret
          rw [wanted_requireBoth hboth, decide_eq_true_eq] at hw
          have hup := (hstart.opens hopens).up (bringUpDsp_up haccepts _)
          exact ⟨hstart.owned, fun _ => hup, fun hne => absurd (hstart.started.trans hw) hne, hsound⟩
        · rw [he]
          have hstarted := started_setStarted hstart.runtime
            ((q6voicePathStart prm env (mark capture p)).1.started &&& ~~~bit capture)
          have hdown' : (q6voicePathStart prm env (mark capture p)).1.dsp.Down := by
            by_cases hopens : Opens env prm (mark capture p)
            · apply (hstart.opens hopens).down
              rw [hstream]
              exact bringUpDsp_down hU hdown fun haccepts => hret (hstart.ret.mpr ⟨hopens, haccepts⟩)
            · rw [hstart.blocked hopens, hstream]
              exact hdown
          refine ⟨?_, ?_, fun _ => hdown', hsound⟩
          · intro svc
            rw [session_setStarted]
            exact hstart.owned svc
          · intro h3
            rw [hstarted] at h3
            exact absurd h3 (and_not_bit_ne _ _)

theorem stopPath_settled (hboth : prm.requireBoth = true) (hU : Undoes env) {p : Path} (h : Settled p)
    (capture : Bool) : Settled (stopPath prm env capture p) := by
  by_cases hm : p.Marked capture
  · have hspec := unmark_spec prm env hm
    have hne : (unmark prm env capture p).started ≠ 3 := by
      rw [hspec.started]
      exact and_not_bit_ne _ _
    have hunmark : Settled (unmark prm env capture p) := by
      cases hw : wanted prm p.started with
      | true =>
          have h3 : p.started = 3 := by
            rwa [wanted_requireBoth hboth, decide_eq_true_eq] at hw
          obtain ⟨hdown, hevents⟩ := hspec.stopped hw
          exact ⟨hspec.owned h.owned, fun h3 => absurd h3 hne, fun _ => hdown hU,
            h.sound.append hevents (h.up h3).running⟩
      | false =>
          have h3 : p.started ≠ 3 := by
            rwa [wanted_requireBoth hboth, decide_eq_false_iff_not] at hw
          obtain ⟨hdsp, hevents⟩ := hspec.idle hw
          refine ⟨hspec.owned h.owned, fun h3 => absurd h3 hne, fun _ => hdsp ▸ h.down h3, ?_⟩
          rw [Path.Sound, hevents]
          exact h.sound
    rw [stopPath_marked prm env hm]
    split_ifs
    · have hdestroy := pathDestroy_spec (unmark prm env capture p)
      refine ⟨?_, ?_, ?_, ?_⟩
      · intro svc
        rw [hdestroy.registered hunmark.owned, Path.session, hdestroy.runtime]
      · intro h3
        rw [Path.started, hdestroy.runtime] at h3
        exact absurd h3 (by decide)
      · exact fun _ => hdestroy.dsp ▸ hunmark.down hne
      · rw [Path.Sound, hdestroy.events]
        exact hunmark.sound
    · exact hunmark
  · rw [stopPath_unmarked prm env hm]
    exact h

theorem callPath_settled {c : Call} (hc : c.Default) {p : Path} (h : Settled p) : Settled (callPath c p) := by
  unfold callPath
  cases c.action with
  | start => exact startPath_settled hc.requireBoth hc.attachStream hc.undoes h c.capture
  | stop => exact stopPath_settled hc.requireBoth hc.undoes h c.capture

/-- Removal ends what is still running and gives every session back. -/
theorem freePath_settled (hU : Undoes env) {p : Path} (h : Settled p) :
    (freePath prm env p).dsp.running = false ∧ ∀ svc, (freePath prm env p).registered svc = .null := by
  unfold freePath
  cases hr : p.runtime with
  | none =>
      have hstarted : p.started ≠ 3 := by
        rw [Path.started, hr]
        decide
      refine ⟨(h.down hstarted).running, ?_⟩
      intro svc
      change p.registered svc = .null
      rw [h.owned, Path.session, hr]
  | some r =>
      rw [if_pos (Option.isSome_some (a := r))]
      by_cases h3 : p.started = 3
      · have hstop := pathStop_spec env prm p
        have hdestroy := pathDestroy_spec (q6voicePathStop prm env p)
        rw [if_pos h3, hdestroy.dsp]
        refine ⟨(hstop.down hU).running, hdestroy.registered ?_⟩
        intro svc
        rw [hstop.registered, Path.session, hstop.runtime]
        exact h.owned svc
      · have hdestroy := pathDestroy_spec p
        rw [if_neg h3, hdestroy.dsp]
        exact ⟨(h.down h3).running, hdestroy.registered h.owned⟩

end

/-- What holds of a path after every call. -/
structure BothWanted (v : Paths) (path : PathType) : Prop where
  running : (v path).dsp.running = true ↔ (v path).started = 3
  enabled : (v path).dsp.enabled = true ↔ (v path).started = 3
  attached : (v path).dsp.attached = true ↔ (v path).started = 3
  sound : ∀ e ∈ (v path).log, e.Sound
  repeated : ∀ prm env capture, (v path).Marked capture →
    q6voiceStart prm env v path capture = (v, -EALREADY)
  freed : ∀ prm env, (∀ path, Undoes (env path)) → (q6voiceFree prm env v path).dsp.running = false ∧
    ∀ svc, (q6voiceFree prm env v path).registered svc = .null

/-- A direction that is marked is not started again. -/
theorem q6voiceStart_marked (prm : Params) (env : Env) {v : Paths} {path : PathType} {capture : Bool}
    (hm : (v path).Marked capture) : q6voiceStart prm env v path capture = (v, -EALREADY) := by
  rcases startPath_cases prm env capture (v path) with ⟨hr, -⟩ | ⟨-, he⟩ | ⟨hm', -⟩
  · exact absurd hm.runtime (by rw [hr]; decide)
  · rw [q6voiceStart, he]
    exact congrArg (·, -EALREADY) (Function.update_eq_self path v)
  · exact absurd hm hm'

theorem Settled.bothWanted {v : Paths} {path : PathType} (h : Settled (v path)) : BothWanted v path := by
  have hiff : ∀ {b : Bool}, ((v path).started = 3 → b = true) → ((v path).started ≠ 3 → b = false) →
      (b = true ↔ (v path).started = 3) := by
    intro b hup hdown
    by_cases h3 : (v path).started = 3
    · exact ⟨fun _ => h3, hup⟩
    · exact ⟨fun hb => absurd (hb.symm.trans (hdown h3)) (by decide), fun h => absurd h h3⟩
  constructor
  case running => exact hiff (fun h3 => (h.up h3).running) fun h3 => (h.down h3).running
  case enabled => exact hiff (fun h3 => (h.up h3).enabled) fun h3 => (h.down h3).enabled
  case attached => exact hiff (fun h3 => (h.up h3).attached) fun h3 => (h.down h3).attached
  case sound => exact h.sound.log
  case repeated => exact fun prm env capture => q6voiceStart_marked prm env
  case freed => exact fun prm env hU => freePath_settled (hU path) h

/-- In every run of the default mode, each path runs exactly while both directions are marked. -/
theorem default_mode_bothWanted (calls : List DefaultCall) (path : PathType) :
    BothWanted (run (fun v c => call v c.1) q6voiceCreate calls) path := by
  apply Settled.bothWanted
  exact run_keeps (I := fun v : Paths => ∀ path, Settled (v path))
    (fun v (c : DefaultCall) hv => call_invariant (fun p hp => callPath_settled c.2 hp) hv)
    (fun _ => newPath_settled) calls path

end Sirius.Q6voice
