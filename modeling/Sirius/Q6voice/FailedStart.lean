import Sirius.Q6voice.Calls

/-!
# Starts that fail

A start that fails clears its direction and undoes the last three commands. It does not
detach a stream it has attached, and where no direction was marked before it the runtime and
the sessions it created stay behind: `q6voice_stop` looks only at marked directions.
-/
namespace Sirius.Q6voice
open Runs

/-- Nothing is on in the first that is off in the second. -/
structure Dsp.Within (d e : Dsp) : Prop where
  streamAttached : d.streamAttached = true → e.streamAttached = true
  enabled : d.enabled = true → e.enabled = true
  attached : d.attached = true → e.attached = true
  running : d.running = true → e.running = true

theorem Dsp.Within.refl (d : Dsp) : d.Within d := ⟨id, id, id, id⟩

theorem Dsp.Agree.within {d d' : Dsp} (h : d.Agree d') (e : Dsp) : d.Within e ↔ d'.Within e := by
  obtain ⟨hs, he, ha, hr⟩ := h
  constructor
  · rintro ⟨s, e, a, r⟩
    exact ⟨hs ▸ s, he ▸ e, ha ▸ a, hr ▸ r⟩
  · rintro ⟨s, e, a, r⟩
    exact ⟨hs ▸ s, he ▸ e, ha ▸ a, hr ▸ r⟩

def Call.ret (c : Call) (p : Path) : ℤ :=
  match c.action with
  | .start => (startPath c.prm c.env c.capture p).2
  | .stop => 0

/-- No direction is marked only where nothing is left. -/
def Path.Released (p : Path) : Prop := p.started = 0 → p.runtime = none ∧ ∀ svc, p.registered svc = .null

/-- A call that fails has undone what it did, and paths without a marked direction hold nothing. -/
structure LeavesNothing (v : Paths) (c : Call) : Prop where
  undone : c.ret (v c.path) ≠ 0 → (call v c c.path).dsp.Within (v c.path).dsp
  released : ∀ path, (call v c path).Released

section
variable (prm : Params) (env : Env)

/-- What the unwinding has to undo was on before, or is undone. -/
structure Unwinds (d : Dsp) : Prop where
  enable : env.resp (.enable true) = 0 → env.resp (.enable false) = 0 ∨ d.enabled = true
  attach : env.resp (.enable true) = 0 → env.resp (.attach true) = 0 →
    env.resp (.attach false) = 0 ∨ d.attached = true

/-- The call gets to `q6voice_path_start`. -/
structure Attempts (capture : Bool) (p : Path) : Prop where
  unmarked : ¬ p.Marked capture
  runtime : p.runtime = none → env.kzalloc = true
  wanted : wanted prm (p.started ||| bit capture) = true

/-- What a start that fails needs in order to leave nothing behind. -/
structure FailsClean (p : Path) : Prop where
  started : p.started ≠ 0
  stream : Streams env prm p → p.dsp.streamAttached = true
  unwinds : Opens env prm p → Unwinds env p.dsp

end

def Clean (v : Paths) (c : Call) : Prop :=
  c.action = .start → Attempts c.prm c.env c.capture (v c.path) →
    ¬ (Opens c.env c.prm (v c.path) ∧ Accepts c.env) → FailsClean c.prm c.env (v c.path)

section
variable {prm : Params} {env : Env}

theorem apply_field {β : Type} (f : Dsp → β) (d : Dsp) (c : Cmd) :
    f (c.apply env d) = if env.resp c = 0 then f (c.effect d) else f d := by
  rw [Cmd.apply, apply_ite f]

/-- What is left after the undo commands, by how far the start had come. -/
theorem bringUpDsp_within (h : ¬ Accepts env) (d : Dsp) : (bringUpDsp env d).Within d ↔ Unwinds env d := by
  unfold bringUpDsp
  by_cases henable : env.resp (.enable true) = 0
  · rw [if_neg (not_not.mpr henable)]
    by_cases hattach : env.resp (.attach true) = 0
    · have hstart : env.resp (.start true) ≠ 0 := fun hstart => h ⟨henable, hattach, hstart⟩
      rw [if_neg (not_not.mpr hattach), if_pos hstart]
      constructor
      · rintro ⟨-, he, ha, -⟩
        simp only [apply_field Dsp.enabled, apply_field Dsp.attached, Cmd.effect, ite_self] at he ha
        refine ⟨fun _ => or_iff_not_imp_left.mpr ?_, fun _ _ => or_iff_not_imp_left.mpr ?_⟩
        · exact fun hne => he (if_neg hne)
        · exact fun hne => ha (if_neg hne)
      · rintro ⟨he, ha⟩
        have he := or_iff_not_imp_left.mp (he henable)
        have ha := or_iff_not_imp_left.mp (ha henable hattach)
        constructor <;>
          simp only [apply_field Dsp.enabled, apply_field Dsp.attached, apply_field Dsp.running,
            apply_field Dsp.streamAttached, Cmd.effect, ite_self]
        · exact id
        · exact fun h => he fun hresp => by simp [hresp] at h
        · exact fun h => ha fun hresp => by simp [hresp] at h
        · split_ifs
          · nofun
          · exact id
    · rw [if_pos hattach]
      constructor
      · rintro ⟨-, he, -, -⟩
        simp only [apply_field Dsp.enabled, Cmd.effect, ite_self] at he
        refine ⟨fun _ => or_iff_not_imp_left.mpr ?_, fun _ h => absurd h hattach⟩
        exact fun hne => he (if_neg hne)
      · rintro ⟨he, -⟩
        have he := or_iff_not_imp_left.mp (he henable)
        constructor <;>
          simp only [apply_field Dsp.enabled, apply_field Dsp.attached, apply_field Dsp.running,
            apply_field Dsp.streamAttached, Cmd.effect, ite_self]
        · exact id
        · exact fun h => he fun hresp => by simp [hresp] at h
        · split_ifs
          · nofun
          · exact id
        · exact id
  · rw [if_pos henable]
    refine iff_of_true ?_ ⟨fun h => absurd h henable, fun h => absurd h henable⟩
    constructor <;>
      simp only [apply_field Dsp.enabled, apply_field Dsp.attached, apply_field Dsp.running,
        apply_field Dsp.streamAttached, Cmd.effect, ite_self]
    · exact id
    · split_ifs
      · nofun
      · exact id
    · exact id
    · exact id

theorem bringUpDsp_streamAttached (d : Dsp) : (bringUpDsp env d).streamAttached = d.streamAttached := by
  unfold bringUpDsp
  split_ifs <;> simp only [apply_field Dsp.streamAttached, Cmd.effect, ite_self]

theorem streamDsp_eq {p : Path} (h : Streams env prm p → p.dsp.streamAttached = true) :
    streamDsp env prm p = p.dsp := by
  rw [streamDsp]
  split_ifs with hs
  · rw [← h hs]
  · rfl

/-- A stream attached by the call stays attached, whatever is undone after it. -/
theorem streamDsp_within {p : Path} (h : (streamDsp env prm p).streamAttached = true → p.dsp.streamAttached = true) :
    Streams env prm p → p.dsp.streamAttached = true := by
  intro hs
  rw [streamDsp, if_pos hs] at h
  exact h rfl

/-- What a failing `q6voice_path_start` leaves, by the rung it fails at. -/
theorem pathStart_within {p : Path} (hr : p.runtime.isSome) (ho : Owned p)
    (hfail : ¬ (Opens env prm p ∧ Accepts env)) : (q6voicePathStart prm env p).1.dsp.Within p.dsp ↔
      (Streams env prm p → p.dsp.streamAttached = true) ∧ (Opens env prm p → Unwinds env p.dsp) := by
  have hstart := pathStart_spec env prm hr ho
  by_cases hopens : Opens env prm p
  · have haccepts : ¬ Accepts env := fun h => hfail ⟨hopens, h⟩
    rw [(hstart.opens hopens).within]
    constructor
    · intro hw
      have hs := streamDsp_within (@bringUpDsp_streamAttached env _ ▸ hw.streamAttached)
      rw [streamDsp_eq hs] at hw
      exact ⟨hs, fun _ => (bringUpDsp_within haccepts _).mp hw⟩
    · rintro ⟨hs, hu⟩
      rw [streamDsp_eq hs]
      exact (bringUpDsp_within haccepts _).mpr (hu hopens)
  · rw [hstart.blocked hopens]
    constructor
    · intro hw
      exact ⟨streamDsp_within hw.streamAttached, fun h => absurd h hopens⟩
    · rintro ⟨hs, -⟩
      rw [streamDsp_eq hs]
      exact Dsp.Within.refl _

theorem opens_congr {p q : Path} (h : ∀ svc, q.session svc = p.session svc) : Opens env prm q ↔ Opens env prm p := by
  constructor
  · rintro ⟨hm, hc, hs, hp⟩
    exact ⟨h .mvm ▸ hm, h .cvs ▸ hc, hs, h .cvp ▸ hp⟩
  · rintro ⟨hm, hc, hs, hp⟩
    exact ⟨(h .mvm).symm ▸ hm, (h .cvs).symm ▸ hc, hs, (h .cvp).symm ▸ hp⟩

theorem streams_congr {p q : Path} (h : ∀ svc, q.session svc = p.session svc) :
    Streams env prm q ↔ Streams env prm p := by
  constructor
  · rintro ⟨ha, hm, hc, hs⟩
    exact ⟨ha, h .mvm ▸ hm, h .cvs ▸ hc, hs⟩
  · rintro ⟨ha, hm, hc, hs⟩
    exact ⟨ha, (h .mvm).symm ▸ hm, (h .cvs).symm ▸ hc, hs⟩

theorem or_bit_ne_zero : ∀ (s : BitVec 2) (capture : Bool), s ||| bit capture ≠ 0 := by
  decide

theorem startPath_clean {capture : Bool} {p : Path} (ho : Owned p) (h : p.Released) :
    Owned (startPath prm env capture p).1 ∧
      (((startPath prm env capture p).2 ≠ 0 → (startPath prm env capture p).1.dsp.Within p.dsp) ∧
          (startPath prm env capture p).1.Released ↔
        (Attempts prm env capture p → ¬ (Opens env prm p ∧ Accepts env) → FailsClean prm env p)) := by
  rcases startPath_cases prm env capture p with ⟨hr, hk, he⟩ | ⟨hm, he⟩ | ⟨hm, hk, he⟩
  · rw [he]
    refine ⟨ho, iff_of_true ⟨fun _ => Dsp.Within.refl _, h⟩ ?_⟩
    exact fun ha => absurd (hk.symm.trans (ha.runtime hr)) (by decide)
  · rw [he]
    exact ⟨ho, iff_of_true ⟨fun _ => Dsp.Within.refl _, h⟩ fun ha => absurd hm ha.unmarked⟩
  · rw [he]
    have howned : Owned (mark capture p) := mark_owned ho
    have hmarked : (mark capture p).started ≠ 0 := by
      rw [mark_started]
      exact or_bit_ne_zero _ _
    cases hw : wanted prm (mark capture p).started with
    | false =>
        rw [startMarked_unwanted prm env hw]
        refine ⟨howned, iff_of_true ⟨fun h => absurd rfl h, fun hz => absurd hz hmarked⟩ ?_⟩
        intro ha
        rw [mark_started] at hw
        exact absurd (hw.symm.trans ha.wanted) (by decide)
    | true =>
        have hsession := mark_session capture p
        have hstart := pathStart_spec env prm (p := mark capture p) rfl howned
        have hret := hstart.ret
        rw [opens_congr hsession] at hret
        rcases @startMarked_wanted prm env capture _ hw with ⟨hzero, he⟩ | ⟨hne, he⟩
        · rw [he]
          refine ⟨hstart.owned, iff_of_true ⟨fun h => absurd rfl h, fun hz => ?_⟩ ?_⟩
          · exact absurd (hstart.started.symm.trans hz) hmarked
          · exact fun _ hfail => absurd (hret.mp hzero) hfail
        · rw [he]
          have hfail : ¬ (Opens env prm p ∧ Accepts env) := fun h => hne (hret.mpr h)
          have hattempts : Attempts prm env capture p := ⟨hm, hk, mark_started capture p ▸ hw⟩
          have hwithin : (q6voicePathStart prm env (mark capture p)).1.dsp.Within p.dsp ↔ _ :=
            pathStart_within (p := mark capture p) rfl howned fun h => hne (hstart.ret.mpr h)
          rw [opens_congr hsession, streams_congr hsession] at hwithin
          -- the direction is unmarked again, so the set is what it was before the call
          have hstarted : ((q6voicePathStart prm env (mark capture p)).1.setStarted
              ((q6voicePathStart prm env (mark capture p)).1.started &&& ~~~bit capture)).started = p.started := by
            rw [started_setStarted hstart.runtime, hstart.started, mark_started]
            exact bits_mark _ _ (not_not.mp hm)
          have hruntime : ((q6voicePathStart prm env (mark capture p)).1.setStarted
              ((q6voicePathStart prm env (mark capture p)).1.started &&& ~~~bit capture)).runtime ≠ none := by
            rw [← Option.isSome_iff_ne_none, Path.setStarted, Option.isSome_map]
            exact hstart.runtime
          refine ⟨?_, ?_, ?_⟩
          · intro svc
            rw [session_setStarted]
            exact hstart.owned svc
          · rintro ⟨hundone, hreleased⟩ - -
            obtain ⟨hstream, hunwinds⟩ := hwithin.mp (hundone hne)
            exact ⟨fun hz => hruntime (hreleased (hstarted.trans hz)).1, hstream, hunwinds⟩
          · intro hclean
            have hclean := hclean hattempts hfail
            refine ⟨fun _ => hwithin.mpr ⟨hclean.stream, hclean.unwinds⟩, fun hz => ?_⟩
            exact absurd (hstarted.symm.trans hz) hclean.started

theorem stopPath_released {capture : Bool} {p : Path} (ho : Owned p) (h : p.Released) :
    Owned (stopPath prm env capture p) ∧ (stopPath prm env capture p).Released := by
  by_cases hm : p.Marked capture
  · have hspec := unmark_spec prm env hm
    rw [stopPath_marked prm env hm]
    split_ifs with hzero
    · have hdestroy := pathDestroy_spec (unmark prm env capture p)
      have hnull := hdestroy.registered (hspec.owned ho)
      refine ⟨fun svc => ?_, fun _ => ⟨hdestroy.runtime, hnull⟩⟩
      rw [hnull, Path.session, hdestroy.runtime]
    · exact ⟨hspec.owned ho, fun hz => absurd (hspec.started.symm.trans hz) hzero⟩
  · rw [stopPath_unmarked prm env hm]
    exact ⟨ho, h⟩

end

theorem callPath_clean {c : Call} {p : Path} (ho : Owned p) (h : p.Released) :
    Owned (callPath c p) ∧
      ((c.ret p ≠ 0 → (callPath c p).dsp.Within p.dsp) ∧ (callPath c p).Released ↔
        (c.action = .start → Attempts c.prm c.env c.capture p → ¬ (Opens c.env c.prm p ∧ Accepts c.env) →
          FailsClean c.prm c.env p)) := by
  unfold callPath Call.ret
  cases c.action with
  | start =>
      obtain ⟨howned, hiff⟩ := @startPath_clean c.prm c.env c.capture _ ho h
      exact ⟨howned, hiff.trans ⟨fun hc _ => hc, fun hc => hc rfl⟩⟩
  | stop =>
      obtain ⟨howned, hreleased⟩ := @stopPath_released c.prm c.env c.capture _ ho h
      exact ⟨howned, iff_of_true ⟨fun h => absurd rfl h, hreleased⟩ nofun⟩

theorem leavesNothing_iff {v : Paths} {c : Call} (hv : ∀ path, Owned (v path) ∧ (v path).Released) :
    LeavesNothing v c ↔ Clean v c := by
  have hself : call v c c.path = callPath c (v c.path) := by
    rw [call_eq, Function.update_self]
  have hclean := (callPath_clean (c := c) (hv c.path).1 (hv c.path).2).2
  rw [← hself] at hclean
  constructor
  · exact fun h => hclean.mp ⟨h.undone, h.released _⟩
  · intro h
    obtain ⟨hundone, hreleased⟩ := hclean.mpr h
    refine ⟨hundone, fun path => ?_⟩
    by_cases hp : path = c.path
    · exact hp ▸ hreleased
    · rw [call_eq, Function.update_of_ne hp]
      exact (hv path).2

/-- In every run, failing starts leave nothing behind exactly when each of them had a direction
marked before it, attached no stream and had its undo commands accepted. -/
theorem failed_starts_iff (calls : List Call) :
    Always call LeavesNothing q6voiceCreate calls ↔ Always call Clean q6voiceCreate calls := by
  apply always_iff_of_invariant (I := fun v : Paths => ∀ path, Owned (v path) ∧ (v path).Released)
  · intro v c hv hc path
    refine ⟨?_, ((leavesNothing_iff hv).mpr hc).released path⟩
    rw [call_eq]
    by_cases hp : path = c.path
    · rw [hp, Function.update_self]
      exact (callPath_clean (hv _).1 (hv _).2).1
    · rw [Function.update_of_ne hp]
      exact (hv path).1
  · exact fun v c hv => leavesNothing_iff hv
  · exact fun _ => ⟨fun _ => rfl, fun _ => ⟨rfl, fun _ => rfl⟩⟩

/-- The vocproc cannot be created on the first start, with a stream of our own. -/
def firstStartFails : Call where
  action := .start
  path := .voice
  capture := false
  prm := ⟨true, true, 0, 0, false⟩
  env := ⟨fun c => if c = .createCvp 0 AFE_PORT_ID_QUATERNARY_MI2S_RX then -EBUSY else 0, true, .null⟩

/-- The stream stays attached, the runtime and the MVM and CVS sessions stay registered. -/
theorem failed_start_leaves_sessions : ¬ ∀ calls, Always call LeavesNothing q6voiceCreate calls := by
  intro h
  have hreleased := (h [firstStartFails]).1.released .voice (by decide)
  exact absurd (hreleased.2 .mvm) (by decide)

end Sirius.Q6voice
