import Sirius.Lib.Runs
import Sirius.Q6voice.Steps

/-!
# Calls on the voice paths

What a start or a stop does, by the branch it takes, and runs of calls on all paths.
-/
namespace Sirius.Q6voice
open Runs

/-- Voice runs through an enabled and attached vocproc. -/
structure Dsp.Up (d : Dsp) : Prop where
  running : d.running = true
  attached : d.attached = true
  enabled : d.enabled = true

/-- The path functions are executed on the right side of a session. -/
def Event.Sound : Event → Prop
  | .pathStart running => running = false
  | .pathStop running => running = true
  | _ => True

def Path.Sound (p : Path) : Prop := ∀ e ∈ p.pathEvents, e.Sound

theorem Path.Sound.log {p : Path} (h : p.Sound) : ∀ e ∈ p.log, e.Sound := by
  intro e he
  cases hpath : e.isPath with
  | true => exact h e (List.mem_filter.mpr ⟨he, hpath⟩)
  | false => cases e <;> trivial

theorem Path.Sound.append {p q : Path} {e : Event} (h : p.Sound) (hq : q.pathEvents = p.pathEvents ++ [e])
    (he : e.Sound) : q.Sound := by
  rw [Path.Sound, hq, List.forall_mem_append, List.forall_mem_singleton]
  exact ⟨h, he⟩

section
variable {env : Env}

theorem bringUpDsp_up (h : Accepts env) (d : Dsp) : (bringUpDsp env d).Up := by
  rw [bringUpDsp, if_neg (not_not.mpr h.enable), if_neg (not_not.mpr h.attach), if_neg (not_not.mpr h.start)]
  exact ⟨rfl, rfl, rfl⟩

/-- A failed start ends with everything undone that was not up before it. -/
theorem bringUpDsp_down (hU : Undoes env) {d : Dsp} (hd : d.Down) (h : ¬ Accepts env) :
    (bringUpDsp env d).Down := by
  unfold bringUpDsp
  by_cases henable : env.resp (.enable true) = 0
  · rw [if_neg (not_not.mpr henable)]
    by_cases hattach : env.resp (.attach true) = 0
    · have hstart : env.resp (.start true) ≠ 0 := fun hstart => h ⟨henable, hattach, hstart⟩
      rw [if_neg (not_not.mpr hattach), if_pos hstart, Cmd.apply_ok hU.start, Cmd.apply_ok hU.attach,
        Cmd.apply_ok hU.enable]
      exact ⟨rfl, rfl, rfl⟩
    · rw [if_pos hattach, Cmd.apply_ok hU.attach, Cmd.apply_ok hU.enable]
      exact ⟨hd.running, rfl, rfl⟩
  · rw [if_pos henable, Cmd.apply_ok hU.enable]
    exact ⟨hd.running, hd.attached, rfl⟩

theorem Dsp.Agree.down {d e : Dsp} (h : d.Agree e) (he : e.Down) : d.Down :=
  ⟨h.running.trans he.running, h.attached.trans he.attached, h.enabled.trans he.enabled⟩

theorem Dsp.Agree.up {d e : Dsp} (h : d.Agree e) (he : e.Up) : d.Up :=
  ⟨h.running.trans he.running, h.attached.trans he.attached, h.enabled.trans he.enabled⟩

end

/-- The direction is marked started. -/
def Path.Marked (p : Path) (capture : Bool) : Prop := p.started &&& bit capture ≠ 0

instance (p : Path) (capture : Bool) : Decidable (p.Marked capture) := inferInstanceAs (Decidable (_ ≠ _))

theorem Path.Marked.runtime {capture : Bool} {p : Path} (hm : p.Marked capture) : p.runtime.isSome := by
  rw [Path.Marked, Path.started] at hm
  cases hr : p.runtime with
  | none => simp [hr] at hm
  | some r => rfl

theorem bits_mark : ∀ (s : BitVec 2) (capture : Bool), s &&& bit capture = 0 →
    (s ||| bit capture) &&& ~~~bit capture = s := by
  decide

section
variable (prm : Params) (env : Env)

/-- The path with a runtime, an empty one where there was none. -/
def Path.withRuntime (p : Path) : Path :=
  { p with runtime := some (p.runtime.getD ⟨fun _ => .null, 0⟩) }

theorem withRuntime_some {p : Path} (hr : p.runtime.isSome) : p.withRuntime = p := by
  obtain ⟨r, hr⟩ := Option.isSome_iff_exists.mp hr
  cases p
  cases hr
  rfl

theorem withRuntime_started (p : Path) : p.withRuntime.started = p.started := by
  unfold Path.withRuntime Path.started
  cases p.runtime <;> rfl

theorem withRuntime_session (p : Path) (svc : Service) : p.withRuntime.session svc = p.session svc := by
  unfold Path.withRuntime Path.session
  cases p.runtime <;> rfl

theorem started_setStarted {p : Path} (hr : p.runtime.isSome) (s : BitVec 2) : (p.setStarted s).started = s := by
  obtain ⟨r, hr⟩ := Option.isSome_iff_exists.mp hr
  rw [Path.started, Path.setStarted, hr]
  rfl

theorem session_setStarted (p : Path) (s : BitVec 2) (svc : Service) :
    (p.setStarted s).session svc = p.session svc := by
  unfold Path.session Path.setStarted
  cases p.runtime <;> rfl

/-- The path with its runtime and the direction marked. -/
def mark (capture : Bool) (p : Path) : Path := p.withRuntime.setStarted (p.started ||| bit capture)

theorem mark_started (capture : Bool) (p : Path) : (mark capture p).started = p.started ||| bit capture :=
  started_setStarted rfl _

theorem mark_session (capture : Bool) (p : Path) (svc : Service) :
    (mark capture p).session svc = p.session svc := by
  rw [mark, session_setStarted, withRuntime_session]

theorem mark_owned {capture : Bool} {p : Path} (h : Owned p) : Owned (mark capture p) := by
  intro svc
  rw [mark_session]
  exact h svc

/-- The branches of `q6voice_start`. -/
theorem startPath_cases (capture : Bool) (p : Path) :
    (p.runtime = none ∧ env.kzalloc = false ∧ startPath prm env capture p = (p, -ENOMEM)) ∨
    (p.Marked capture ∧ startPath prm env capture p = (p, -EALREADY)) ∨
    (¬ p.Marked capture ∧ (p.runtime = none → env.kzalloc = true) ∧
      startPath prm env capture p = startMarked prm env capture (mark capture p)) := by
  have hunmarked : ¬ p.Marked capture → (if p.withRuntime.started &&& bit capture ≠ 0 then (p.withRuntime, -EALREADY)
      else startMarked prm env capture (p.withRuntime.setStarted (p.withRuntime.started ||| bit capture))) =
        startMarked prm env capture (mark capture p) := by
    intro hm
    rw [withRuntime_started]
    exact if_neg hm
  unfold startPath ensureRuntime
  cases hr : p.runtime with
  | none =>
      have hm : ¬ p.Marked capture := by
        rw [Path.Marked, Path.started, hr]
        simp
      have hfresh : { p with runtime := some ⟨fun _ => .null, 0⟩ } = p.withRuntime := by
        rw [Path.withRuntime, hr]
        rfl
      cases hk : env.kzalloc with
      | false => exact Or.inl ⟨rfl, rfl, rfl⟩
      | true =>
          right
          right
          refine ⟨hm, fun _ => rfl, ?_⟩
          rw [← hunmarked hm, ← hfresh]
          rfl
  | some r =>
      have hsame : p.withRuntime = p := withRuntime_some (by rw [hr]; rfl)
      right
      by_cases hm : p.Marked capture
      · exact Or.inl ⟨hm, if_pos hm⟩
      · right
        refine ⟨hm, fun h => absurd h (by simp), ?_⟩
        rw [← hunmarked hm, hsame]
        rfl

/-- A start whose session is to run, by how `q6voice_path_start` ends. -/
theorem startMarked_wanted {capture : Bool} {p : Path} (hw : wanted prm p.started = true) :
    ((q6voicePathStart prm env p).2 = 0 ∧
      startMarked prm env capture p = ((q6voicePathStart prm env p).1, 0)) ∨
    ((q6voicePathStart prm env p).2 ≠ 0 ∧
      startMarked prm env capture p = ((q6voicePathStart prm env p).1.setStarted
        ((q6voicePathStart prm env p).1.started &&& ~~~bit capture), (q6voicePathStart prm env p).2)) := by
  rw [startMarked, if_pos hw]
  by_cases hret : (q6voicePathStart prm env p).2 = 0
  · exact Or.inl ⟨hret, if_neg (not_not.mpr hret)⟩
  · exact Or.inr ⟨hret, if_pos hret⟩

theorem startMarked_unwanted {capture : Bool} {p : Path} (hw : wanted prm p.started = false) :
    startMarked prm env capture p = (p, 0) := by
  rw [startMarked, hw]
  rfl

theorem stopPath_unmarked {capture : Bool} {p : Path} (hm : ¬ p.Marked capture) :
    stopPath prm env capture p = p :=
  if_pos (not_not.mp hm)

/-- The path once the session is stopped, if it has to be, and the direction unmarked. -/
def unmark (capture : Bool) (p : Path) : Path :=
  (if wanted prm p.started then q6voicePathStop prm env p else p).setStarted (p.started &&& ~~~bit capture)

theorem stopPath_marked {capture : Bool} {p : Path} (hm : p.Marked capture) :
    stopPath prm env capture p =
      if p.started &&& ~~~bit capture = 0 then q6voicePathDestroy (unmark prm env capture p)
      else unmark prm env capture p := by
  rw [stopPath, if_neg hm]
  have hstarted : (if wanted prm p.started then q6voicePathStop prm env p else p).started = p.started := by
    split_ifs
    · rw [Path.started, (pathStop_spec env prm p).runtime, Path.started]
    · rfl
  have hruntime : (if wanted prm p.started then q6voicePathStop prm env p else p).runtime.isSome := by
    split_ifs
    · rw [(pathStop_spec env prm p).runtime]
      exact hm.runtime
    · exact hm.runtime
  dsimp only
  rw [hstarted, started_setStarted hruntime]
  rfl

/-- What stopping leaves of a path with this direction marked. -/
structure Unmarked (capture : Bool) (p q : Path) : Prop where
  runtime : q.runtime.isSome
  started : q.started = p.started &&& ~~~bit capture
  owned : Owned p → Owned q
  cvs : q.session .cvs = p.session .cvs
  stopped : wanted prm p.started = true →
    (Undoes env → q.dsp.Down) ∧ q.pathEvents = p.pathEvents ++ [.pathStop p.dsp.running]
  idle : wanted prm p.started = false → q.dsp = p.dsp ∧ q.pathEvents = p.pathEvents

theorem unmark_spec {capture : Bool} {p : Path} (hm : p.Marked capture) :
    Unmarked prm env capture p (unmark prm env capture p) := by
  unfold unmark
  cases hw : wanted prm p.started with
  | true =>
      have hstop := pathStop_spec env prm p
      rw [if_pos rfl]
      generalize q6voicePathStop prm env p = q at hstop
      have hr : q.runtime.isSome := by
        rw [hstop.runtime]
        exact hm.runtime
      have hsession : ∀ svc, (q.setStarted (p.started &&& ~~~bit capture)).session svc = p.session svc := by
        intro svc
        rw [session_setStarted, Path.session, hstop.runtime, Path.session]
      refine ⟨?_, started_setStarted hr _, ?_, hsession .cvs, ?_, fun h => absurd h (by simp [hw])⟩
      · rw [Path.setStarted, Option.isSome_map]
        exact hr
      · intro ho svc
        rw [hsession]
        exact (congrFun hstop.registered svc).trans (ho svc)
      · exact fun _ => ⟨hstop.down, hstop.events⟩
  | false =>
      have hsession := session_setStarted p (p.started &&& ~~~bit capture)
      refine ⟨?_, started_setStarted hm.runtime _, ?_, hsession .cvs, fun h => absurd h (by simp [hw]),
        fun _ => ⟨rfl, rfl⟩⟩
      · rw [Path.setStarted, Option.isSome_map]
        exact hm.runtime
      · intro ho svc
        exact (ho svc).trans (hsession svc).symm

end

inductive Action
  | start
  | stop
  deriving DecidableEq, Repr

/-- One call, with the parameters at that moment and the answers it gets. -/
structure Call where
  action : Action
  path : PathType
  capture : Bool
  prm : Params
  env : Env

def call (v : Paths) (c : Call) : Paths :=
  match c.action with
  | .start => (q6voiceStart c.prm c.env v c.path c.capture).1
  | .stop => q6voiceStop c.prm c.env v c.path c.capture

/-- What the call does to its path. -/
def callPath (c : Call) (p : Path) : Path :=
  match c.action with
  | .start => (startPath c.prm c.env c.capture p).1
  | .stop => stopPath c.prm c.env c.capture p

theorem call_eq (v : Paths) (c : Call) : call v c = Function.update v c.path (callPath c (v c.path)) := by
  unfold call callPath
  cases c.action <;> rfl

/-- A call keeps what it keeps on its own path. -/
theorem call_invariant {I : Path → Prop} {c : Call} (hstep : ∀ p, I p → I (callPath c p)) {v : Paths}
    (hv : ∀ path, I (v path)) (path : PathType) : I (call v c path) := by
  rw [call_eq]
  by_cases hp : path = c.path
  · rw [hp, Function.update_self]
    exact hstep _ (hv _)
  · rw [Function.update_of_ne hp]
    exact hv path

end Sirius.Q6voice
