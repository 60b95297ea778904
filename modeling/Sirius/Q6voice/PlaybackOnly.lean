import Sirius.Q6voice.Calls

/-!
# Starting on playback alone

With `require_both` clear the guards test the playback bit of the set after the change,
whichever direction changes: a capture call in the middle of playback starts the running
session again, or stops it. `q6voice_free` stops a session only where both directions are
marked.
-/
namespace Sirius.Q6voice
open Runs

/-- `require_both`, `attach_stream` and `playback_port` clear; every command succeeds. -/
structure Call.PlaybackOnly (c : Call) : Prop where
  requireBoth : c.prm.requireBoth = false
  attachStream : c.prm.attachStream = false
  playbackPort : c.prm.playbackPort = 0
  succeeds : ∀ cmd, c.env.resp cmd = 0

abbrev PlaybackCall := { c : Call // c.PlaybackOnly }

def PlaybackCall.step (v : Paths) (c : PlaybackCall) : Paths := call v c.1

/-- What the mode asks of a call: the sessions follow playback, and capture leaves them alone. -/
structure FollowsPlayback (v : Paths) (c : PlaybackCall) : Prop where
  running : ∀ path, (call v c.1 path).dsp.running = true ↔ (call v c.1 path).Marked false
  capture : c.1.capture = true → ∀ path, (call v c.1 path).pathEvents = (v path).pathEvents ∧
    (call v c.1 path).dsp.running = (v path).dsp.running
  sound : ∀ path, ∀ e ∈ (call v c.1 path).log, e.Sound

/-- A call on the capture direction of a path in playback changes nothing there: the
direction is started while marked or stopped while not. -/
def Undisturbed (v : Paths) (c : PlaybackCall) : Prop :=
  c.1.capture = true → (v c.1.path).Marked false → ((v c.1.path).Marked true ↔ c.1.action = .start)

/-- The session of the path follows playback. -/
structure Follows (p : Path) : Prop where
  owned : Owned p
  running : p.dsp.running = true ↔ p.Marked false
  sound : p.Sound

theorem newPath_follows : Follows newPath := by
  refine ⟨fun _ => rfl, ⟨fun h => absurd h (by decide), fun h => absurd h (by decide)⟩, ?_⟩
  exact fun e he => absurd he List.not_mem_nil

section
variable {prm : Params} {env : Env}

theorem wanted_playback (h : prm.requireBoth = false) (p : Path) :
    wanted prm p.started = true ↔ p.Marked false := by
  rw [wanted, h, if_neg Bool.false_ne_true, decide_eq_true_eq]
  exact Iff.rfl

theorem succeeds_undoes (h : ∀ cmd, env.resp cmd = 0) : Undoes env := ⟨h _, h _, h _⟩

variable (prm) in
/-- With every command succeeding, so does `q6voice_path_start`. -/
theorem pathStart_succeeds (hresp : ∀ cmd, env.resp cmd = 0) {p : Path} (hr : p.runtime.isSome) (ho : Owned p) :
    (q6voicePathStart prm env p).2 = 0 ∧ (q6voicePathStart prm env p).1.dsp.Up := by
  have hstart := pathStart_spec env prm hr ho
  have hopens : Opens env prm p :=
    ⟨Or.inr ⟨hresp _, hresp _⟩, fun _ => Or.inr (hresp _), fun _ => hresp _, Or.inr (hresp _)⟩
  have haccepts : Accepts env := ⟨hresp _, hresp _, hresp _⟩
  exact ⟨hstart.ret.mpr ⟨hopens, haccepts⟩, (hstart.opens hopens).up (bringUpDsp_up haccepts _)⟩

/-- A start of a direction that was not marked, where playback is marked after it. -/
theorem startMarked_playback (hboth : prm.requireBoth = false) (hresp : ∀ cmd, env.resp cmd = 0) {capture : Bool}
    {p : Path} (ho : Owned p) (hw : (mark capture p).Marked false) :
    Owned (startMarked prm env capture (mark capture p)).1 ∧
      (startMarked prm env capture (mark capture p)).1.dsp.running = true ∧
      (startMarked prm env capture (mark capture p)).1.started = p.started ||| bit capture ∧
      (startMarked prm env capture (mark capture p)).1.pathEvents = p.pathEvents ++ [.pathStart p.dsp.running] := by
  have howned : Owned (mark capture p) := mark_owned ho
  have hstart := pathStart_spec env prm (p := mark capture p) rfl howned
  obtain ⟨hret, hup⟩ := pathStart_succeeds prm hresp (p := mark capture p) rfl howned
  rcases @startMarked_wanted prm env capture _ ((wanted_playback hboth _).mpr hw) with ⟨-, he⟩ | ⟨hne, -⟩
  · rw [he]
    exact ⟨hstart.owned, hup.running, hstart.started.trans (mark_started capture p), hstart.events⟩
  · exact absurd hret hne

end

theorem marked_mark : ∀ (s : BitVec 2) (capture : Bool),
    (s ||| bit capture) &&& bit false ≠ 0 ↔ capture = false ∨ s &&& bit false ≠ 0 := by
  decide

theorem marked_unmark : ∀ (s : BitVec 2) (capture : Bool),
    s &&& ~~~bit capture &&& bit false ≠ 0 ↔ capture = true ∧ s &&& bit false ≠ 0 := by
  decide

/-- What a call executed on its path, from `p` to `q`. -/
inductive Executed (c : Call) (p q : Path) : Prop
  | nothing (running : q.dsp.running = p.dsp.running) (events : q.pathEvents = p.pathEvents)
      (marked : q.Marked false ↔ p.Marked false)
      (idle : c.capture = true → p.Marked false → (p.Marked true ↔ c.action = .start))
  | start (running : q.dsp.running = true) (events : q.pathEvents = p.pathEvents ++ [.pathStart p.dsp.running])
      (marked : q.Marked false) (action : c.action = .start) (unmarked : ¬ p.Marked c.capture)
      (playback : c.capture = true → p.Marked false)
  | stop (running : q.dsp.running = false) (events : q.pathEvents = p.pathEvents ++ [.pathStop p.dsp.running])
      (action : c.action = .stop) (marked : p.Marked c.capture) (playback : p.Marked false)
      (unmarked : c.capture = false → ¬ q.Marked false)

theorem startPath_executed {c : Call} (hc : c.PlaybackOnly) (haction : c.action = .start) {p : Path} (ho : Owned p) :
    Owned (startPath c.prm c.env c.capture p).1 ∧ Executed c p (startPath c.prm c.env c.capture p).1 := by
  rcases startPath_cases c.prm c.env c.capture p with ⟨hr, -, he⟩ | ⟨hm, he⟩ | ⟨hm, -, he⟩
  · rw [he]
    refine ⟨ho, .nothing rfl rfl Iff.rfl ?_⟩
    intro _ hplay
    exact absurd hplay.runtime (by rw [hr]; exact Bool.false_ne_true)
  · rw [he]
    refine ⟨ho, .nothing rfl rfl Iff.rfl ?_⟩
    intro hcapture _
    exact ⟨fun _ => haction, fun _ => hcapture ▸ hm⟩
  · rw [he]
    have hmark : (mark c.capture p).Marked false ↔ c.capture = false ∨ p.Marked false := by
      rw [Path.Marked, mark_started]
      exact marked_mark _ _
    by_cases hw : (mark c.capture p).Marked false
    · obtain ⟨howned, hrunning, hstarted, hevents⟩ := startMarked_playback hc.requireBoth hc.succeeds ho hw
      refine ⟨howned, .start hrunning hevents ?_ haction hm ?_⟩
      · rw [Path.Marked, hstarted, ← mark_started]
        exact hw
      · intro hcapture
        exact (hmark.mp hw).resolve_left (by simp [hcapture])
    · have hunwanted : wanted c.prm (mark c.capture p).started = false :=
        Bool.eq_false_iff.mpr fun h => hw ((wanted_playback hc.requireBoth _).mp h)
      have hplay : ¬ p.Marked false := fun h => hw (hmark.mpr (Or.inr h))
      rw [startMarked_unwanted c.prm c.env hunwanted]
      exact ⟨mark_owned ho, .nothing rfl rfl (iff_of_false hw hplay) fun _ h => absurd h hplay⟩

theorem stopPath_executed {c : Call} (hc : c.PlaybackOnly) (haction : c.action = .stop) {p : Path} (ho : Owned p) :
    Owned (stopPath c.prm c.env c.capture p) ∧ Executed c p (stopPath c.prm c.env c.capture p) := by
  by_cases hm : p.Marked c.capture
  · have hspec := unmark_spec c.prm c.env hm
    have hmarked : (unmark c.prm c.env c.capture p).Marked false ↔ c.capture = true ∧ p.Marked false := by
      rw [Path.Marked, hspec.started]
      exact marked_unmark _ _
    have hunmark : Executed c p (unmark c.prm c.env c.capture p) := by
      by_cases hplay : p.Marked false
      · obtain ⟨hdown, hevents⟩ := hspec.stopped ((wanted_playback hc.requireBoth p).mpr hplay)
        refine .stop (hdown (succeeds_undoes hc.succeeds)).running hevents haction hm hplay ?_
        intro hcapture h
        exact absurd ((hmarked.mp h).1.symm.trans hcapture) (by decide)
      · have hunwanted : wanted c.prm p.started = false :=
          Bool.eq_false_iff.mpr fun h => hplay ((wanted_playback hc.requireBoth p).mp h)
        obtain ⟨hdsp, hevents⟩ := hspec.idle hunwanted
        exact .nothing (congrArg Dsp.running hdsp) hevents
          (iff_of_false (fun h => hplay (hmarked.mp h).2) hplay) fun _ h => absurd h hplay
    rw [stopPath_marked c.prm c.env hm]
    split_ifs with hzero
    · -- the last direction: the runtime goes too, with both bits clear before and after
      have hdestroy := pathDestroy_spec (unmark c.prm c.env c.capture p)
      have hq : ¬ (q6voicePathDestroy (unmark c.prm c.env c.capture p)).Marked false := by
        rw [Path.Marked, Path.started, hdestroy.runtime]
        decide
      have hu : ¬ (unmark c.prm c.env c.capture p).Marked false := by
        rw [Path.Marked, hspec.started, hzero]
        decide
      refine ⟨?_, ?_⟩
      · intro svc
        rw [hdestroy.registered (hspec.owned ho), Path.session, hdestroy.runtime]
      · cases hunmark with
        | nothing running events marked idle =>
            exact .nothing (hdestroy.dsp ▸ running) (hdestroy.events.trans events)
              (iff_of_false hq fun h => hu (marked.mpr h)) idle
        | start running events marked action unmarked playback => exact absurd marked hu
        | stop running events action marked playback unmarked =>
            exact .stop (hdestroy.dsp ▸ running) (hdestroy.events.trans events) action marked playback fun _ => hq
    · exact ⟨hspec.owned ho, hunmark⟩
  · rw [stopPath_unmarked c.prm c.env hm]
    refine ⟨ho, .nothing rfl rfl Iff.rfl ?_⟩
    intro hcapture _
    exact ⟨fun h => absurd (hcapture ▸ h) hm, fun h => absurd (haction.symm.trans h) (by decide)⟩

theorem callPath_executed {c : Call} (hc : c.PlaybackOnly) {p : Path} (ho : Owned p) :
    Owned (callPath c p) ∧ Executed c p (callPath c p) := by
  unfold callPath
  cases haction : c.action with
  | start => exact startPath_executed hc haction ho
  | stop => exact stopPath_executed hc haction ho

/-- A call on its own path, from a session that follows playback. -/
theorem callPath_follows {c : Call} (hc : c.PlaybackOnly) {p : Path} (h : Follows p) :
    Follows (callPath c p) ∧
        (c.capture = true → (callPath c p).pathEvents = p.pathEvents ∧ (callPath c p).dsp.running = p.dsp.running) ↔
      (c.capture = true → p.Marked false → (p.Marked true ↔ c.action = .start)) := by
  obtain ⟨howned, hexec⟩ := callPath_executed hc h.owned
  have hkept : ∀ {l : List Event} {e : Event}, l ++ [e] ≠ l := by simp
  cases hexec with
  | nothing running events marked idle =>
      refine ⟨fun _ => idle, fun _ => ⟨⟨howned, ?_, ?_⟩, fun _ => ⟨events, running⟩⟩⟩
      · rw [running, marked]
        exact h.running
      · rw [Path.Sound, events]
        exact h.sound
  | start running events marked action unmarked playback =>
      cases hcapture : c.capture with
      | true =>
          rw [hcapture] at unmarked
          constructor
          · exact fun hkeep => absurd (events.symm.trans (hkeep.2 rfl).1) hkept
          · exact fun hidle => absurd ((hidle rfl (playback hcapture)).mpr action) unmarked
      | false =>
          rw [hcapture] at unmarked
          have hstopped : p.dsp.running = false := Bool.eq_false_iff.mpr fun hr => unmarked (h.running.mp hr)
          refine ⟨fun _ h => absurd h Bool.false_ne_true, fun _ =>
            ⟨⟨howned, iff_of_true running marked, ?_⟩, fun h => absurd h Bool.false_ne_true⟩⟩
          exact h.sound.append events hstopped
  | stop running events action marked playback unmarked =>
      cases hcapture : c.capture with
      | true =>
          rw [hcapture] at marked
          constructor
          · exact fun hkeep => absurd (events.symm.trans (hkeep.2 rfl).1) hkept
          · exact fun hidle => absurd (action.symm.trans ((hidle rfl playback).mp marked)) (by decide)
      | false =>
          have hq := unmarked hcapture
          refine ⟨fun _ h => absurd h Bool.false_ne_true, fun _ =>
            ⟨⟨howned, iff_of_false ?_ hq, ?_⟩, fun h => absurd h Bool.false_ne_true⟩⟩
          · rw [running]
            exact Bool.false_ne_true
          · exact h.sound.append events (h.running.mpr playback)

theorem followsPlayback_iff {v : Paths} {c : PlaybackCall} (hv : ∀ path, Follows (v path)) :
    FollowsPlayback v c ↔ Undisturbed v c := by
  have hself : call v c.1 c.1.path = callPath c.1 (v c.1.path) := by
    rw [call_eq, Function.update_self]
  have hother : ∀ path, path ≠ c.1.path → call v c.1 path = v path := by
    intro path hne
    rw [call_eq, Function.update_of_ne hne]
  have hstep := callPath_follows c.2 (hv c.1.path)
  rw [← hself] at hstep
  constructor
  · intro h
    refine hstep.mp ⟨⟨?_, h.running _, fun e he => h.sound _ e (List.mem_of_mem_filter he)⟩, fun hc => h.capture hc _⟩
    rw [hself]
    exact (callPath_executed c.2 (hv c.1.path).owned).1
  · intro h
    obtain ⟨hfollows, hcapture⟩ := hstep.mpr h
    constructor
    case running =>
      intro path
      by_cases hp : path = c.1.path
      · exact hp ▸ hfollows.running
      · exact hother path hp ▸ (hv path).running
    case capture =>
      intro hc path
      by_cases hp : path = c.1.path
      · exact hp ▸ hcapture hc
      · rw [hother path hp]
        exact ⟨rfl, rfl⟩
    case sound =>
      intro path
      by_cases hp : path = c.1.path
      · exact hp ▸ hfollows.sound.log
      · exact hother path hp ▸ (hv path).sound.log

theorem step_follows {v : Paths} {c : PlaybackCall} (hv : ∀ path, Follows (v path)) (hc : Undisturbed v c)
    (path : PathType) : Follows (PlaybackCall.step v c path) := by
  have h := (followsPlayback_iff hv).mpr hc
  refine ⟨?_, h.running path, fun e he => h.sound path e (List.mem_of_mem_filter he)⟩
  exact call_invariant (I := Owned) (fun p hp => (callPath_executed c.2 hp).1) (fun q => (hv q).owned) path

/-- Removal stops a session that follows playback exactly where both directions or none are marked,
or capture alone. -/
theorem freePath_stops {prm : Params} {env : Env} (hresp : ∀ cmd, env.resp cmd = 0) {p : Path} (h : Follows p) :
    (freePath prm env p).dsp.running = false ↔ p.started ≠ 1 := by
  have hbits : ∀ s : BitVec 2, s &&& bit false ≠ 0 ↔ s = 1 ∨ s = 3 := by decide
  have hrunning : p.dsp.running = true ↔ p.started = 1 ∨ p.started = 3 := h.running.trans (hbits _)
  by_cases h3 : p.started = 3
  · have hplay : p.Marked false := (hbits _).mpr (Or.inr h3)
    have hr := hplay.runtime
    have hstop := pathStop_spec env prm p
    have hdestroy := pathDestroy_spec (q6voicePathStop prm env p)
    rw [freePath, if_pos hr, if_pos h3, hdestroy.dsp, (hstop.down (succeeds_undoes hresp)).running, h3]
    decide
  · have hsame : (freePath prm env p).dsp = p.dsp := by
      unfold freePath
      rw [if_neg h3]
      split_ifs
      · exact (pathDestroy_spec p).dsp
      · rfl
    rw [hsame, ← Bool.not_eq_true, hrunning]
    exact not_congr (or_iff_left h3)

/-- The answers of removal, all of them zero. -/
abbrev FreeEnv := { env : PathType → Env // ∀ path cmd, (env path).resp cmd = 0 }

/-- In every run of the mode followed by removal, the sessions follow playback and none is left
running exactly when no capture call disturbs a path in playback and removal finds no path with
playback alone. -/
theorem playback_only_iff (calls : List PlaybackCall) (prm : Params) (env : FreeEnv) :
    (Always PlaybackCall.step FollowsPlayback q6voiceCreate calls ∧
        ∀ path, (q6voiceFree prm env.1 (run PlaybackCall.step q6voiceCreate calls) path).dsp.running = false) ↔
      Always PlaybackCall.step Undisturbed q6voiceCreate calls ∧
        ∀ path, (run PlaybackCall.step q6voiceCreate calls path).started ≠ 1 := by
  have hnew : ∀ path, Follows (q6voiceCreate path) := fun _ => newPath_follows
  have hstep : ∀ (v : Paths) (c : PlaybackCall), (∀ path, Follows (v path)) → Undisturbed v c →
      ∀ path, Follows (PlaybackCall.step v c path) := fun v c hv hc => step_follows hv hc
  rw [always_iff_of_invariant hstep (fun v c hv => followsPlayback_iff hv) hnew]
  refine and_congr_right fun hcalls => ?_
  have hend := run_invariant hstep hnew hcalls
  exact forall_congr' fun path => freePath_stops (env.2 path) (hend path)

/-- The capture direction is opened during playback. -/
def captureInPlayback : List PlaybackCall :=
  [⟨⟨.start, .voice, false, ⟨false, true, 0, 0, false⟩, ⟨fun _ => 0, true, .null⟩⟩, rfl, rfl, rfl, fun _ => rfl⟩,
    ⟨⟨.start, .voice, true, ⟨false, true, 0, 0, false⟩, ⟨fun _ => 0, true, .null⟩⟩, rfl, rfl, rfl, fun _ => rfl⟩]

/-- The session is started a second time while it runs. -/
theorem capture_restarts_playback :
    ¬ ∀ (calls : List PlaybackCall) (prm : Params) (env : FreeEnv),
      Always PlaybackCall.step FollowsPlayback q6voiceCreate calls ∧
        ∀ path, (q6voiceFree prm env.1 (run PlaybackCall.step q6voiceCreate calls) path).dsp.running = false := by
  intro h
  have hsteps := (h captureInPlayback ⟨false, true, 0, 0, false⟩ ⟨fun _ => ⟨fun _ => 0, true, .null⟩, fun _ _ => rfl⟩).1
  have hsound := hsteps.2.1.sound .voice (.pathStart true) (by decide)
  exact Bool.noConfusion hsound

end Sirius.Q6voice
