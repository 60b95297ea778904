import Sirius.Q6voice.Calls

/-!
# The voice PCM, drivers/audio/q6voice/q6voice-dai.c

Prepare and shutdown each read `voice_path` afresh and use it as an index. What a prepare
started is stopped by the shutdown of its direction only if that reads the same path; an index
past the array is followed to nowhere, which is `none`.
-/
namespace Sirius.Q6voice
open Runs

/-- `&v->paths[path]` -/
def pathOf : ℤ → Option PathType
  | 0 => some .voice
  | 1 => some .voip
  | 2 => some .volte
  | 3 => some .voice2
  | 4 => some .qchat
  | 5 => some .vowlan
  | 6 => some .voicemmode1
  | 7 => some .voicemmode2
  | _ => none

def q6voiceDaiPrepare (prm : Params) (env : Env) (v : Paths) (voicePath : ℤ) (stream : Bool) :
    Option (Paths × ℤ) := do
  let path ← pathOf voicePath
  let (v, ret) := q6voiceStart prm env v path stream
  -- prepare can be called again on a stream that is already running
  if ret = -EALREADY then some (v, 0) else some (v, ret)

def q6voiceDaiShutdown (prm : Params) (env : Env) (v : Paths) (voicePath : ℤ) (stream : Bool) : Option Paths := do
  let path ← pathOf voicePath
  some (q6voiceStop prm env v path stream)

/-- The device, its parameter, and which substreams were prepared and not shut down since. -/
structure Dai where
  v : Paths
  voicePath : ℤ
  prepared : Bool → Bool

/-- `q6voice_dai_probe`, with the default of `voice_path`. -/
def q6voiceDaiProbe : Dai where
  v := q6voiceCreate
  voicePath := 0
  prepared := fun _ => false

/-- What happens to the DAI: calls on a direction, with the parameters and answers they get, and
writes to `voice_path`. -/
inductive DaiOp
  | prepare (stream : Bool) (prm : Params) (env : Env)
  | shutdown (stream : Bool) (prm : Params) (env : Env)
  | write (n : ℤ)

def Dai.step (d : Dai) : DaiOp → Option Dai
  | .prepare stream prm env => do
      let (v, _) ← q6voiceDaiPrepare prm env d.v d.voicePath stream
      some { d with v, prepared := Function.update d.prepared stream true }
  | .shutdown stream prm env => do
      let v ← q6voiceDaiShutdown prm env d.v d.voicePath stream
      some { d with v, prepared := Function.update d.prepared stream false }
  | .write n => some { d with voicePath := n }

/-- Nothing is defined once an index has left the array. -/
def daiStep (s : Option Dai) (op : DaiOp) : Option Dai := s.bind fun d => d.step op

/-- Both substreams have been shut down. -/
def Dai.Closed (d : Dai) : Prop := ∀ stream, d.prepared stream = false

def Dai.Unmarked (d : Dai) : Prop := ∀ path, (d.v path).started = 0

/-- A closed PCM has no direction marked, and a path that loses its last direction gives its
sessions back. -/
structure Dai.Left (d d' : Dai) : Prop where
  closed : d'.Closed → d'.Unmarked
  released : ∀ path, (d.v path).started ≠ 0 → (d'.v path).started = 0 →
    (d'.v path).runtime = none ∧ ∀ svc, (d'.v path).registered svc = .null

/-- The step uses a path of the array and undoes what was started. -/
def Undone (s : Option Dai) (op : DaiOp) : Prop := ∃ d d', s = some d ∧ d.step op = some d' ∧ d.Left d'

/-- A prepare or shutdown reads a path of the array, and the shutdown that closes the PCM finds no
direction marked but its own on the path it reads. -/
def Returns (s : Option Dai) (op : DaiOp) : Prop :=
  ∀ d, s = some d → match op with
    | .prepare _ _ _ => (pathOf d.voicePath).isSome
    | .shutdown stream _ _ => (pathOf d.voicePath).isSome ∧ (d.prepared (!stream) = false →
        ∀ path capture, (d.v path).Marked capture → pathOf d.voicePath = some path ∧ capture = stream)
    | .write _ => True

theorem bits_unmarked : ∀ (s : BitVec 2) (capture : Bool), s &&& bit capture = 0 → s &&& ~~~bit capture = s := by
  decide

theorem bits_zero : ∀ s : BitVec 2, s = 0 ↔ ∀ capture, s &&& bit capture = 0 := by
  decide

theorem bits_left : ∀ (s : BitVec 2) (capture : Bool),
    s &&& ~~~bit capture = 0 ↔ ∀ capture', s &&& bit capture' ≠ 0 → capture' = capture := by
  decide

theorem bits_kept : ∀ (s : BitVec 2) (capture : Bool), s ≠ 0 → s ||| bit capture ≠ 0 := by
  decide

section
variable {prm : Params} {env : Env} {p : Path} {capture : Bool}

/-- A start keeps the directions marked, and marks its own at most. -/
theorem startPath_marks (ho : Owned p) : Owned (startPath prm env capture p).1 ∧
    (p.started ≠ 0 → (startPath prm env capture p).1.started ≠ 0) := by
  rcases startPath_cases prm env capture p with ⟨-, -, he⟩ | ⟨-, he⟩ | ⟨hm, -, he⟩
  · rw [he]
    exact ⟨ho, id⟩
  · rw [he]
    exact ⟨ho, id⟩
  · rw [he]
    have howned : Owned (mark capture p) := mark_owned ho
    cases hw : wanted prm (mark capture p).started with
    | false =>
        rw [startMarked_unwanted prm env hw, mark_started]
        exact ⟨howned, bits_kept _ _⟩
    | true =>
        have hstart := pathStart_spec env prm (p := mark capture p) rfl howned
        rcases @startMarked_wanted prm env capture _ hw with ⟨-, he⟩ | ⟨-, he⟩
        · rw [he, hstart.started, mark_started]
          exact ⟨hstart.owned, bits_kept _ _⟩
        · rw [he]
          refine ⟨fun svc => ?_, fun hne => ?_⟩
          · rw [session_setStarted]
            exact hstart.owned svc
          · rw [started_setStarted hstart.runtime, hstart.started, mark_started, bits_mark _ _ (not_not.mp hm)]
            exact hne

/-- What a stop leaves of its path. -/
structure Stopped (capture : Bool) (p q : Path) : Prop where
  owned : Owned q
  started : q.started = p.started &&& ~~~bit capture
  released : p.started ≠ 0 → q.started = 0 → q.runtime = none ∧ ∀ svc, q.registered svc = .null

variable (prm env capture) in
theorem stopPath_stopped (ho : Owned p) : Stopped capture p (stopPath prm env capture p) := by
  by_cases hm : p.Marked capture
  · have hspec := unmark_spec prm env hm
    have hdestroy := pathDestroy_spec (unmark prm env capture p)
    have hnull := hdestroy.registered (hspec.owned ho)
    rw [stopPath_marked prm env hm]
    split_ifs with hzero
    · refine ⟨fun svc => ?_, ?_, fun _ _ => ⟨hdestroy.runtime, hnull⟩⟩
      · rw [hnull, Path.session, hdestroy.runtime]
      · rw [hzero, Path.started, hdestroy.runtime]
    · exact ⟨hspec.owned ho, hspec.started, fun _ hz => absurd (hspec.started.symm.trans hz) hzero⟩
  · rw [stopPath_unmarked prm env hm]
    exact ⟨ho, (bits_unmarked _ _ (not_not.mp hm)).symm, fun hne hz => absurd hz hne⟩

end

/-- What every state reached without leaving the array keeps. -/
structure Dai.Kept (d : Dai) : Prop where
  owned : ∀ path, Owned (d.v path)
  closed : d.Closed → d.Unmarked

theorem probe_kept : q6voiceDaiProbe.Kept := ⟨fun _ _ => rfl, fun _ _ => rfl⟩

section
variable {d : Dai}

theorem step_prepare (stream : Bool) (prm : Params) (env : Env) {path : PathType}
    (hpath : pathOf d.voicePath = some path) : d.step (.prepare stream prm env) =
      some { d with
        v := Function.update d.v path (startPath prm env stream (d.v path)).1
        prepared := Function.update d.prepared stream true } := by
  have hprepare : ∃ ret, q6voiceDaiPrepare prm env d.v d.voicePath stream =
      some (Function.update d.v path (startPath prm env stream (d.v path)).1, ret) := by
    rw [q6voiceDaiPrepare, hpath]
    by_cases hret : (startPath prm env stream (d.v path)).2 = -EALREADY
    · exact ⟨0, if_pos hret⟩
    · exact ⟨_, if_neg hret⟩
  obtain ⟨ret, hprepare⟩ := hprepare
  rw [Dai.step, hprepare]
  rfl

theorem step_shutdown (stream : Bool) (prm : Params) (env : Env) {path : PathType}
    (hpath : pathOf d.voicePath = some path) : d.step (.shutdown stream prm env) =
      some { d with
        v := Function.update d.v path (stopPath prm env stream (d.v path))
        prepared := Function.update d.prepared stream false } := by
  simp only [Dai.step, q6voiceDaiShutdown, hpath, q6voiceStop, Option.bind_eq_bind, Option.bind_some]

/-- A prepare leaves its own direction open. -/
theorem prepare_left (h : d.Kept) (stream : Bool) (prm : Params) (env : Env) {path : PathType}
    (hpath : pathOf d.voicePath = some path) :
    ∃ d', d.step (.prepare stream prm env) = some d' ∧ d.Left d' ∧ d'.Kept := by
  have hopen : ∀ d' : Dai, d'.prepared = Function.update d.prepared stream true → ¬ d'.Closed := by
    intro d' hd hclosed
    have := hclosed stream
    rw [hd, Function.update_self] at this
    exact absurd this (by decide)
  refine ⟨_, step_prepare stream prm env hpath, ⟨fun hc => absurd hc (hopen _ rfl), ?_⟩, ?_,
    fun hc => absurd hc (hopen _ rfl)⟩
  · intro path' hne hzero
    dsimp only at hzero
    by_cases hp : path' = path
    · rw [hp, Function.update_self] at hzero
      exact absurd hzero ((startPath_marks (h.owned path)).2 (hp ▸ hne))
    · rw [Function.update_of_ne hp] at hzero
      exact absurd hzero hne
  · intro path'
    dsimp only
    by_cases hp : path' = path
    · rw [hp, Function.update_self]
      exact (startPath_marks (h.owned path)).1
    · rw [Function.update_of_ne hp]
      exact h.owned path'

theorem shutdown_left (h : d.Kept) (stream : Bool) (prm : Params) (env : Env) {path : PathType}
    (hpath : pathOf d.voicePath = some path) :
    ∃ d', d.step (.shutdown stream prm env) = some d' ∧
      (d.Left d' ↔ (d.prepared (!stream) = false →
        ∀ path' capture, (d.v path').Marked capture → path = path' ∧ capture = stream)) ∧ (d.Left d' → d'.Kept) := by
  have hstop := stopPath_stopped prm env stream (h.owned path)
  refine ⟨_, step_shutdown stream prm env hpath, ?_, ?_⟩
  · have hclosed : ∀ d' : Dai, d'.prepared = Function.update d.prepared stream false →
        (d'.Closed ↔ d.prepared (!stream) = false) := by
      intro d' hd
      unfold Dai.Closed
      rw [hd]
      constructor
      · intro hc
        have := hc (!stream)
        rwa [Function.update_of_ne (by cases stream <;> decide)] at this
      · intro hc capture
        by_cases hs : capture = stream
        · rw [hs, Function.update_self]
        · rw [Function.update_of_ne hs, ← hc]
          congr 1
          cases capture <;> cases stream <;> first | rfl | exact absurd rfl hs
    have hunmarked : (∀ path', (Function.update d.v path (stopPath prm env stream (d.v path)) path').started = 0) ↔
        ∀ path' capture, (d.v path').Marked capture → path = path' ∧ capture = stream := by
      refine forall_congr' fun path' => ?_
      by_cases hp : path' = path
      · rw [hp, Function.update_self, hstop.started, bits_left]
        exact forall_congr' fun capture => imp_congr_right fun _ => (and_iff_right rfl).symm
      · rw [Function.update_of_ne hp, bits_zero]
        refine forall_congr' fun capture => ⟨fun hz hm => absurd hz hm, fun hm => ?_⟩
        by_contra hne
        exact hp (hm hne).1.symm
    have hreleased : ∀ path', (d.v path').started ≠ 0 →
        (Function.update d.v path (stopPath prm env stream (d.v path)) path').started = 0 →
        (Function.update d.v path (stopPath prm env stream (d.v path)) path').runtime = none ∧
          ∀ svc, (Function.update d.v path (stopPath prm env stream (d.v path)) path').registered svc = .null := by
      intro path' hne hzero
      by_cases hp : path' = path
      · subst hp
        rw [Function.update_self] at hzero ⊢
        exact hstop.released hne hzero
      · rw [Function.update_of_ne hp] at hzero
        exact absurd hzero hne
    constructor
    · exact fun hleft hother => hunmarked.mp (hleft.closed ((hclosed _ rfl).mpr hother))
    · exact fun hc => ⟨fun hother => hunmarked.mpr (hc ((hclosed _ rfl).mp hother)), hreleased⟩
  · intro hleft
    refine ⟨fun path' => ?_, hleft.closed⟩
    dsimp only
    by_cases hp : path' = path
    · rw [hp, Function.update_self]
      exact hstop.owned
    · rw [Function.update_of_ne hp]
      exact h.owned path'

/-- What a step leaves, from a state that keeps the invariant. -/
theorem undone_iff (h : d.Kept) (op : DaiOp) :
    (Undone (some d) op ↔ Returns (some d) op) ∧
      (Undone (some d) op → ∃ d', daiStep (some d) op = some d' ∧ d'.Kept) := by
  have hundone : ∀ {d'}, d.step op = some d' → (Undone (some d) op ↔ d.Left d') := by
    intro d' hstep
    constructor
    · rintro ⟨d₀, d'', he, hstep', hleft⟩
      cases he
      rw [hstep, Option.some.injEq] at hstep'
      exact hstep' ▸ hleft
    · exact fun hleft => ⟨d, d', rfl, hstep, hleft⟩
  have hfault : d.step op = none → ¬ Undone (some d) op := by
    rintro hnone ⟨d₀, d', he, hstep, -⟩
    cases he
    rw [hnone] at hstep
    cases hstep
  have hreturns : ∀ {P : Dai → Prop}, (∀ d', some d = some d' → P d') ↔ P d := by
    intro P
    exact ⟨fun hP => hP d rfl, fun hP d' he => by cases he; exact hP⟩
  unfold Returns
  rw [hreturns]
  cases op with
  | write n =>
      have hleft : d.Left { d with voicePath := n } := ⟨h.closed, fun _ hne hzero => absurd hzero hne⟩
      rw [hundone rfl]
      exact ⟨iff_of_true hleft trivial, fun _ => ⟨_, rfl, h.owned, h.closed⟩⟩
  | prepare stream prm env =>
      cases hpath : pathOf d.voicePath with
      | none =>
          have hnot := hfault (by simp only [Dai.step, q6voiceDaiPrepare, hpath]; rfl)
          exact ⟨iff_of_false hnot (by simp), fun hu => absurd hu hnot⟩
      | some path =>
          obtain ⟨d', hstep, hleft, hkept⟩ := prepare_left h stream prm env hpath
          rw [hundone hstep]
          exact ⟨iff_of_true hleft rfl, fun _ => ⟨d', hstep, hkept⟩⟩
  | shutdown stream prm env =>
      cases hpath : pathOf d.voicePath with
      | none =>
          have hnot := hfault (by simp only [Dai.step, q6voiceDaiShutdown, hpath]; rfl)
          exact ⟨iff_of_false hnot (by simp), fun hu => absurd hu hnot⟩
      | some path =>
          obtain ⟨d', hstep, hleft, hkept⟩ := shutdown_left h stream prm env hpath
          rw [hundone hstep, hleft]
          refine ⟨?_, fun hc => ⟨d', hstep, hkept (hleft.mpr hc)⟩⟩
          simp only [Option.isSome_some, true_and, Option.some.injEq]

end

/-- In every run, the closes undo the prepares exactly when each shutdown that closes the PCM reads the
path on which what is left was started, and no index leaves the array. -/
theorem closes_undo_prepares_iff (ops : List DaiOp) :
    Always daiStep Undone (some q6voiceDaiProbe) ops ↔ Always daiStep Returns (some q6voiceDaiProbe) ops := by
  have hkept : ∀ {s : Option Dai} {op : DaiOp}, (∃ d, s = some d ∧ d.Kept) →
      (Undone s op ↔ Returns s op) ∧ (Undone s op → ∃ d', daiStep s op = some d' ∧ d'.Kept) := by
    rintro _ op ⟨d, rfl, hd⟩
    exact undone_iff hd op
  apply always_iff_of_invariant (I := fun s : Option Dai => ∃ d, s = some d ∧ d.Kept)
  · intro s op hs hc
    exact (hkept hs).2 ((hkept hs).1.mpr hc)
  · exact fun s op hs => (hkept hs).1
  · exact ⟨_, rfl, probe_kept⟩

/-- The path is changed between the prepare and the shutdown of playback. -/
def changedPath : List DaiOp :=
  let prm : Params := ⟨false, true, 0, 0x4001, true⟩
  let env : Env := ⟨fun _ => 0, true, .null⟩
  [.prepare false prm env, .write 2, .shutdown false prm env]

/-- Playback stays marked on the path it was started on. -/
theorem changedPath_stays_started : ¬ ∀ ops, Always daiStep Undone (some q6voiceDaiProbe) ops := by
  intro h
  obtain ⟨d, d', hd, hstep, hleft⟩ := (h changedPath).2.2.1
  cases hd
  cases hstep
  exact absurd (hleft.closed (fun stream => by cases stream <;> rfl) .voice) (by decide)

end Sirius.Q6voice
