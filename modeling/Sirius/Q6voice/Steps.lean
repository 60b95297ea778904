import Sirius.Q6voice.Model

/-!
# What each function of a voice path changes

The rungs of `q6voice_path_start` change the sessions and what the DSP has been told; the
directions marked started change in start and stop alone.
-/
namespace Sirius.Q6voice

/-- The slots of the services hold exactly the sessions of the runtime. -/
def Owned (p : Path) : Prop := ∀ svc, p.registered svc = p.session svc

def Event.isPath : Event → Bool
  | .pathStart _ | .pathStop _ => true
  | _ => false

/-- The executions of the two path functions so far. -/
def Path.pathEvents (p : Path) : List Event := p.log.filter Event.isPath

/-- Nothing but sessions, commands and what they tell the DSP has changed. -/
structure Same (p q : Path) : Prop where
  runtime : q.runtime.isSome = p.runtime.isSome
  started : q.started = p.started
  events : q.pathEvents = p.pathEvents
  owned : p.runtime.isSome → Owned p → Owned q

theorem Same.refl (p : Path) : Same p p := ⟨rfl, rfl, rfl, fun _ h => h⟩

theorem Same.trans {p q r : Path} (h : Same p q) (h' : Same q r) : Same p r :=
  ⟨h'.runtime.trans h.runtime, h'.started.trans h.started, h'.events.trans h.events,
    fun hs ho => h'.owned (h.runtime.trans hs) (h.owned hs ho)⟩

theorem pathEvents_record {e : Event} (he : e.isPath = false) (p : Path) :
    (record e p).pathEvents = p.pathEvents := by
  simp [Path.pathEvents, record, he]

section
variable (env : Env)

/-- What a command leaves of the DSP. -/
def Cmd.apply (d : Dsp) (c : Cmd) : Dsp := if env.resp c = 0 then c.effect d else d

@[simp] theorem send_dsp (s : Ptr) (c : Cmd) (p : Path) : (send env s c p).1.dsp = c.apply env p.dsp := rfl

@[simp] theorem send_ret (s : Ptr) (c : Cmd) (p : Path) : (send env s c p).2 = env.resp c := rfl

theorem send_same (s : Ptr) (c : Cmd) (p : Path) : Same p (send env s c p).1 :=
  ⟨rfl, rfl, pathEvents_record rfl _, fun _ h => h⟩

/-- A session is created when its slot is free and the DSP agrees. -/
theorem sessionCreate_ok {svc : Service} {c : Cmd} {p : Path} (hfree : p.registered svc = .null)
    (hresp : env.resp c = 0) :
    sessionCreate env svc c p = ({ (send env (.session p.nextId) c { p with nextId := p.nextId + 1 }).1 with
      registered := Function.update p.registered svc (.session p.nextId) }, .ok (.session p.nextId)) := by
  rw [sessionCreate, if_neg (not_not.mpr hfree)]
  simp only [send_ret, hresp, ne_eq, not_true_eq_false, if_false]
  rfl

theorem sessionCreate_fails {svc : Service} {c : Cmd} {p : Path} (hfree : p.registered svc = .null)
    (hresp : env.resp c ≠ 0) :
    sessionCreate env svc c p =
      ((send env (.session p.nextId) c { p with nextId := p.nextId + 1 }).1, .error (env.resp c)) := by
  rw [sessionCreate, if_neg (not_not.mpr hfree)]
  simp only [send_ret, hresp, ne_eq, not_false_eq_true, if_true]

/-- A rung that opens the session of a service: it succeeds exactly when `ok` holds. -/
structure Rung (svc : Service) (ok : Prop) (p : Path) (r : Path × Except ℤ Ptr) : Prop where
  same : Same p r.1
  dsp : r.1.dsp = p.dsp
  others : ∀ svc', svc' ≠ svc → r.1.session svc' = p.session svc'
  opened : ok → ∃ s, s ≠ .null ∧ r.2 = .ok s ∧ r.1.session svc = s
  failed : ¬ ok → ∃ ret, ret ≠ 0 ∧ r.2 = .error ret ∧ r.1.session svc = p.session svc

variable {env} in
theorem Cmd.apply_ok {c : Cmd} (h : env.resp c = 0) (d : Dsp) : c.apply env d = c.effect d := if_pos h

variable {env} in
theorem Cmd.apply_failed {c : Cmd} (h : env.resp c ≠ 0) (d : Dsp) : c.apply env d = d := if_neg h

theorem Cmd.apply_of_inert {c : Cmd} (hc : ∀ d, c.effect d = d) (d : Dsp) : c.apply env d = d := by
  rw [Cmd.apply, hc, ite_self]

theorem session_setSession {p : Path} (hr : p.runtime.isSome) (svc : Service) (s : Ptr) (svc' : Service) :
    (p.setSession svc s).session svc' = if svc' = svc then s else p.session svc' := by
  obtain ⟨r, hr⟩ := Option.isSome_iff_exists.mp hr
  simp only [Path.session, Path.setSession, hr, Option.map_some, Function.update_apply]

theorem started_setSession (p : Path) (svc : Service) (s : Ptr) : (p.setSession svc s).started = p.started := by
  unfold Path.started Path.setSession
  cases p.runtime <;> rfl

/-- A new session, registered and entered in the runtime. -/
theorem same_of_opened {p q : Path} {svc : Service} {s : Ptr} (hr : p.runtime.isSome)
    (hruntime : q.runtime = p.runtime) (hevents : q.pathEvents = p.pathEvents)
    (hreg : q.registered = Function.update p.registered svc s) : Same p (q.setSession svc s) := by
  have hsession : ∀ svc, q.session svc = p.session svc := by
    intro svc
    rw [Path.session, hruntime, Path.session]
  refine ⟨?_, ?_, hevents, ?_⟩
  · rw [Path.setSession, hruntime, Option.isSome_map]
  · rw [started_setSession, Path.started, hruntime, Path.started]
  · intro _ ho svc'
    rw [session_setSession (hruntime ▸ hr), hsession]
    change q.registered svc' = _
    rw [hreg, Function.update_apply, ho svc']

theorem openSession_rung (svc : Service) {c : Cmd} (hc : ∀ d, c.effect d = d) {p : Path}
    (hr : p.runtime.isSome) (ho : Owned p) :
    Rung svc (p.session svc ≠ .null ∨ env.resp c = 0) p (openSession env svc c p) := by
  unfold openSession
  by_cases hs : p.session svc = .null
  · have hfree : p.registered svc = .null := (ho svc).trans hs
    rw [if_neg (not_not.mpr hs)]
    by_cases hresp : env.resp c = 0
    · rw [sessionCreate_ok env hfree hresp]
      refine ⟨same_of_opened hr rfl (pathEvents_record rfl _) rfl, Cmd.apply_of_inert env hc p.dsp, ?_, ?_, ?_⟩
      · intro svc' hne
        exact (session_setSession hr svc _ svc').trans (if_neg hne)
      · exact fun _ => ⟨_, Ptr.noConfusion, rfl, (session_setSession hr svc _ svc).trans (if_pos rfl)⟩
      · exact fun hok => absurd (Or.inr hresp) hok
    · rw [sessionCreate_fails env hfree hresp]
      refine ⟨⟨rfl, rfl, pathEvents_record rfl _, fun _ h => h⟩, Cmd.apply_of_inert env hc p.dsp,
        fun _ _ => rfl, ?_, ?_⟩
      · exact fun hok => absurd hok (not_or.mpr ⟨not_not.mpr hs, hresp⟩)
      · exact fun _ => ⟨_, hresp, rfl, rfl⟩
  · rw [if_pos hs]
    refine ⟨Same.refl p, rfl, fun _ _ => rfl, ?_, ?_⟩
    · exact fun _ => ⟨_, hs, rfl, rfl⟩
    · exact fun hok => absurd (Or.inl hs) hok

theorem openMvm_rung {p : Path} (hr : p.runtime.isSome) (ho : Owned p) :
    Rung .mvm (p.session .mvm ≠ .null ∨ env.resp .createMvm = 0 ∧ env.resp .setDualControl = 0) p
      (openMvm env p) := by
  unfold openMvm
  by_cases hs : p.session .mvm = .null
  · have hfree : p.registered .mvm = .null := (ho .mvm).trans hs
    rw [if_neg (not_not.mpr hs)]
    by_cases hresp : env.resp .createMvm = 0
    · rw [sessionCreate_ok env hfree hresp]
      dsimp only [send_ret]
      have hinert := fun d => Cmd.apply_of_inert env (c := .createMvm) (fun _ => rfl) d
      have hinert' := fun d => Cmd.apply_of_inert env (c := .setDualControl) (fun _ => rfl) d
      by_cases hdual : env.resp .setDualControl = 0
      · simp only [hdual, ne_eq, not_true_eq_false, if_false]
        refine ⟨same_of_opened hr rfl ((pathEvents_record rfl _).trans (pathEvents_record rfl _)) rfl,
          (hinert' _).trans (hinert _), ?_, ?_, ?_⟩
        · intro svc' hne
          exact (session_setSession hr .mvm _ svc').trans (if_neg hne)
        · exact fun _ => ⟨_, Ptr.noConfusion, rfl, (session_setSession hr .mvm _ .mvm).trans (if_pos rfl)⟩
        · exact fun hok => absurd (Or.inr ⟨hresp, trivial⟩) hok
      · simp only [ne_eq, hdual, not_false_eq_true, if_true]
        refine ⟨⟨rfl, rfl, ?_, ?_⟩, (hinert' _).trans (hinert _), fun _ _ => rfl, ?_, ?_⟩
        · exact (pathEvents_record rfl _).trans ((pathEvents_record rfl _).trans (pathEvents_record rfl _))
        · -- the session is released again, and the slot was free before
          intro _ ho svc
          change Function.update (Function.update p.registered .mvm _) .mvm .null svc = p.session svc
          rw [Function.update_idem, ← hfree, Function.update_eq_self]
          exact ho svc
        · exact fun hok => absurd hok (not_or.mpr ⟨not_not.mpr hs, fun h => h.2⟩)
        · exact fun _ => ⟨_, hdual, rfl, rfl⟩
    · rw [sessionCreate_fails env hfree hresp]
      refine ⟨⟨rfl, rfl, pathEvents_record rfl _, fun _ h => h⟩, Cmd.apply_of_inert env (fun _ => rfl) p.dsp,
        fun _ _ => rfl, ?_, ?_⟩
      · exact fun hok => absurd hok (not_or.mpr ⟨not_not.mpr hs, fun h => hresp h.1⟩)
      · exact fun _ => ⟨_, hresp, rfl, rfl⟩
  · rw [if_pos hs]
    refine ⟨Same.refl p, rfl, fun _ _ => rfl, ?_, ?_⟩
    · exact fun _ => ⟨_, hs, rfl, rfl⟩
    · exact fun hok => absurd (Or.inl hs) hok

variable (prm : Params)

/-- The sessions a start needs exist or can be created, and the stream can be attached. -/
structure Opens (p : Path) : Prop where
  mvm : p.session .mvm ≠ .null ∨ env.resp .createMvm = 0 ∧ env.resp .setDualControl = 0
  cvs : prm.attachStream = true → p.session .cvs ≠ .null ∨ env.resp .createCvs = 0
  stream : prm.attachStream = true → env.resp (.attachStream true) = 0
  cvp : p.session .cvp ≠ .null ∨ env.resp (.createCvp prm.txPort AFE_PORT_ID_QUATERNARY_MI2S_RX) = 0

/-- The DSP accepts the last three commands of a start. -/
structure Accepts : Prop where
  enable : env.resp (.enable true) = 0
  attach : env.resp (.attach true) = 0
  start : env.resp (.start true) = 0

/-- The start gets as far as attaching its own stream. -/
structure Streams (p : Path) : Prop where
  attachStream : prm.attachStream = true
  mvm : p.session .mvm ≠ .null ∨ env.resp .createMvm = 0 ∧ env.resp .setDualControl = 0
  cvs : p.session .cvs ≠ .null ∨ env.resp .createCvs = 0
  stream : env.resp (.attachStream true) = 0

/-- The second rung, from a path whose MVM session is there. -/
theorem openStream_spec {p : Path} (mvm : Ptr) (hr : p.runtime.isSome) (ho : Owned p) :
    ∃ q r, openStream prm env mvm p = (q, r) ∧ Same p q ∧ (∀ svc, svc ≠ .cvs → q.session svc = p.session svc) ∧
      ((prm.attachStream = false ∧ q = p ∧ r = .ok env.stackCvs) ∨
        (prm.attachStream = true ∧ (p.session .cvs ≠ .null ∨ env.resp .createCvs = 0) ∧
          env.resp (.attachStream true) = 0 ∧ q.dsp = { p.dsp with streamAttached := true } ∧
          r = .ok (q.session .cvs) ∧ q.session .cvs ≠ .null) ∨
        (prm.attachStream = true ∧ ¬ ((p.session .cvs ≠ .null ∨ env.resp .createCvs = 0) ∧
          env.resp (.attachStream true) = 0) ∧ q.dsp = p.dsp ∧ ∃ ret, ret ≠ 0 ∧ r = .error ret)) := by
  unfold openStream
  cases hattach : prm.attachStream with
  | false => exact ⟨p, _, rfl, Same.refl p, fun _ _ => rfl, Or.inl ⟨rfl, rfl, rfl⟩⟩
  | true =>
      have hrung := openSession_rung env .cvs (c := .createCvs) (fun _ => rfl) hr ho
      rw [if_pos rfl, openCvs]
      rcases hopen : openSession env .cvs .createCvs p with ⟨q, r⟩
      rw [hopen] at hrung
      by_cases hok : p.session .cvs ≠ .null ∨ env.resp .createCvs = 0
      · obtain ⟨s, hs, rfl, hsession⟩ := hrung.opened hok
        have hdsp : q.dsp = p.dsp := hrung.dsp
        have hsame := hrung.same.trans (send_same env mvm (.attachStream true) q)
        dsimp only
        by_cases hstream : (send env mvm (.attachStream true) q).2 = 0
        · rw [if_neg (not_not.mpr hstream)]
          refine ⟨_, _, rfl, hsame, hrung.others, Or.inr (Or.inl ⟨rfl, hok, hstream, ?_, ?_, ?_⟩)⟩
          · rw [send_dsp, Cmd.apply_ok hstream, hdsp]
            rfl
          · exact congrArg Except.ok hsession.symm
          · exact hsession.symm ▸ hs
        · rw [if_pos hstream]
          refine ⟨_, _, rfl, hsame, hrung.others, Or.inr (Or.inr ⟨rfl, fun h => hstream h.2, ?_, _, hstream, rfl⟩)⟩
          rw [send_dsp, Cmd.apply_failed hstream, hdsp]
      · obtain ⟨ret, hret, rfl, -⟩ := hrung.failed hok
        exact ⟨q, _, rfl, hrung.same, hrung.others, Or.inr (Or.inr ⟨rfl, fun h => hok h.1, hrung.dsp, ret, hret, rfl⟩)⟩

/-- The two views of the DSP agree on everything but in-call playback. -/
structure Dsp.Agree (d e : Dsp) : Prop where
  streamAttached : d.streamAttached = e.streamAttached
  enabled : d.enabled = e.enabled
  attached : d.attached = e.attached
  running : d.running = e.running

theorem Dsp.Agree.refl (d : Dsp) : d.Agree d := ⟨rfl, rfl, rfl, rfl⟩

/-- What the last three commands and their unwinding leave of the DSP. -/
def bringUpDsp (d : Dsp) : Dsp :=
  if env.resp (.enable true) ≠ 0 then Cmd.apply env d (.enable false)
  else if env.resp (.attach true) ≠ 0 then
    Cmd.apply env (Cmd.apply env { d with enabled := true } (.attach false)) (.enable false)
  else if env.resp (.start true) ≠ 0 then
    Cmd.apply env (Cmd.apply env (Cmd.apply env { d with enabled := true, attached := true }
      (.start false)) (.attach false)) (.enable false)
  else { d with enabled := true, attached := true, running := true }

theorem audible_spec (cvs cvp : Ptr) (p : Path) :
    Same p (audible prm env cvs cvp p) ∧ (audible prm env cvs cvp p).dsp.Agree p.dsp ∧
      ∀ svc, (audible prm env cvs cvp p).session svc = p.session svc := by
  have hunmute : ∀ q, Same q (unmuteBoth env cvp q) ∧ (unmuteBoth env cvp q).dsp = q.dsp ∧
      ∀ svc, (unmuteBoth env cvp q).session svc = q.session svc := by
    intro q
    have hinert : ∀ rx d, Cmd.apply env d (.unmute rx) = d := fun rx =>
      Cmd.apply_of_inert env fun _ => rfl
    unfold unmuteBoth
    dsimp only
    split_ifs
    · exact ⟨send_same env cvp _ q, hinert _ _, fun _ => rfl⟩
    · exact ⟨(send_same env cvp _ q).trans (send_same env cvp _ _), (hinert _ _).trans (hinert _ _), fun _ => rfl⟩
  have hplay : ∀ q, Same q (if prm.playbackPort ≠ 0 ∧ cvs ≠ .null then
        (send env cvs (.startPlayback prm.playbackPort) q).1 else q) ∧
      (if prm.playbackPort ≠ 0 ∧ cvs ≠ .null then
        (send env cvs (.startPlayback prm.playbackPort) q).1 else q).dsp.Agree q.dsp ∧
      ∀ svc, (if prm.playbackPort ≠ 0 ∧ cvs ≠ .null then
        (send env cvs (.startPlayback prm.playbackPort) q).1 else q).session svc = q.session svc := by
    intro q
    split_ifs
    · refine ⟨send_same env cvs _ q, ?_, fun _ => rfl⟩
      rw [send_dsp, Cmd.apply]
      split_ifs
      · exact ⟨rfl, rfl, rfl, rfl⟩
      · exact Dsp.Agree.refl _
    · exact ⟨Same.refl q, Dsp.Agree.refl _, fun _ => rfl⟩
  unfold audible
  cases prm.unmute with
  | false => exact hplay p
  | true =>
      obtain ⟨hsame, hdsp, hsession⟩ := hunmute p
      obtain ⟨hsame', hagree, hsession'⟩ := hplay (unmuteBoth env cvp p)
      rw [if_pos rfl]
      exact ⟨hsame.trans hsame', hdsp ▸ hagree, fun svc => (hsession' svc).trans (hsession svc)⟩

theorem bringUp_spec (mvm cvs cvp : Ptr) (p : Path) :
    Same p (bringUp prm env mvm cvs cvp p).1 ∧
      (bringUp prm env mvm cvs cvp p).1.dsp.Agree (bringUpDsp env p.dsp) ∧
      (∀ svc, (bringUp prm env mvm cvs cvp p).1.session svc = p.session svc) ∧
      ((bringUp prm env mvm cvs cvp p).2 = 0 ↔ Accepts env) := by
  unfold bringUp bringUpDsp
  dsimp only
  by_cases henable : env.resp (.enable true) = 0
  · rw [if_neg (show ¬ (send env cvp (.enable true) p).2 ≠ 0 from not_not.mpr henable),
      if_neg (not_not.mpr henable)]
    have hsame := send_same env cvp (.enable true) p
    have hdsp : (send env cvp (.enable true) p).1.dsp = { p.dsp with enabled := true } :=
      Cmd.apply_ok henable p.dsp
    have hsession : ∀ svc, (send env cvp (.enable true) p).1.session svc = p.session svc := fun _ => rfl
    generalize (send env cvp (.enable true) p).1 = p₁ at hsame hdsp hsession ⊢
    by_cases hattach : env.resp (.attach true) = 0
    · rw [if_neg (show ¬ (send env mvm (.attach true) p₁).2 ≠ 0 from not_not.mpr hattach),
        if_neg (not_not.mpr hattach)]
      have hsame₂ := hsame.trans (send_same env mvm (.attach true) p₁)
      have hdsp₂ : (send env mvm (.attach true) p₁).1.dsp =
          { p.dsp with enabled := true, attached := true } := by
        rw [send_dsp, Cmd.apply_ok hattach, hdsp]
        rfl
      have hsession₂ : ∀ svc, (send env mvm (.attach true) p₁).1.session svc = p.session svc := hsession
      generalize (send env mvm (.attach true) p₁).1 = p₂ at hsame₂ hdsp₂ hsession₂ ⊢
      have hsame₃ := hsame₂.trans (send_same env mvm (.start true) p₂)
      by_cases hstart : env.resp (.start true) = 0
      · rw [if_neg (show ¬ (send env mvm (.start true) p₂).2 ≠ 0 from not_not.mpr hstart),
          if_neg (not_not.mpr hstart)]
        obtain ⟨hsame', hagree, hsession'⟩ := audible_spec env prm cvs cvp (send env mvm (.start true) p₂).1
        refine ⟨hsame₃.trans hsame', ?_, fun svc => (hsession' svc).trans (hsession₂ svc), ?_⟩
        · rw [send_dsp, Cmd.apply_ok hstart, hdsp₂] at hagree
          exact hagree
        · exact ⟨fun _ => ⟨henable, hattach, hstart⟩, fun _ => rfl⟩
      · rw [if_pos (show (send env mvm (.start true) p₂).2 ≠ 0 from hstart), if_pos hstart]
        refine ⟨?_, ?_, hsession₂, ?_⟩
        · exact ((hsame₃.trans (send_same env _ _ _)).trans (send_same env _ _ _)).trans (send_same env _ _ _)
        · rw [startErr, attachErr, cvpErr, send_dsp, send_dsp, send_dsp, send_dsp, Cmd.apply_failed hstart, hdsp₂]
          exact Dsp.Agree.refl _
        · exact ⟨fun h => absurd h hstart, fun h => absurd h.start hstart⟩
    · rw [if_pos (show (send env mvm (.attach true) p₁).2 ≠ 0 from hattach), if_pos hattach]
      refine ⟨?_, ?_, hsession, ?_⟩
      · exact ((hsame.trans (send_same env _ _ _)).trans (send_same env _ _ _)).trans (send_same env _ _ _)
      · rw [attachErr, cvpErr, send_dsp, send_dsp, send_dsp, Cmd.apply_failed hattach, hdsp]
        exact Dsp.Agree.refl _
      · exact ⟨fun h => absurd h hattach, fun h => absurd h.attach hattach⟩
  · rw [if_pos (show (send env cvp (.enable true) p).2 ≠ 0 from henable), if_pos henable]
    refine ⟨(send_same env _ _ p).trans (send_same env _ _ _), ?_, fun _ => rfl, ?_⟩
    · rw [cvpErr, send_dsp, send_dsp, Cmd.apply_failed henable]
      exact Dsp.Agree.refl _
    · exact ⟨fun h => absurd h henable, fun h => absurd h.enable henable⟩

instance (p : Path) : Decidable (Streams env prm p) :=
  decidable_of_iff (prm.attachStream = true ∧
    (p.session .mvm ≠ .null ∨ env.resp .createMvm = 0 ∧ env.resp .setDualControl = 0) ∧
    (p.session .cvs ≠ .null ∨ env.resp .createCvs = 0) ∧ env.resp (.attachStream true) = 0)
    ⟨fun ⟨a, m, c, s⟩ => ⟨a, m, c, s⟩, fun ⟨a, m, c, s⟩ => ⟨a, m, c, s⟩⟩

/-- The DSP once the second rung is done. -/
def streamDsp (p : Path) : Dsp :=
  if Streams env prm p then { p.dsp with streamAttached := true } else p.dsp

structure PathStarted (p : Path) (r : Path × ℤ) : Prop where
  runtime : r.1.runtime.isSome
  started : r.1.started = p.started
  owned : Owned r.1
  events : r.1.pathEvents = p.pathEvents ++ [.pathStart p.dsp.running]
  cvs : prm.attachStream = false → r.1.session .cvs = p.session .cvs
  ret : r.2 = 0 ↔ Opens env prm p ∧ Accepts env
  opens : Opens env prm p → r.1.dsp.Agree (bringUpDsp env (streamDsp env prm p))
  blocked : ¬ Opens env prm p → r.1.dsp = streamDsp env prm p

variable {env prm} in
/-- A start that stops at one of the first three rungs. -/
theorem PathStarted.of_blocked {p q : Path} {ret : ℤ} (hsame : Same (record (.pathStart p.dsp.running) p) q)
    (hr : p.runtime.isSome) (ho : Owned p) (hret : ret ≠ 0) (hopens : ¬ Opens env prm p)
    (hdsp : q.dsp = streamDsp env prm p) (hcvs : prm.attachStream = false → q.session .cvs = p.session .cvs) :
    PathStarted env prm p (q, ret) := by
  refine ⟨?_, hsame.started, hsame.owned hr ho, ?_, hcvs, ?_, fun h => absurd h hopens, fun _ => hdsp⟩
  · rw [hsame.runtime]
    exact hr
  · rw [hsame.events]
    simp [Path.pathEvents, record, Event.isPath]
  · exact ⟨fun h => absurd h hret, fun h => absurd h.1 hopens⟩

theorem pathStart_spec {p : Path} (hr : p.runtime.isSome) (ho : Owned p) :
    PathStarted env prm p (q6voicePathStart prm env p) := by
  unfold q6voicePathStart
  dsimp only
  have hrung := openMvm_rung env (p := record (.pathStart p.dsp.running) p) hr ho
  rcases hopen : openMvm env (record (.pathStart p.dsp.running) p) with ⟨q, r⟩
  rw [hopen] at hrung
  have hdsp : q.dsp = p.dsp := hrung.dsp
  by_cases hmvm : p.session .mvm ≠ .null ∨ env.resp .createMvm = 0 ∧ env.resp .setDualControl = 0
  · obtain ⟨mvm, -, rfl, -⟩ := hrung.opened hmvm
    dsimp only
    have hq := hrung.same.owned hr ho
    have hqr : q.runtime.isSome := hrung.same.runtime.trans hr
    obtain ⟨q', r, hstream, hsame, hothers, hcases⟩ := openStream_spec env prm mvm hqr hq
    have hcvs : q.session .cvs = p.session .cvs := hrung.others .cvs (by decide)
    have hcvp : q'.session .cvp = p.session .cvp :=
      (hothers .cvp (by decide)).trans (hrung.others .cvp (by decide))
    have hsame' := hrung.same.trans hsame
    have hkept : prm.attachStream = false → q'.session .cvs = p.session .cvs := by
      intro hoff
      rcases hcases with ⟨-, rfl, -⟩ | ⟨hon, -⟩ | ⟨hon, -⟩
      · exact hcvs
      · exact absurd (hoff.symm.trans hon) (by decide)
      · exact absurd (hoff.symm.trans hon) (by decide)
    rw [hstream]
    by_cases hopened : prm.attachStream = true →
        (p.session .cvs ≠ .null ∨ env.resp .createCvs = 0) ∧ env.resp (.attachStream true) = 0
    · have hdsp' : q'.dsp = streamDsp env prm p ∧ ∃ cvs, r = .ok cvs := by
        rcases hcases with ⟨hoff, rfl, rfl⟩ | ⟨hon, hcreate, hattach, hd, rfl, -⟩ | ⟨hon, hnot, -⟩
        · have hnot : ¬ Streams env prm p := fun h => absurd (hoff.symm.trans h.attachStream) (by decide)
          exact ⟨by rw [streamDsp, if_neg hnot, hdsp], _, rfl⟩
        · rw [streamDsp, if_pos ⟨hon, hmvm, (hopened hon).1, hattach⟩, hd, hdsp]
          exact ⟨rfl, _, rfl⟩
        · exact absurd (hcvs ▸ hopened hon) hnot
      obtain ⟨hdsp', cvs, rfl⟩ := hdsp'
      dsimp only
      have hrung' := openSession_rung env .cvp
        (c := .createCvp prm.txPort AFE_PORT_ID_QUATERNARY_MI2S_RX) (fun _ => rfl)
        (hsame'.runtime.trans hr) (hsame'.owned hr ho)
      rw [openCvp]
      rcases hcreate : openSession env .cvp (.createCvp prm.txPort AFE_PORT_ID_QUATERNARY_MI2S_RX) q' with ⟨q'', r⟩
      rw [hcreate, hcvp] at hrung'
      have hsame'' := hsame'.trans hrung'.same
      have hdsp'' : q''.dsp = streamDsp env prm p := hrung'.dsp.trans hdsp'
      have hkept' : prm.attachStream = false → q''.session .cvs = p.session .cvs := fun hoff =>
        (hrung'.others .cvs (by decide)).trans (hkept hoff)
      by_cases hok : p.session .cvp ≠ .null ∨ env.resp (.createCvp prm.txPort AFE_PORT_ID_QUATERNARY_MI2S_RX) = 0
      · obtain ⟨cvp, -, rfl, -⟩ := hrung'.opened hok
        dsimp only
        have hopens : Opens env prm p := ⟨hmvm, fun hon => (hopened hon).1, fun hon => (hopened hon).2, hok⟩
        obtain ⟨hup, hagree, hsession, hret⟩ := bringUp_spec env prm mvm cvs cvp q''
        have hall := hsame''.trans hup
        refine ⟨hall.runtime.trans hr, hall.started, hall.owned hr ho, ?_, ?_, ?_, ?_, ?_⟩
        · rw [hall.events]
          simp [Path.pathEvents, record, Event.isPath]
        · exact fun hoff => (hsession .cvs).trans (hkept' hoff)
        · rw [hret]
          exact ⟨fun h => ⟨hopens, h⟩, fun h => h.2⟩
        · exact fun _ => hdsp'' ▸ hagree
        · exact fun hnot => absurd hopens hnot
      · obtain ⟨ret, hret, rfl, -⟩ := hrung'.failed hok
        exact .of_blocked hsame'' hr ho hret (fun h => hok h.cvp) hdsp'' hkept'
    · rcases hcases with ⟨hoff, -⟩ | ⟨hon, hcreate, hattach, -⟩ | ⟨hon, hnot, hd, ret, hret, rfl⟩
      · exact absurd (fun hon => absurd (hoff.symm.trans hon) (by decide)) hopened
      · exact absurd (fun _ => ⟨hcvs ▸ hcreate, hattach⟩) hopened
      · have hstreams : ¬ Streams env prm p := fun h => hopened fun _ => ⟨h.cvs, h.stream⟩
        exact .of_blocked hsame' hr ho hret (fun h => hopened fun hon => ⟨h.cvs hon, h.stream hon⟩)
          (by rw [streamDsp, if_neg hstreams, hd, hdsp]) hkept
  · obtain ⟨ret, hret, rfl, -⟩ := hrung.failed hmvm
    have hnot : ¬ Streams env prm p := fun h => hmvm h.mvm
    exact .of_blocked hrung.same hr ho hret (fun h => hmvm h.mvm) (by rw [streamDsp, if_neg hnot, hdsp])
      fun _ => hrung.others .cvs (by decide)

/-- The commands that end a session are accepted. -/
structure Undoes (env : Env) : Prop where
  start : env.resp (.start false) = 0
  attach : env.resp (.attach false) = 0
  enable : env.resp (.enable false) = 0

/-- Voice is stopped and the vocproc detached and disabled. -/
structure Dsp.Down (d : Dsp) : Prop where
  running : d.running = false
  attached : d.attached = false
  enabled : d.enabled = false

structure PathStopped (p q : Path) : Prop where
  runtime : q.runtime = p.runtime
  registered : q.registered = p.registered
  events : q.pathEvents = p.pathEvents ++ [.pathStop p.dsp.running]
  down : Undoes env → q.dsp.Down

theorem pathStop_spec (p : Path) : PathStopped env p (q6voicePathStop prm env p) := by
  unfold q6voicePathStop
  dsimp only
  constructor
  case runtime => split_ifs <;> rfl
  case registered => split_ifs <;> rfl
  case events =>
    split_ifs <;> simp [Path.pathEvents, record, send, Event.isPath, List.filter_cons]
  case down =>
    rintro ⟨hstart, hattach, henable⟩
    have hdown : ∀ d, (Cmd.apply env (Cmd.apply env (Cmd.apply env d (.start false)) (.attach false))
        (.enable false)).Down := by
      intro d
      rw [Cmd.apply_ok hstart, Cmd.apply_ok hattach, Cmd.apply_ok henable]
      exact ⟨rfl, rfl, rfl⟩
    have hdetach : ∀ d : Dsp, d.Down → (Cmd.apply env d (.attachStream false)).Down := by
      intro d hd
      unfold Cmd.apply
      split_ifs
      · exact ⟨hd.running, hd.attached, hd.enabled⟩
      · exact hd
    by_cases hcvs : p.session .cvs ≠ .null
    · rw [if_pos hcvs]
      exact hdetach _ (hdown _)
    · rw [if_neg hcvs]
      exact hdown _

theorem releaseService_spec (svc : Service) (p : Path) :
    (releaseService svc p).runtime = p.runtime ∧ (releaseService svc p).dsp = p.dsp ∧
      (releaseService svc p).pathEvents = p.pathEvents ∧
      (releaseService svc p).registered =
        if p.session svc ≠ .null then Function.update p.registered svc .null else p.registered := by
  unfold releaseService
  split_ifs
  · exact ⟨rfl, rfl, pathEvents_record rfl _, rfl⟩
  · exact ⟨rfl, rfl, rfl, rfl⟩

structure PathDestroyed (p q : Path) : Prop where
  runtime : q.runtime = none
  dsp : q.dsp = p.dsp
  events : q.pathEvents = p.pathEvents
  registered : Owned p → ∀ svc, q.registered svc = .null

theorem pathDestroy_spec (p : Path) : PathDestroyed p (q6voicePathDestroy p) := by
  obtain ⟨hr, hd, he, hreg⟩ := releaseService_spec .mvm p
  obtain ⟨hr', hd', he', hreg'⟩ := releaseService_spec .cvp (releaseService .mvm p)
  obtain ⟨hr'', hd'', he'', hreg''⟩ := releaseService_spec .cvs (releaseService .cvp (releaseService .mvm p))
  have hsession : ∀ q : Path, q.runtime = p.runtime → q.session = p.session := by
    intro q hq
    funext svc
    rw [Path.session, hq, Path.session]
  refine ⟨rfl, hd''.trans (hd'.trans hd), he''.trans (he'.trans he), ?_⟩
  intro ho svc
  change (releaseService .cvs (releaseService .cvp (releaseService .mvm p))).registered svc = .null
  rw [hreg'', hreg', hreg, hsession _ (hr'.trans hr), hsession _ hr, ← ho, ← ho, ← ho]
  cases svc <;> split_ifs <;> simp_all

end
end Sirius.Q6voice
