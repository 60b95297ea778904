import Sirius.Q6voice.FailedStart

/-!
# Parameters that are written during a call

Every call reads the module parameters afresh. A start with `attach_stream` clear hands
`q6cvs_start_playback` a variable it never set; a stop that finds the session wanted where no
start did works on sessions that were never created; and in-call playback is stopped only if
`playback_port` is still set when the session ends.
-/
namespace Sirius.Q6voice
open Runs

/-- The command is the one that creates the session it is sent through. -/
def Cmd.creates : Cmd → Bool
  | .createMvm | .createCvs | .createCvp _ _ => true
  | _ => false

/-- The session has been created and has not been given back. -/
def Live (log : List Event) : Ptr → Prop
  | .session id => (∃ c, c.creates = true ∧ .command c (.session id) 0 ∈ log) ∧ .release (.session id) ∉ log
  | _ => False

/-- After this log, the event sends nothing but through a live session or one it creates. -/
def Event.Through (log : List Event) : Event → Prop
  | .command c s _ => c.creates = true ∧ (∃ id, s = .session id) ∨ Live log s
  | _ => True

/-- Every command was sent through a session that was live at that moment. -/
def Path.Addressed (p : Path) : Prop := ∀ log e, log ++ [e] <+: p.log → e.Through log

theorem not_live_null (log : List Event) : ¬ Live log .null := id

theorem addressed_record (e : Event) (p : Path) : (record e p).Addressed ↔ p.Addressed ∧ e.Through p.log := by
  constructor
  · intro h
    refine ⟨fun log e' hpre => h log e' (hpre.trans (List.prefix_append _ _)), h p.log e ?_⟩
    exact List.prefix_refl _
  · rintro ⟨h, he⟩ log e' hpre
    rcases List.prefix_concat_iff.mp hpre with heq | hpre
    · obtain ⟨rfl, hcons⟩ := List.append_inj' heq rfl
      cases hcons
      exact he
    · exact h log e' hpre

theorem addressed_send (env : Env) (s : Ptr) (c : Cmd) (p : Path) :
    (send env s c p).1.Addressed ↔ p.Addressed ∧ Event.Through p.log (.command c s (env.resp c)) :=
  addressed_record (.command c s (env.resp c)) p

theorem addressed_command (env : Env) {s : Ptr} {c : Cmd} (hc : c.creates = false) (p : Path) :
    (send env s c p).1.Addressed ↔ p.Addressed ∧ Live p.log s := by
  rw [addressed_send, Event.Through, hc]
  simp only [Bool.false_eq_true, false_and, false_or]

/-- An event after which the same sessions are live. -/
def Event.Idle : Event → Prop
  | .command c _ ret => ¬ (c.creates = true ∧ ret = 0)
  | .release _ => False
  | _ => True

theorem live_idle {log : List Event} {e : Event} (he : e.Idle) (s : Ptr) : Live (log ++ [e]) s ↔ Live log s := by
  cases s with
  | null => exact Iff.rfl
  | wild => exact Iff.rfl
  | session id =>
      refine and_congr (exists_congr fun c => and_congr_right fun hc => ?_) (not_congr ?_)
      · rw [List.mem_append, List.mem_singleton, or_iff_left]
        rintro rfl
        exact he ⟨hc, rfl⟩
      · rw [List.mem_append, List.mem_singleton, or_iff_left]
        rintro rfl
        exact he

theorem live_created {log : List Event} {c : Cmd} {id : ℕ} (hc : c.creates = true)
    (hnew : .release (.session id) ∉ log) (s : Ptr) :
    Live (log ++ [.command c (.session id) 0]) s ↔ Live log s ∨ s = .session id := by
  cases s with
  | null => exact iff_of_false not_false (not_or.mpr ⟨not_false, nofun⟩)
  | wild => exact iff_of_false not_false (not_or.mpr ⟨not_false, nofun⟩)
  | session j =>
      simp only [Live, List.mem_append, List.mem_singleton, reduceCtorEq, or_false]
      constructor
      · rintro ⟨⟨c', hc', hlog | he⟩, hrel⟩
        · exact Or.inl ⟨⟨c', hc', hlog⟩, hrel⟩
        · cases he
          exact Or.inr rfl
      · rintro (⟨⟨c', hc', hlog⟩, hrel⟩ | he)
        · exact ⟨⟨c', hc', Or.inl hlog⟩, hrel⟩
        · cases he
          exact ⟨⟨c, hc, Or.inr rfl⟩, hnew⟩

theorem live_released {log : List Event} {t : Ptr} (s : Ptr) :
    Live (log ++ [.release t]) s ↔ Live log s ∧ s ≠ t := by
  cases s with
  | null => exact ⟨fun h => h.elim, fun h => h.1⟩
  | wild => exact ⟨fun h => h.elim, fun h => h.1⟩
  | session id =>
      simp only [Live, List.mem_append, List.mem_singleton, reduceCtorEq, or_false, Event.release.injEq, not_or,
        and_assoc, ne_eq]

/-- The live sessions are those of the runtime, and in-call playback needs one of them. -/
structure Tracked (p : Path) : Prop where
  owned : Owned p
  addressed : p.Addressed
  live : ∀ s, Live p.log s ↔ s ≠ .null ∧ ∃ svc, p.session svc = s
  ids : ∀ svc id, p.session svc = .session id → id < p.nextId
  released : ∀ id, .release (.session id) ∈ p.log → id < p.nextId
  playback : p.dsp.playback = true → p.session .cvs ≠ .null

theorem newPath_tracked : Tracked newPath := by
  refine ⟨fun _ => rfl, ?_, ?_, nofun, nofun, nofun⟩
  · intro log e hpre
    exact absurd (List.prefix_nil.mp hpre) (List.append_ne_nil_of_right_ne_nil _ (List.cons_ne_nil _ _))
  · intro s
    cases s with
    | null => exact ⟨fun h => h.elim, fun h => (h.1 rfl).elim⟩
    | wild => exact ⟨fun h => h.elim, nofun⟩
    | session id => exact ⟨nofun, nofun⟩

/-- A step that leaves the sessions of the runtime alone and logs nothing that ends or begins one. -/
theorem Tracked.of_idle {p q : Path} (h : Tracked p) {e : Event} (he : e.Idle) (hthrough : e.Through p.log)
    (hlog : q.log = p.log ++ [e]) (hregistered : q.registered = p.registered)
    (hsession : ∀ svc, q.session svc = p.session svc) (hnext : p.nextId ≤ q.nextId)
    (hplay : q.dsp.playback = true → p.session .cvs ≠ .null) : Tracked q := by
  refine ⟨?_, ?_, ?_, ?_, ?_, ?_⟩
  · intro svc
    rw [hregistered, hsession]
    exact h.owned svc
  · have haddressed := (addressed_record e p).mpr ⟨h.addressed, hthrough⟩
    unfold Path.Addressed at haddressed ⊢
    rw [hlog]
    exact haddressed
  · intro s
    rw [hlog, live_idle he, h.live]
    simp only [hsession]
  · intro svc id hs
    rw [hsession] at hs
    exact Nat.lt_of_lt_of_le (h.ids svc id hs) hnext
  · intro id hr
    rw [hlog] at hr
    rcases List.mem_append.mp hr with hr | hr
    · exact Nat.lt_of_lt_of_le (h.released id hr) hnext
    · rw [← List.mem_singleton.mp hr] at he
      exact he.elim
  · intro hp
    rw [hsession]
    exact hplay hp

section
variable {env : Env} {prm : Params}

theorem Cmd.playback_apply (c : Cmd) (d : Dsp) (h : (c.apply env d).playback = true) :
    d.playback = true ∨ ∃ port, c = .startPlayback port := by
  unfold Cmd.apply at h
  split_ifs at h
  · cases c with
    | startPlayback port => exact Or.inr ⟨port, rfl⟩
    | stopPlayback => exact absurd h (by simp [Cmd.effect])
    | _ => exact Or.inl h
  · exact Or.inl h

theorem Tracked.send {p : Path} (h : Tracked p) {s : Ptr} {c : Cmd} (hc : c.creates = false) (hs : Live p.log s)
    (hplay : ∀ port, c = .startPlayback port → p.session .cvs ≠ .null) : Tracked (send env s c p).1 := by
  refine h.of_idle (e := .command c s (env.resp c)) ?_ (Or.inr hs) rfl rfl (fun _ => rfl) (Nat.le_refl _) ?_
  · intro hcreates
    exact absurd (hc.symm.trans hcreates.1) (by decide)
  · intro hp
    rcases c.playback_apply p.dsp hp with hp | ⟨port, rfl⟩
    · exact h.playback hp
    · exact hplay port rfl

/-- A session that was created and entered in the runtime. -/
theorem Tracked.opened {p q : Path} (h : Tracked p) (hr : p.runtime.isSome) {svc : Service} {c : Cmd}
    (hc : c.creates = true) (hfree : p.session svc = .null) (hruntime : q.runtime = p.runtime)
    (hlog : q.log = p.log ++ [.command c (.session p.nextId) 0])
    (hreg : q.registered = Function.update p.registered svc (.session p.nextId)) (hnext : q.nextId = p.nextId + 1)
    (hplay : q.dsp.playback = p.dsp.playback) : Tracked (q.setSession svc (.session p.nextId)) := by
  have hqr : q.runtime.isSome := hruntime ▸ hr
  have hsession : ∀ svc', (q.setSession svc (.session p.nextId)).session svc' =
      if svc' = svc then .session p.nextId else p.session svc' := by
    intro svc'
    rw [session_setSession hqr, Path.session, hruntime, Path.session]
  have hnew : .release (.session p.nextId) ∉ p.log := fun hrel => Nat.lt_irrefl _ (h.released _ hrel)
  refine ⟨?_, ?_, ?_, ?_, ?_, ?_⟩
  · intro svc'
    rw [hsession]
    change q.registered svc' = _
    rw [hreg, Function.update_apply, h.owned]
  · have haddressed := (addressed_record (.command c (.session p.nextId) 0) p).mpr
      ⟨h.addressed, Or.inl ⟨hc, _, rfl⟩⟩
    unfold Path.Addressed at haddressed ⊢
    change ∀ log e, log ++ [e] <+: q.log → _
    rw [hlog]
    exact haddressed
  · intro s
    change Live q.log s ↔ _
    rw [hlog, live_created hc hnew, h.live]
    constructor
    · rintro (⟨hs, svc', rfl⟩ | rfl)
      · refine ⟨hs, svc', (hsession svc').trans (if_neg ?_)⟩
        rintro rfl
        exact hs hfree
      · exact ⟨Ptr.noConfusion, svc, (hsession svc).trans (if_pos rfl)⟩
    · rintro ⟨hs, svc', rfl⟩
      rw [hsession]
      split_ifs with he
      · exact Or.inr rfl
      · refine Or.inl ⟨fun hn => hs ((hsession svc').trans ((if_neg he).trans hn)), svc', rfl⟩
  · intro svc' id hs
    change id < q.nextId
    rw [hsession] at hs
    rw [hnext]
    split_ifs at hs
    · cases hs
      exact Nat.lt_succ_self _
    · exact Nat.lt_succ_of_lt (h.ids svc' id hs)
  · intro id hrel
    change .release (.session id) ∈ q.log at hrel
    change id < q.nextId
    rw [hlog] at hrel
    rw [hnext]
    rcases List.mem_append.mp hrel with hrel | hrel
    · exact Nat.lt_succ_of_lt (h.released id hrel)
    · cases List.mem_singleton.mp hrel
  · intro hp
    change q.dsp.playback = true at hp
    rw [hplay] at hp
    rw [hsession]
    split_ifs
    · exact Ptr.noConfusion
    · exact h.playback hp

theorem sessionCreate_fails_tracked {p : Path} (h : Tracked p) {svc : Service} {c : Cmd}
    (hc : c.creates = true) (hinert : ∀ d, c.effect d = d) (hfree : p.session svc = .null) (hresp : env.resp c ≠ 0) :
    Tracked (sessionCreate env svc c p).1 := by
  rw [sessionCreate_fails env ((h.owned svc).trans hfree) hresp]
  refine h.of_idle (e := .command c (.session p.nextId) (env.resp c)) ?_ ?_ rfl rfl (fun _ => rfl)
    (Nat.le_succ _) ?_
  · exact fun hcreates => hresp hcreates.2
  · exact Or.inl ⟨hc, _, rfl⟩
  · intro hp
    apply h.playback
    rw [← Cmd.apply_of_inert env hinert p.dsp]
    exact hp

variable (env) in
theorem openSession_tracked {p : Path} (h : Tracked p) (hr : p.runtime.isSome) (svc : Service) {c : Cmd}
    (hc : c.creates = true) (hinert : ∀ d, c.effect d = d) : Tracked (openSession env svc c p).1 := by
  unfold openSession
  by_cases hs : p.session svc = .null
  · rw [if_neg (not_not.mpr hs)]
    by_cases hresp : env.resp c = 0
    · rw [sessionCreate_ok env ((h.owned svc).trans hs) hresp]
      refine h.opened hr hc hs rfl ?_ rfl rfl ?_
      · exact congrArg (fun ret => p.log ++ [Event.command c (.session p.nextId) ret]) hresp
      · exact congrArg Dsp.playback (Cmd.apply_of_inert env hinert p.dsp)
    · have hfails := sessionCreate_fails_tracked h hc hinert hs hresp
      rw [sessionCreate_fails env ((h.owned svc).trans hs) hresp] at hfails ⊢
      exact hfails
  · rw [if_pos hs]
    exact h

/-- A session that was created, used once and given back before the runtime had it. -/
theorem Tracked.withdrawn {p q : Path} (h : Tracked p) {c c' : Cmd} {ret : ℤ} (hc : c.creates = true)
    (hc' : c'.creates = false) (hruntime : q.runtime = p.runtime)
    (hlog : q.log = p.log ++ [.command c (.session p.nextId) 0] ++ [.command c' (.session p.nextId) ret] ++
      [.release (.session p.nextId)])
    (hreg : q.registered = p.registered) (hnext : q.nextId = p.nextId + 1)
    (hplay : q.dsp.playback = p.dsp.playback) : Tracked q := by
  have hnew : .release (.session p.nextId) ∉ p.log := fun hrel => Nat.lt_irrefl _ (h.released _ hrel)
  have hlive : ∀ s, Live (p.log ++ [.command c (.session p.nextId) 0]) s ↔ Live p.log s ∨ s = .session p.nextId :=
    live_created hc hnew
  have hsession : ∀ svc, q.session svc = p.session svc := by
    intro svc
    rw [Path.session, hruntime, Path.session]
  refine ⟨?_, ?_, ?_, ?_, ?_, ?_⟩
  · intro svc
    rw [hreg, hsession]
    exact h.owned svc
  · have hcreate := (addressed_record (.command c (.session p.nextId) 0) p).mpr
      ⟨h.addressed, Or.inl ⟨hc, _, rfl⟩⟩
    have huse := (addressed_record (.command c' (.session p.nextId) ret) _).mpr
      ⟨hcreate, Or.inr ((hlive _).mpr (Or.inr rfl))⟩
    have hrelease := (addressed_record (.release (.session p.nextId)) _).mpr ⟨huse, trivial⟩
    unfold Path.Addressed at hrelease ⊢
    rw [hlog]
    exact hrelease
  · intro s
    have hidle : Event.Idle (.command c' (.session p.nextId) ret) := fun he =>
      absurd (hc'.symm.trans he.1) (by decide)
    rw [hlog, live_released, live_idle hidle, hlive, h.live]
    simp only [hsession]
    constructor
    · rintro ⟨hs | hs, hne⟩
      · exact hs
      · exact absurd hs hne
    · rintro ⟨hs, svc, rfl⟩
      exact ⟨Or.inl ⟨hs, svc, rfl⟩, fun he => Nat.lt_irrefl _ (h.ids svc _ he)⟩
  · intro svc id hs
    rw [hsession] at hs
    rw [hnext]
    exact Nat.lt_succ_of_lt (h.ids svc id hs)
  · intro id hrel
    rw [hlog] at hrel
    rw [hnext]
    simp only [List.mem_append, List.mem_singleton, reduceCtorEq, or_false, Event.release.injEq,
      Ptr.session.injEq] at hrel
    rcases hrel with hrel | rfl
    · exact Nat.lt_succ_of_lt (h.released id hrel)
    · exact Nat.lt_succ_self _
  · intro hp
    rw [hplay] at hp
    rw [hsession]
    exact h.playback hp

variable (env) in
theorem openMvm_tracked {p : Path} (h : Tracked p) (hr : p.runtime.isSome) : Tracked (openMvm env p).1 := by
  unfold openMvm
  by_cases hs : p.session .mvm = .null
  · rw [if_neg (not_not.mpr hs)]
    by_cases hresp : env.resp .createMvm = 0
    · have hfree := (h.owned .mvm).trans hs
      rw [sessionCreate_ok env hfree hresp]
      have hlog : p.log ++ [.command .createMvm (.session p.nextId) (env.resp .createMvm)] =
          p.log ++ [.command .createMvm (.session p.nextId) 0] := by rw [hresp]
      have hdsp : ∀ c d, (∀ d : Dsp, c.effect d = d) → Cmd.apply env d c = d := fun c d hc =>
        Cmd.apply_of_inert env hc d
      generalize hq : ({ (send env (.session p.nextId) .createMvm { p with nextId := p.nextId + 1 }).1 with
        registered := Function.update p.registered .mvm (.session p.nextId) } : Path) = q
      have hqlog : q.log = p.log ++ [.command .createMvm (.session p.nextId) 0] := by
        rw [← hq]
        exact hlog
      have hruntime : q.runtime = p.runtime := by rw [← hq]; rfl
      have hnext : q.nextId = p.nextId + 1 := by rw [← hq]; rfl
      have hreg : q.registered = Function.update p.registered .mvm (.session p.nextId) := by rw [← hq]
      have hqdsp : q.dsp = p.dsp := by
        rw [← hq]
        exact hdsp _ _ fun _ => rfl
      dsimp only
      by_cases hdual : env.resp .setDualControl = 0
      · rw [if_neg (show ¬ (send env (.session p.nextId) .setDualControl q).2 ≠ 0 from not_not.mpr hdual)]
        have hopened := h.opened hr rfl hs hruntime hqlog hreg hnext (congrArg Dsp.playback hqdsp)
        exact hopened.send (c := .setDualControl) rfl ((hopened.live _).mpr ⟨nofun, .mvm,
          (session_setSession (hruntime ▸ hr) .mvm _ .mvm).trans (if_pos rfl)⟩) nofun
      · rw [if_pos (show (send env (.session p.nextId) .setDualControl q).2 ≠ 0 from hdual)]
        have hwithdrawn : (sessionRelease .mvm (.session p.nextId)
            (send env (.session p.nextId) .setDualControl q).1).log = p.log ++
              [.command .createMvm (.session p.nextId) 0] ++
              [.command .setDualControl (.session p.nextId) (env.resp .setDualControl)] ++
              [.release (.session p.nextId)] := by
          rw [← hqlog]
          rfl
        refine h.withdrawn rfl rfl hruntime hwithdrawn ?_ hnext ?_
        · change Function.update q.registered .mvm .null = _
          rw [hreg, Function.update_idem, ← hfree, Function.update_eq_self]
        · rw [← hqdsp]
          exact congrArg Dsp.playback (hdsp .setDualControl _ fun _ => rfl)
    · have hfails := sessionCreate_fails_tracked h (c := .createMvm) rfl (fun _ => rfl) hs hresp
      rw [sessionCreate_fails env ((h.owned .mvm).trans hs) hresp] at hfails ⊢
      exact hfails
  · rw [if_pos hs]
    exact h

variable (env) in
/-- A command to the MVM session, or to the vocproc, that says nothing about in-call playback. -/
theorem Tracked.tell {p : Path} (h : Tracked p) {svc : Service} {s : Ptr} (hs : p.session svc = s) (hne : s ≠ .null)
    {c : Cmd} (hc : c.creates = false) (hplay : ∀ port, c ≠ .startPlayback port) : Tracked (Q6voice.send env s c p).1 :=
  h.send hc ((h.live s).mpr ⟨hne, svc, hs⟩) fun port he => absurd he (hplay port)

theorem unmuteBoth_tracked {p : Path} (h : Tracked p) {cvp : Ptr} (hcvp : p.session .cvp = cvp) (hne : cvp ≠ .null) :
    Tracked (unmuteBoth env cvp p) := by
  have hfirst := h.tell env hcvp hne (c := .unmute false) rfl nofun
  unfold unmuteBoth
  dsimp only
  split_ifs
  · exact hfirst
  · exact hfirst.tell env hcvp hne rfl nofun

/-- Playback is started through the stream of the runtime, or not at all. -/
theorem audible_tracked {p : Path} (h : Tracked p) {cvs cvp : Ptr} (hcvp : p.session .cvp = cvp) (hne : cvp ≠ .null)
    (hcvs : prm.playbackPort ≠ 0 → cvs ≠ .null → p.session .cvs = cvs) :
    Tracked (audible prm env cvs cvp p) := by
  have hplay : ∀ q : Path, Tracked q → (∀ svc, q.session svc = p.session svc) →
      Tracked (if prm.playbackPort ≠ 0 ∧ cvs ≠ .null then
        (Q6voice.send env cvs (.startPlayback prm.playbackPort) q).1 else q) := by
    intro q hq hsession
    split_ifs with hon
    · have hstream := (hsession .cvs).trans (hcvs hon.1 hon.2)
      exact hq.send rfl ((hq.live cvs).mpr ⟨hon.2, .cvs, hstream⟩) fun _ _ => hstream ▸ hon.2
    · exact hq
  unfold audible
  cases prm.unmute with
  | false => exact hplay p h fun _ => rfl
  | true =>
      refine hplay _ (unmuteBoth_tracked h hcvp hne) ?_
      intro svc
      change (unmuteBoth env cvp p).session svc = _
      unfold unmuteBoth
      dsimp only
      split_ifs <;> rfl

/-- The last rungs, through the sessions of the runtime. -/
theorem bringUp_tracked {p : Path} (h : Tracked p) {mvm cvs cvp : Ptr} (hmvm : p.session .mvm = mvm)
    (hmne : mvm ≠ .null) (hcvp : p.session .cvp = cvp) (hcne : cvp ≠ .null)
    (hcvs : Accepts env → prm.playbackPort ≠ 0 → cvs ≠ .null → p.session .cvs = cvs) :
    Tracked (bringUp prm env mvm cvs cvp p).1 := by
  have hvocproc : ∀ {q : Path}, Tracked q → (∀ svc, q.session svc = p.session svc) → ∀ {c : Cmd},
      c.creates = false → (∀ port, c ≠ .startPlayback port) → Tracked (Q6voice.send env cvp c q).1 :=
    fun hq hsession => fun hc hplay => hq.tell env ((hsession .cvp).trans hcvp) hcne hc hplay
  have hmanager : ∀ {q : Path}, Tracked q → (∀ svc, q.session svc = p.session svc) → ∀ {c : Cmd},
      c.creates = false → (∀ port, c ≠ .startPlayback port) → Tracked (Q6voice.send env mvm c q).1 :=
    fun hq hsession => fun hc hplay => hq.tell env ((hsession .mvm).trans hmvm) hmne hc hplay
  have henable := hvocproc h (fun _ => rfl) (c := .enable true) rfl nofun
  have hattach := hmanager henable (fun _ => rfl) (c := .attach true) rfl nofun
  have hstart := hmanager hattach (fun _ => rfl) (c := .start true) rfl nofun
  unfold bringUp
  dsimp only
  split_ifs with h₁ h₂ h₃
  · exact hvocproc henable (fun _ => rfl) (c := .enable false) rfl nofun
  · exact hvocproc (hmanager hattach (fun _ => rfl) (c := .attach false) rfl nofun) (fun _ => rfl)
      (c := .enable false) rfl nofun
  · exact hvocproc (hmanager (hmanager hstart (fun _ => rfl) (c := .start false) rfl nofun) (fun _ => rfl)
      (c := .attach false) rfl nofun) (fun _ => rfl) (c := .enable false) rfl nofun
  · exact audible_tracked hstart hcvp hcne (hcvs ⟨not_not.mp h₁, not_not.mp h₂, not_not.mp h₃⟩)

variable (env prm) in
theorem openStream_tracked {p : Path} (h : Tracked p) (hr : p.runtime.isSome) {mvm : Ptr}
    (hmvm : p.session .mvm = mvm) (hne : mvm ≠ .null) : Tracked (openStream prm env mvm p).1 := by
  unfold openStream
  cases prm.attachStream with
  | false => exact h
  | true =>
      have hopened := openSession_tracked env h hr .cvs (c := .createCvs) rfl fun _ => rfl
      have hrung := openSession_rung env .cvs (c := .createCvs) (fun _ => rfl) hr h.owned
      rw [if_pos rfl, openCvs]
      rcases hopen : openSession env .cvs .createCvs p with ⟨q, r⟩
      rw [hopen] at hopened hrung
      cases r with
      | error ret => exact hopened
      | ok cvs =>
          have hattach := hopened.tell env ((hrung.others .mvm (by decide)).trans hmvm) hne
            (c := .attachStream true) rfl (fun _ h => by cases h)
          dsimp only
          split_ifs
          · exact hattach
          · exact hattach

variable (env prm) in
/-- A start stops at one of the first three rungs, or gets to the last ones with the sessions of
the runtime. -/
theorem pathStart_reaches {p : Path} (h : Tracked p) (hr : p.runtime.isSome) :
    (¬ Opens env prm p ∧ Tracked (q6voicePathStart prm env p).1) ∨
    (Opens env prm p ∧ ∃ q mvm cvs cvp, q6voicePathStart prm env p = bringUp prm env mvm cvs cvp q ∧ Tracked q ∧
      (q.session .mvm = mvm ∧ mvm ≠ .null) ∧ (q.session .cvp = cvp ∧ cvp ≠ .null) ∧
      cvs = if prm.attachStream then q.session .cvs else env.stackCvs) := by
  have hp : Tracked (record (.pathStart p.dsp.running) p) :=
    h.of_idle (e := .pathStart p.dsp.running) trivial trivial rfl rfl (fun _ => rfl) (Nat.le_refl _) h.playback
  have hrung := openMvm_rung env (p := record (.pathStart p.dsp.running) p) hr hp.owned
  have hmanager := openMvm_tracked env hp hr
  unfold q6voicePathStart
  dsimp only
  rcases hopen : openMvm env (record (.pathStart p.dsp.running) p) with ⟨q, r⟩
  rw [hopen] at hrung hmanager
  by_cases hmvm : p.session .mvm ≠ .null ∨ env.resp .createMvm = 0 ∧ env.resp .setDualControl = 0
  · obtain ⟨mvm, hmne, rfl, hqmvm⟩ := hrung.opened hmvm
    have hqr : q.runtime.isSome := hrung.same.runtime.trans hr
    have hstream := openStream_tracked env prm hmanager hqr hqmvm hmne
    obtain ⟨q', r, hopen', hsame, hothers, hcases⟩ := openStream_spec env prm mvm hqr hmanager.owned
    have hcvs : q.session .cvs = p.session .cvs := hrung.others .cvs (by decide)
    have hcvp : q'.session .cvp = p.session .cvp :=
      (hothers .cvp (by decide)).trans (hrung.others .cvp (by decide))
    dsimp only
    rw [hopen'] at hstream ⊢
    cases r with
    | error ret =>
        refine Or.inl ⟨fun hopens => ?_, hstream⟩
        rcases hcases with ⟨-, -, he⟩ | ⟨-, -, -, -, he, -⟩ | ⟨hon, hnot, -⟩
        · cases he
        · cases he
        · exact hnot ⟨hcvs ▸ hopens.cvs hon, hopens.stream hon⟩
    | ok cvs =>
        have hvocproc := openSession_tracked env hstream (hsame.runtime.trans hqr) .cvp
          (c := .createCvp prm.txPort AFE_PORT_ID_QUATERNARY_MI2S_RX) rfl fun _ => rfl
        have hrung' := openSession_rung env .cvp (c := .createCvp prm.txPort AFE_PORT_ID_QUATERNARY_MI2S_RX)
          (fun _ => rfl) (hsame.runtime.trans hqr) hstream.owned
        dsimp only
        rw [openCvp]
        rcases hcreate : openSession env .cvp (.createCvp prm.txPort AFE_PORT_ID_QUATERNARY_MI2S_RX) q' with ⟨q'', r⟩
        rw [hcreate] at hvocproc hrung'
        rw [hcvp] at hrung'
        have hkept : q''.session .cvs = q'.session .cvs := hrung'.others .cvs (by decide)
        by_cases hok : p.session .cvp ≠ .null ∨
            env.resp (.createCvp prm.txPort AFE_PORT_ID_QUATERNARY_MI2S_RX) = 0
        · obtain ⟨cvp, hcne, rfl, hqcvp⟩ := hrung'.opened hok
          have hmvm' : q''.session .mvm = mvm :=
            (hrung'.others .mvm (by decide)).trans ((hothers .mvm (by decide)).trans hqmvm)
          have hlocal : (prm.attachStream = true → (p.session .cvs ≠ .null ∨ env.resp .createCvs = 0) ∧
              env.resp (.attachStream true) = 0) ∧
              cvs = if prm.attachStream then q''.session .cvs else env.stackCvs := by
            rcases hcases with ⟨hoff, -, he⟩ | ⟨hon, hopened, hattach, -, he, -⟩ | ⟨-, -, -, ret, -, he⟩
            · cases he
              rw [hoff]
              exact ⟨Bool.noConfusion, rfl⟩
            · cases he
              rw [hon, if_pos rfl]
              exact ⟨fun _ => ⟨hcvs ▸ hopened, hattach⟩, hkept.symm⟩
            · cases he
          refine Or.inr ⟨⟨hmvm, fun hon => (hlocal.1 hon).1, fun hon => (hlocal.1 hon).2, hok⟩, ?_⟩
          exact ⟨q'', mvm, cvs, cvp, rfl, hvocproc, ⟨hmvm', hmne⟩, ⟨hqcvp, hcne⟩, hlocal.2⟩
        · obtain ⟨ret, -, rfl, -⟩ := hrung'.failed hok
          exact Or.inl ⟨fun hopens => hok hopens.cvp, hvocproc⟩
  · obtain ⟨ret, -, rfl, -⟩ := hrung.failed hmvm
    exact Or.inl ⟨fun hopens => hmvm hopens.mvm, hmanager⟩

/-- A start that comes up with a variable it never set sends in-call playback through it. -/
theorem bringUp_strays {p : Path} {mvm cvp : Ptr} (hport : prm.playbackPort ≠ 0) (haccepts : Accepts env) :
    ¬ (bringUp prm env mvm .wild cvp p).1.Addressed := by
  unfold bringUp audible
  dsimp only
  rw [if_neg (show ¬ (Q6voice.send env cvp (.enable true) p).2 ≠ 0 from not_not.mpr haccepts.enable),
    if_neg (show ¬ (Q6voice.send env mvm (.attach true) _).2 ≠ 0 from not_not.mpr haccepts.attach),
    if_neg (show ¬ (Q6voice.send env mvm (.start true) _).2 ≠ 0 from not_not.mpr haccepts.start),
    if_pos ⟨hport, Ptr.noConfusion⟩]
  intro haddressed
  exact ((addressed_command env rfl _).mp haddressed).2

/-- What a start needs of the parameters: it comes up with its own stream, or without in-call playback. -/
def Streamed (env : Env) (prm : Params) (p : Path) : Prop :=
  Opens env prm p → Accepts env → prm.attachStream = true ∨ prm.playbackPort = 0

theorem pathStart_tracked {p : Path} (h : Tracked p) (hr : p.runtime.isSome) (hstream : Streamed env prm p) :
    Tracked (q6voicePathStart prm env p).1 := by
  rcases pathStart_reaches env prm h hr with ⟨-, hblocked⟩ |
    ⟨hopens, q, mvm, cvs, cvp, he, hq, hmvm, hcvp, hcvs⟩
  · exact hblocked
  · rw [he]
    refine bringUp_tracked hq hmvm.1 hmvm.2 hcvp.1 hcvp.2 ?_
    intro haccepts hport _
    have hon := (hstream hopens haccepts).resolve_right hport
    rw [hcvs, if_pos hon]

theorem pathStart_strays {p : Path} (h : Tracked p) (hr : p.runtime.isSome) (hwild : env.stackCvs = .wild)
    (hstream : ¬ Streamed env prm p) : ¬ (q6voicePathStart prm env p).1.Addressed := by
  unfold Streamed at hstream
  push Not at hstream
  obtain ⟨hopens, haccepts, hoff, hport⟩ := hstream
  rcases pathStart_reaches env prm h hr with ⟨hblocked, -⟩ |
    ⟨-, q, mvm, cvs, cvp, he, -, -, -, hcvs⟩
  · exact absurd hopens hblocked
  · rw [if_neg hoff, hwild] at hcvs
    rw [he, hcvs]
    exact bringUp_strays hport haccepts

theorem Tracked.congr {p q : Path} (h : Tracked p) (hlog : q.log = p.log) (hreg : q.registered = p.registered)
    (hsession : ∀ svc, q.session svc = p.session svc) (hnext : q.nextId = p.nextId) (hdsp : q.dsp = p.dsp) :
    Tracked q := by
  refine ⟨?_, ?_, ?_, ?_, ?_, ?_⟩
  · intro svc
    rw [hreg, hsession]
    exact h.owned svc
  · unfold Path.Addressed
    rw [hlog]
    exact h.addressed
  · intro s
    rw [hlog, h.live]
    simp only [hsession]
  · intro svc id hs
    rw [hsession] at hs
    rw [hnext]
    exact h.ids svc id hs
  · rw [hlog, hnext]
    exact h.released
  · rw [hdsp, hsession]
    exact h.playback

theorem Tracked.setStarted {p : Path} (h : Tracked p) (started : BitVec 2) : Tracked (p.setStarted started) :=
  h.congr rfl rfl (session_setStarted p started) rfl rfl

theorem mark_tracked (capture : Bool) {p : Path} (h : Tracked p) : Tracked (mark capture p) :=
  h.congr rfl rfl (mark_session capture p) rfl rfl

theorem streamed_mark {capture : Bool} {p : Path} : Streamed env prm (mark capture p) ↔ Streamed env prm p := by
  unfold Streamed
  rw [opens_congr (mark_session capture p)]

theorem startPath_tracked {capture : Bool} {p : Path} (h : Tracked p)
    (hs : Attempts prm env capture p → Streamed env prm p) : Tracked (startPath prm env capture p).1 := by
  rcases startPath_cases prm env capture p with ⟨-, -, he⟩ | ⟨-, he⟩ | ⟨hm, hk, he⟩
  · rw [he]
    exact h
  · rw [he]
    exact h
  · rw [he]
    have hmark := mark_tracked capture h
    cases hw : wanted prm (mark capture p).started with
    | false =>
        rw [startMarked_unwanted prm env hw]
        exact hmark
    | true =>
        have hstream := hs ⟨hm, hk, mark_started capture p ▸ hw⟩
        have hstart := pathStart_tracked hmark rfl (streamed_mark.mpr hstream)
        rcases @startMarked_wanted prm env capture _ hw with ⟨-, he⟩ | ⟨-, he⟩
        · rw [he]
          exact hstart
        · rw [he]
          exact hstart.setStarted _

theorem startPath_strays {capture : Bool} {p : Path} (h : Tracked p) (hwild : env.stackCvs = .wild)
    (ha : Attempts prm env capture p) (hs : ¬ Streamed env prm p) : ¬ (startPath prm env capture p).1.Addressed := by
  rcases startPath_cases prm env capture p with ⟨hr, hk, -⟩ | ⟨hm, -⟩ | ⟨-, -, he⟩
  · exact absurd (hk.symm.trans (ha.runtime hr)) (by decide)
  · exact absurd hm ha.unmarked
  · rw [he]
    have hstray := pathStart_strays (mark_tracked capture h) rfl hwild (mt streamed_mark.mp hs)
    have hw : wanted prm (mark capture p).started = true := mark_started capture p ▸ ha.wanted
    rcases @startMarked_wanted prm env capture _ hw with ⟨-, he⟩ | ⟨-, he⟩
    · rw [he]
      exact hstray
    · rw [he]
      exact hstray

theorem pathStop_tracked {p : Path} (h : Tracked p) (hmvm : p.session .mvm ≠ .null) (hcvp : p.session .cvp ≠ .null) :
    Tracked (q6voicePathStop prm env p) := by
  have hp : Tracked (record (.pathStop p.dsp.running) p) :=
    h.of_idle (e := .pathStop p.dsp.running) trivial trivial rfl rfl (fun _ => rfl) (Nat.le_refl _) h.playback
  have htell : ∀ {q : Path}, Tracked q → (∀ svc, q.session svc = p.session svc) → ∀ svc, p.session svc ≠ .null →
      ∀ {c : Cmd}, c.creates = false → (∀ port, c ≠ .startPlayback port) →
        Tracked (Q6voice.send env (p.session svc) c q).1 :=
    fun hq hsession svc hne => fun hc hplay => hq.tell env (hsession svc) hne hc hplay
  -- the commands after playback, which may or may not have been stopped
  have hrest : ∀ {q : Path}, Tracked q → (∀ svc, q.session svc = p.session svc) →
      Tracked (Q6voice.send env (p.session .cvp) (.enable false) (Q6voice.send env (p.session .mvm) (.attach false)
        (Q6voice.send env (p.session .mvm) (.start false) q).1).1).1 := by
    intro q hq hsession
    have hstart := htell hq hsession .mvm hmvm (c := .start false) rfl nofun
    have hattach := htell hstart hsession .mvm hmvm (c := .attach false) rfl nofun
    exact htell hattach hsession .cvp hcvp rfl nofun
  have hplayed : ∃ q, (if prm.playbackPort ≠ 0 ∧ p.session .cvs ≠ .null then
        (Q6voice.send env (p.session .cvs) .stopPlayback (record (.pathStop p.dsp.running) p)).1
      else record (.pathStop p.dsp.running) p) = q ∧ Tracked q ∧ ∀ svc, q.session svc = p.session svc := by
    split_ifs with hon
    · exact ⟨_, rfl, htell hp (fun _ => rfl) .cvs hon.2 rfl nofun, fun _ => rfl⟩
    · exact ⟨_, rfl, hp, fun _ => rfl⟩
  obtain ⟨q, he, hq, hsession⟩ := hplayed
  unfold q6voicePathStop
  dsimp only
  rw [he]
  by_cases hcvs : p.session .cvs = .null
  · rw [if_neg (not_not.mpr hcvs)]
    exact hrest hq hsession
  · rw [if_pos hcvs]
    exact htell (hrest hq hsession) hsession .mvm hmvm rfl nofun

/-- A stop always goes through the MVM and the CVP session. -/
theorem pathStop_addressed {p : Path} (h : (q6voicePathStop prm env p).Addressed) :
    p.session .mvm ≠ .null ∧ p.session .cvp ≠ .null := by
  unfold q6voicePathStop at h
  dsimp only at h
  have hlive : ∀ {q : Path} {mvm cvp : Ptr}, (Q6voice.send env cvp (.enable false)
      (Q6voice.send env mvm (.attach false) q).1).1.Addressed → mvm ≠ .null ∧ cvp ≠ .null := by
    intro q mvm cvp hq
    obtain ⟨hattach, hcvp⟩ := (addressed_command env rfl _).mp hq
    obtain ⟨-, hmvm⟩ := (addressed_command env rfl _).mp hattach
    exact ⟨fun he => not_live_null _ (he ▸ hmvm), fun he => not_live_null _ (he ▸ hcvp)⟩
  by_cases hcvs : p.session .cvs = .null
  · rw [if_neg (not_not.mpr hcvs)] at h
    exact hlive h
  · rw [if_pos hcvs] at h
    exact hlive ((addressed_command env rfl _).mp h).1

/-- In-call playback goes on unless the stop commands it off. -/
theorem pathStop_playback (p : Path) : (q6voicePathStop prm env p).dsp.playback =
    if prm.playbackPort ≠ 0 ∧ p.session .cvs ≠ .null ∧ env.resp .stopPlayback = 0 then false else p.dsp.playback := by
  unfold q6voicePathStop
  dsimp only
  by_cases hport : prm.playbackPort ≠ 0
  · by_cases hcvs : p.session .cvs ≠ .null
    · simp only [hport, hcvs, and_self, if_true, send_dsp, apply_field Dsp.playback, Cmd.effect, ite_self, true_and,
        not_false_eq_true, ne_eq]
      rfl
    · simp only [hcvs, and_false, false_and, if_false, send_dsp, apply_field Dsp.playback, Cmd.effect, ite_self]
      rfl
  · simp only [hport, false_and, if_false]
    split_ifs <;> simp only [send_dsp, apply_field Dsp.playback, Cmd.effect, ite_self] <;> rfl

theorem live_releaseService {p : Path} (svc : Service) (s : Ptr) :
    Live (releaseService svc p).log s ↔ Live p.log s ∧ s ≠ p.session svc := by
  unfold releaseService
  split_ifs with hs
  · exact live_released s
  · rw [not_not.mp hs]
    refine ⟨fun h => ⟨h, ?_⟩, fun h => h.1⟩
    rintro rfl
    exact h

theorem addressed_releaseService {p : Path} (svc : Service) (h : p.Addressed) : (releaseService svc p).Addressed := by
  unfold releaseService
  split_ifs
  · exact (addressed_record _ _).mpr ⟨h, trivial⟩
  · exact h

theorem mem_releaseService {p : Path} (svc : Service) {id : ℕ}
    (h : .release (.session id) ∈ (releaseService svc p).log) :
    .release (.session id) ∈ p.log ∨ p.session svc = .session id := by
  unfold releaseService at h
  split_ifs at h
  · rcases List.mem_append.mp h with h | h
    · exact Or.inl h
    · exact Or.inr (Event.release.inj (List.mem_singleton.mp h)).symm
  · exact Or.inl h

theorem pathDestroy_tracked {p : Path} (h : Tracked p) (hplay : p.dsp.playback = false) :
    Tracked (q6voicePathDestroy p) := by
  have hdestroy := pathDestroy_spec p
  obtain ⟨hr, -, -, -⟩ := releaseService_spec .mvm p
  obtain ⟨hr', -, -, -⟩ := releaseService_spec .cvp (releaseService .mvm p)
  have hsession : ∀ {q : Path}, q.runtime = p.runtime → ∀ svc, q.session svc = p.session svc := by
    intro q hq svc
    rw [Path.session, hq, Path.session]
  have hnext : (q6voicePathDestroy p).nextId = p.nextId := by
    unfold q6voicePathDestroy releaseService
    dsimp only
    split_ifs <;> rfl
  have hnull : ∀ svc, (q6voicePathDestroy p).session svc = .null := by
    intro svc
    rw [Path.session, hdestroy.runtime]
  refine ⟨?_, ?_, ?_, ?_, ?_, ?_⟩
  · intro svc
    rw [hdestroy.registered h.owned, hnull]
  · exact addressed_releaseService _ (addressed_releaseService _ (addressed_releaseService _ h.addressed))
  · intro s
    change Live (releaseService .cvs (releaseService .cvp (releaseService .mvm p))).log s ↔ _
    rw [live_releaseService, live_releaseService, live_releaseService, h.live, hsession (hr'.trans hr), hsession hr]
    refine iff_of_false ?_ ?_
    · rintro ⟨⟨⟨⟨-, svc, rfl⟩, hmvm⟩, hcvp⟩, hcvs⟩
      cases svc with
      | mvm => exact hmvm rfl
      | cvp => exact hcvp rfl
      | cvs => exact hcvs rfl
    · rintro ⟨hs, svc, rfl⟩
      exact hs (hnull svc)
  · intro svc id hs
    rw [hnull] at hs
    cases hs
  · intro id hrel
    rw [hnext]
    change _ ∈ (releaseService .cvs (releaseService .cvp (releaseService .mvm p))).log at hrel
    rcases mem_releaseService _ hrel with hrel | hs
    · rcases mem_releaseService _ hrel with hrel | hs
      · rcases mem_releaseService _ hrel with hrel | hs
        · exact h.released id hrel
        · exact h.ids _ id hs
      · rw [hsession hr] at hs
        exact h.ids _ id hs
    · rw [hsession (hr'.trans hr)] at hs
      exact h.ids _ id hs
  · rw [hdestroy.dsp, hplay]
    exact Bool.noConfusion

variable (env prm) in
/-- What a stop of a marked direction needs: sessions to send through, and playback off before the last
direction takes the stream down. -/
structure Ends (capture : Bool) (p : Path) : Prop where
  sessions : wanted prm p.started = true → p.session .mvm ≠ .null ∧ p.session .cvp ≠ .null
  playback : p.started &&& ~~~bit capture = 0 → p.dsp.playback = true →
    wanted prm p.started = true ∧ prm.playbackPort ≠ 0 ∧ env.resp .stopPlayback = 0

variable (env) in
theorem unmark_tracked (capture : Bool) {p : Path} (h : Tracked p)
    (hs : wanted prm p.started = true → p.session .mvm ≠ .null ∧ p.session .cvp ≠ .null) :
    Tracked (unmark prm env capture p) := by
  unfold unmark
  split_ifs with hw
  · exact (pathStop_tracked h (hs hw).1 (hs hw).2).setStarted _
  · exact h.setStarted _

theorem unmark_playback (capture : Bool) (p : Path) : (unmark prm env capture p).dsp.playback =
    if wanted prm p.started = true ∧ prm.playbackPort ≠ 0 ∧ p.session .cvs ≠ .null ∧ env.resp .stopPlayback = 0
      then false else p.dsp.playback := by
  unfold unmark
  change (if wanted prm p.started = true then q6voicePathStop prm env p else p).dsp.playback = _
  by_cases hw : wanted prm p.started = true
  · rw [if_pos hw, pathStop_playback]
    simp only [hw, true_and]
  · rw [if_neg hw, if_neg fun hall => hw hall.1]

theorem stopPath_tracked {capture : Bool} {p : Path} (h : Tracked p)
    (hs : p.Marked capture → Ends env prm capture p) : Tracked (stopPath prm env capture p) := by
  by_cases hm : p.Marked capture
  · have hends := hs hm
    have hunmark := unmark_tracked env capture h hends.sessions
    rw [stopPath_marked prm env hm]
    split_ifs with hlast
    · refine pathDestroy_tracked hunmark ?_
      rw [unmark_playback]
      cases hplay : p.dsp.playback with
      | false => exact ite_self _
      | true =>
          obtain ⟨hw, hport, hstop⟩ := hends.playback hlast hplay
          exact if_pos ⟨hw, hport, h.playback hplay, hstop⟩
    · exact hunmark
  · rw [stopPath_unmarked prm env hm]
    exact h

theorem addressed_unmark {capture : Bool} {p : Path} (hm : p.Marked capture)
    (h : (stopPath prm env capture p).Addressed) : (unmark prm env capture p).Addressed := by
  have hshorter : ∀ {svc : Service} {q : Path}, (releaseService svc q).Addressed → q.Addressed := by
    intro svc q hq
    unfold releaseService at hq
    split_ifs at hq
    · exact ((addressed_record _ _).mp hq).1
    · exact hq
  rw [stopPath_marked prm env hm] at h
  split_ifs at h
  · exact hshorter (hshorter (hshorter h))
  · exact h

/-- A stop that stays within its sessions and leaves no playback on has what it needs. -/
theorem stopPath_ends {capture : Bool} {p : Path} (h : Tracked p) (hm : p.Marked capture)
    (haddressed : (stopPath prm env capture p).Addressed)
    (hplay : p.session .cvs ≠ .null → (stopPath prm env capture p).session .cvs = .null →
      (stopPath prm env capture p).dsp.playback = false) : Ends env prm capture p := by
  constructor
  · intro hw
    have hunmark := addressed_unmark hm haddressed
    unfold unmark at hunmark
    rw [if_pos hw] at hunmark
    exact pathStop_addressed hunmark
  · intro hlast hon
    have hdestroy := pathDestroy_spec (unmark prm env capture p)
    rw [stopPath_marked prm env hm, if_pos hlast, hdestroy.dsp, unmark_playback, hon] at hplay
    have hoff := hplay (h.playback hon) (by rw [Path.session, hdestroy.runtime])
    by_contra hne
    rw [if_neg fun hall => hne ⟨hall.1, hall.2.1, hall.2.2.2⟩] at hoff
    exact absurd hoff (by decide)

end

/-- The call with other contents of the variable that a start may leave unset. -/
def Call.withStack (c : Call) (s : Ptr) : Call := { c with env := { c.env with stackCvs := s } }

/-- A call sends through live sessions only, whatever the unset variable holds; the live sessions are
those of the current runtime; and in-call playback is off when its stream is taken down. -/
structure KeepsToSessions (v : Paths) (c : Call) : Prop where
  addressed : ∀ s, (callPath (c.withStack s) (v c.path)).Addressed
  current : ∀ path s, Live (call v c path).log s ↔ s ≠ .null ∧ ∃ svc, (call v c path).session svc = s
  playback : (v c.path).session .cvs ≠ .null → (call v c c.path).session .cvs = .null →
    (call v c c.path).dsp.playback = false

/-- A call finds the parameters as it needs them. -/
structure Steady (v : Paths) (c : Call) : Prop where
  start : c.action = .start → Attempts c.prm c.env c.capture (v c.path) → Streamed c.env c.prm (v c.path)
  stop : c.action = .stop → (v c.path).Marked c.capture → Ends c.env c.prm c.capture (v c.path)

theorem callPath_tracked {v : Paths} {c : Call} (h : Tracked (v c.path)) (hc : Steady v c) (s : Ptr) :
    Tracked (callPath (c.withStack s) (v c.path)) := by
  have hopens : Opens (c.withStack s).env c.prm (v c.path) → Opens c.env c.prm (v c.path) :=
    fun ho => ⟨ho.mvm, ho.cvs, ho.stream, ho.cvp⟩
  have haccepts : Accepts (c.withStack s).env → Accepts c.env := fun ha => ⟨ha.enable, ha.attach, ha.start⟩
  unfold callPath
  cases hact : (c.withStack s).action with
  | start =>
      refine startPath_tracked h fun ha hopen haccept => ?_
      exact hc.start hact ⟨ha.unmarked, ha.runtime, ha.wanted⟩ (hopens hopen) (haccepts haccept)
  | stop =>
      refine stopPath_tracked h fun hm => ?_
      exact ⟨(hc.stop hact hm).sessions, (hc.stop hact hm).playback⟩

theorem call_tracked {v : Paths} {c : Call} (hv : ∀ path, Tracked (v path)) (hc : Steady v c) (path : PathType) :
    Tracked (call v c path) := by
  rw [call_eq]
  by_cases hp : path = c.path
  · rw [hp, Function.update_self]
    exact callPath_tracked (hv c.path) hc c.env.stackCvs
  · rw [Function.update_of_ne hp]
    exact hv path

theorem keepsToSessions_iff {v : Paths} {c : Call} (hv : ∀ path, Tracked (v path)) :
    KeepsToSessions v c ↔ Steady v c := by
  constructor
  · rintro ⟨haddressed, -, hplay⟩
    constructor
    · intro hact ha
      by_contra hs
      have hstray := haddressed .wild
      unfold callPath at hstray
      rw [show (c.withStack .wild).action = .start from hact] at hstray
      refine @startPath_strays (c.withStack .wild).env _ _ _ (hv c.path) rfl
        ⟨ha.unmarked, ha.runtime, ha.wanted⟩ (fun hstream => hs fun hopens haccepts => ?_) hstray
      exact hstream ⟨hopens.mvm, hopens.cvs, hopens.stream, hopens.cvp⟩
        ⟨haccepts.enable, haccepts.attach, haccepts.start⟩
    · intro hact hm
      have hself : call v c c.path = stopPath c.prm c.env c.capture (v c.path) := by
        rw [call_eq, Function.update_self, callPath, hact]
      have haddressed := haddressed c.env.stackCvs
      unfold callPath at haddressed
      rw [show (c.withStack c.env.stackCvs).action = .stop from hact] at haddressed
      rw [hself] at hplay
      exact stopPath_ends (hv c.path) hm haddressed hplay
  · intro hc
    have hafter := call_tracked hv hc
    refine ⟨fun s => (callPath_tracked (hv c.path) hc s).addressed, fun path => (hafter path).live, ?_⟩
    intro _ hnull
    cases hplay : (call v c c.path).dsp.playback with
    | false => rfl
    | true => exact absurd hnull ((hafter c.path).playback hplay)

/-- In every run, the calls keep to the sessions of their runtimes exactly when each of them finds the
parameters as it needs them. -/
theorem parameters_steady_iff (calls : List Call) :
    Always call KeepsToSessions q6voiceCreate calls ↔ Always call Steady q6voiceCreate calls := by
  apply always_iff_of_invariant (I := fun v : Paths => ∀ path, Tracked (v path))
  · exact fun v c hv hc => call_tracked hv hc
  · exact fun v c hv => keepsToSessions_iff hv
  · exact fun _ => newPath_tracked

/-- A call of the voice path, with every command accepted. -/
def voiceCall (action : Action) (capture : Bool) (prm : Params) : Call where
  action := action
  path := .voice
  capture := capture
  prm := prm
  env := ⟨fun _ => 0, true, .null⟩

/-- In-call playback is set up for a call, and `playback_port` is cleared before the call is closed. -/
def clearedPort : List Call :=
  let during : Params := ⟨true, true, 0x1006, 0x4001, true⟩
  let cleared : Params := ⟨true, true, 0, 0x4001, true⟩
  [voiceCall .start false during, voiceCall .start true during,
    voiceCall .stop true cleared, voiceCall .stop false cleared]

/-- The DSP goes on playing into the call when the stream is given back. -/
theorem clearedPort_leaves_playback : ¬ ∀ calls, Always call KeepsToSessions q6voiceCreate calls := by
  intro h
  have hplay := (h clearedPort).2.2.2.1.playback (by decide) (by decide)
  exact absurd hplay (by decide)

end Sirius.Q6voice
