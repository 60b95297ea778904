import Sirius.Q6common.Pending

/-!
# Which reply a send returns on

A session remembers one expected opcode, and every token is zero. A command that is sent
while a reply with its opcode is still on its way to the port is taken to be answered by
that reply; otherwise `q6voice_common_send` returns zero only on the reply to its command.
-/
namespace Sirius.Q6common
open Q6voice (PathType)
open SharedSlots Runs

/-- Zero is only returned once the reply to that very command has arrived, with status zero. -/
def Answered (log : List Event) : Prop :=
  ∀ l c r, log = l ++ .returned c 0 :: r → .arrived c 0 ∈ l

/-- No reply with the opcode that is about to be expected is on its way to the port. -/
def NoStale (v : Service) (a : DspAction) : Prop :=
  ∀ i x op, a.1 = .own i .proceed → v.heap i = some x → x.owner = .send op →
    ∀ c ∈ v.pending, c.opcode = op → c.srcPort ≠ port x.session.port

theorem Answered.nil : Answered [] := by
  intro l c r h
  exact absurd (congrArg List.length h) (by simp)

theorem Answered.append {log : List Event} {e : Event} (h : Answered log)
    (he : ∀ c, e = .returned c 0 → .arrived c 0 ∈ log) : Answered (log ++ [e]) := by
  intro l c r hlog
  rcases List.eq_nil_or_concat r with rfl | ⟨r', e', rfl⟩
  · obtain ⟨rfl, hc⟩ := List.append_inj' hlog rfl
    exact he c (List.singleton_inj.mp hc)
  · rw [List.concat_eq_append, ← List.cons_append, ← List.append_assoc] at hlog
    exact h l c r' (List.append_inj' hlog rfl).1

/-- What an owner inside `q6voice_common_send` can rely on. -/
def Cell.Awaits (pending : List Command) (log : List Event) (x : Cell) : Prop :=
  match x.owner with
  | .transmit h => x.session.expectedOpcode = some h.opcode ∧ h.srcPort = port x.session.port ∧
      ∀ c ∈ pending, c.opcode = h.opcode → c.srcPort ≠ port x.session.port
  | .wait c => c.srcPort = port x.session.port ∧
      ((x.session.expectedOpcode = some c.opcode ∧
          ∀ c' ∈ pending, c'.opcode = c.opcode → c'.srcPort = port x.session.port → c' = c) ∨
        (x.session.expectedOpcode = none ∧ .arrived c x.session.result ∈ log))
  | .woken c => x.session.expectedOpcode = none ∧ .arrived c x.session.result ∈ log
  | _ => True

/-- What comes to be pending for other ports does not matter. -/
theorem Cell.Awaits.mono {p p' : List Command} {l l' : List Event} {x : Cell} (h : x.Awaits p l)
    (hp : ∀ c ∈ p', c ∈ p ∨ (x.owner.stage = .resident → c.srcPort ≠ port x.session.port)) (hl : l ⊆ l') :
    x.Awaits p' l' := by
  unfold Cell.Awaits at h ⊢
  cases ho : x.owner with
  | transmit hdr =>
      rw [ho] at h hp
      refine ⟨h.1, h.2.1, fun c hc hop => ?_⟩
      rcases hp c hc with hc | hne
      · exact h.2.2 c hc hop
      · exact hne rfl
  | wait c =>
      rw [ho] at h hp
      refine ⟨h.1, h.2.imp (fun hw => ⟨hw.1, fun c' hc hop hport => ?_⟩) fun ha => ⟨ha.1, hl ha.2⟩⟩
      rcases hp c' hc with hc | hne
      · exact hw.2 c' hc hop hport
      · exact absurd hport (hne rfl)
  | woken c =>
      rw [ho] at h
      exact ⟨h.1, hl h.2⟩
  | _ => trivial

/-- Every owner can rely on what it waits for. -/
structure Matched (v : Service) : Prop where
  echoes : Echoes v
  awaits : ∀ i x, v.heap i = some x → x.Awaits v.pending v.log
  answered : Answered v.log

/-- One session changes and nothing new is pending. -/
theorem awaits_of_store {v w : Service} (h : ∀ i x, v.heap i = some x → x.Awaits v.pending v.log) {i : ℕ} {x' : Cell}
    (hheap : w.heap = (v.store i x').heap) (hpending : w.pending ⊆ v.pending) (hlog : v.log ⊆ w.log)
    (hx' : x'.Awaits w.pending w.log) (j : ℕ) (y : Cell) (hy : w.heap j = some y) : y.Awaits w.pending w.log := by
  rw [hheap] at hy
  by_cases hj : j = i
  · rw [hj, store_self] at hy
    cases hy
    exact hx'
  · rw [store_ne v hj] at hy
    exact (h j y hy).mono (fun c hc => Or.inl (hpending hc)) hlog

theorem afterSend_awaits (s : Session) (op : Opcode) (ret : ℤ) (x : Cell) (p : List Command) (l : List Event) :
    { x with owner := afterSend s op ret }.Awaits p l := by
  unfold afterSend Cell.Awaits
  cases op with
  | create => split_ifs <;> trivial
  | destroy => trivial
  | command n => trivial

section
variable {v : Service} {i : ℕ} {x : Cell} (hx : v.heap i = some x)

include hx in
/-- A new command is no other owner's to await: the ports of two senders differ. -/
theorem sendPacket_awaits (hv : Inv v.table) (h : Matched v) {hdr : Header} (ho : x.owner = .transmit hdr) (j : ℕ)
    (y : Cell) (hy : (sendPacket hdr v i x).heap j = some y) :
    y.Awaits (sendPacket hdr v i x).pending (sendPacket hdr v i x).log := by
  have hself := h.awaits i x hx
  rw [Cell.Awaits, ho] at hself
  obtain ⟨hop, hsrc, hstale⟩ := hself
  have hpending := sendPacket_pending hdr v i x
  have hlog : v.log ⊆ (sendPacket hdr v i x).log := List.subset_append_left ..
  rw [hpending]
  change (v.store i { x with owner := .wait ⟨hdr, v.serial, i⟩ }).heap j = some y at hy
  by_cases hj : j = i
  · rw [hj, store_self] at hy
    cases hy
    refine ⟨hsrc, Or.inl ⟨hop, fun c' hc' hop' hport => ?_⟩⟩
    rcases List.mem_append.mp hc' with hc' | hc'
    · exact absurd hport (hstale c' hc' hop')
    · exact List.mem_singleton.mp hc'
  · rw [store_ne v hj] at hy
    refine (h.awaits j y hy).mono (fun c hc => ?_) hlog
    rcases List.mem_append.mp hc with hc | hc
    · exact Or.inl hc
    · right
      intro hs hport
      rw [List.mem_singleton.mp hc] at hport
      have hresident : x.owner.stage = .resident := congrArg Owner.stage ho
      exact hj (resident_unique hv hy hx hs hresident (hport.symm.trans hsrc))

theorem own_awaits {ch : Choice} {w : Service} (hx : v.heap i = some x) (hv : Inv v.table) (h : Matched v)
    (hstale : ∀ op, ch = .proceed → x.owner = .send op → ∀ c ∈ v.pending, c.opcode = op →
      c.srcPort ≠ port x.session.port) (hm : Moved v i x ch w) :
    (∀ j y, w.heap j = some y → y.Awaits w.pending w.log) ∧ Answered w.log := by
  have hself := h.awaits i x hx
  have hstore : ∀ {x' : Cell}, x'.Awaits v.pending v.log →
      ∀ j y, (v.store i x').heap j = some y → y.Awaits v.pending v.log := fun hx' =>
    awaits_of_store h.awaits rfl (List.Subset.refl _) (List.Subset.refl _) hx'
  have hrecord : ∀ {x' : Cell} {e : Event}, (x'.Awaits v.pending (v.log ++ [e])) →
      ∀ j y, (v.store i x').heap j = some y → y.Awaits v.pending (v.log ++ [e]) := fun hx' =>
    awaits_of_store (w := (v.store i _).record _) h.awaits rfl (List.Subset.refl _) (List.subset_append_left ..) hx'
  cases hm with
  | stays ch => exact ⟨h.awaits, h.answered⟩
  | register ho =>
      unfold registerSession
      split_ifs
      · exact ⟨hstore trivial, h.answered⟩
      · exact ⟨hstore trivial, h.answered⟩
  | expect op ho => exact ⟨hstore ⟨rfl, rfl, hstale op rfl ho⟩, h.answered⟩
  | transmit hdr ho =>
      refine ⟨sendPacket_awaits hx hv h ho, h.answered.append ?_⟩
      nofun
  | sendFails hdr ret ho hret => exact ⟨hstore trivial, h.answered⟩
  | wake c ho hop =>
      rw [Cell.Awaits, ho] at hself
      rcases hself.2 with ⟨hsome, -⟩ | hnone
      · rw [hop] at hsome
        cases hsome
      · exact ⟨hstore hnone, h.answered⟩
  | timeout c ho hop => exact ⟨hstore trivial, h.answered⟩
  | clear c ho =>
      refine ⟨hrecord trivial, h.answered.append ?_⟩
      intro c' he
      cases he
  | read c ret ho hret =>
      rw [Cell.Awaits, ho] at hself
      refine ⟨hrecord trivial, h.answered.append ?_⟩
      intro c' he
      obtain ⟨rfl, rfl⟩ := Event.returned.inj he
      split_ifs at hret with hres
      · cases hret
      · exact not_not.mp hres ▸ hself.2
  | resume op ret ho => exact ⟨hstore (afterSend_awaits _ op ret x _ _), h.answered⟩
  | command n ho => exact ⟨hstore trivial, h.answered⟩
  | release ho => exact ⟨hstore trivial, h.answered⟩
  | destroy ho hh => exact ⟨hstore trivial, h.answered⟩
  | leave ho hh => exact ⟨hstore trivial, h.answered⟩
  | unregister ho => exact ⟨hstore trivial, h.answered⟩
  | put ho => exact ⟨hstore trivial, h.answered⟩

end
theorem reply_awaits {v : Service} (h : Matched v) (status : BitVec 32) (srcPort : BitVec 16) :
    (∀ j y, (dspReply status srcPort v).heap j = some y →
        y.Awaits (dspReply status srcPort v).pending (dspReply status srcPort v).log) ∧
      Answered (dspReply status srcPort v).log := by
  have hpending := (reply_pending status srcPort v).subset
  cases hq : v.unanswered with
  | nil =>
      rw [dspReply, hq]
      exact ⟨h.awaits, h.answered⟩
  | cons c rest =>
      rw [dspReply_cons hq] at hpending ⊢
      obtain ⟨-, hheap, -⟩ := dspAnswer_kept c status srcPort v
      have hlog := (dspAnswer_log c status srcPort v).1
      have hanswered : Answered (dspAnswer c status srcPort v).log := by
        unfold dspAnswer
        dsimp only
        split_ifs
        · exact (h.answered.append fun c' he => by cases he).append fun c' he => by cases he
        · exact h.answered.append fun c' he => by cases he
      have hfound := lookupSession_found (c.reply status srcPort) (some c) (dspAnswer c status srcPort v)
      generalize lookupSession (c.reply status srcPort) (some c) (dspAnswer c status srcPort v) = w at hpending hfound ⊢
      cases hfound with
      | dropped hslot =>
          refine ⟨fun j y hy => ?_, hanswered⟩
          rw [hheap] at hy
          exact (h.awaits j y hy).mono (fun c hc => Or.inl (hpending hc)) hlog
      | found path i x hport hslot hx =>
          have hstore := congrArg (fun heap => Function.update heap i (some (krefGet x))) hheap
          rw [hheap] at hx
          -- the count of references is not what an owner relies on
          have hx' : (krefGet x).Awaits v.pending v.log := h.awaits i x hx
          exact ⟨awaits_of_store h.awaits hstore hpending hlog (hx'.mono (fun c hc => Or.inl (hpending hc)) hlog),
            hanswered⟩

/-- The packet a callback handles is the awaited reply, or the session is left alone. -/
theorem sessionCallback_awaits {v : Service} (h : Matched v) {cb : Callback} {x : Cell} (hmem : cb ∈ v.callbacks)
    (hh : cb.handled = false) (hx : v.heap cb.session = some x) :
    { x with session := q6voiceSessionCallback cb.data x.session }.Awaits v.pending v.log := by
  have hself := h.awaits cb.session x hx
  obtain ⟨c, y, ha, hd, harrived, hy, hp⟩ := h.echoes cb hmem
  rw [hx] at hy
  cases hy
  have hpending : c ∈ v.pending := mem_pending hmem hh ha
  rcases sessionCallback_cases cb.data x.session with he | ⟨hop, -, he⟩
  · rw [he]
    exact hself
  · have hexpected : x.session.expectedOpcode = some c.opcode := by
      rw [← hop, hd]
      rfl
    rw [he]
    unfold Cell.Awaits at hself ⊢
    cases ho : x.owner with
    | transmit hdr =>
        rw [ho] at hself
        have hsame : c.opcode = hdr.opcode := Option.some.inj (hexpected.symm.trans hself.1)
        exact absurd hp (hself.2.2 c hpending hsame)
    | wait c₀ =>
        rw [ho] at hself
        obtain ⟨hport, ⟨hsome, hunique⟩ | ⟨hnone, -⟩⟩ := hself
        · have hsame : c.opcode = c₀.opcode := Option.some.inj (hexpected.symm.trans hsome)
          rw [← hunique c hpending hsame hp] at hport ⊢
          exact ⟨hport, Or.inr ⟨rfl, harrived⟩⟩
        · rw [hnone] at hexpected
          cases hexpected
    | woken c₀ =>
        rw [ho] at hself
        rw [hself.1] at hexpected
        cases hexpected
    | _ => trivial

theorem handled_awaits {v w : Service} (h : Matched v) (hw : Handled v w) :
    (∀ j y, w.heap j = some y → y.Awaits w.pending w.log) ∧ Answered w.log := by
  have hpending := (handled_pending hw).subset
  have hsame : ∀ {x : Cell}, x.Awaits v.pending v.log → x.Awaits w.pending v.log := fun hx =>
    hx.mono (fun c hc => Or.inl (hpending hc)) (List.Subset.refl _)
  cases hw with
  | stays => exact ⟨h.awaits, h.answered⟩
  | handled l r cb x hcb hh hx =>
      have hmem : cb ∈ v.callbacks := hcb ▸ List.mem_append_right _ List.mem_cons_self
      refine ⟨awaits_of_store h.awaits rfl hpending (List.Subset.refl _) ?_, h.answered⟩
      exact hsame (sessionCallback_awaits h hmem hh hx)
  | finished l r cb x hcb hh hx =>
      have hx' : (krefPut x).Awaits v.pending v.log := h.awaits cb.session x hx
      exact ⟨awaits_of_store h.awaits rfl hpending (List.Subset.refl _) (hsame hx'), h.answered⟩

theorem q6voiceCommonProbe_matched : Matched q6voiceCommonProbe := by
  refine ⟨fun _ hcb => absurd hcb List.not_mem_nil, ?_, Answered.nil⟩
  intro i x hx
  cases hx

theorem step_matched {v : Service} (hv : Inv v.table) (h : Matched v) {a : DspAction} (hstale : NoStale v a) :
    Matched (DspAction.step v a) := by
  obtain ⟨a, ha⟩ := a
  have hechoes := step_echoes hv h.echoes ha
  have hrest : (∀ j y, (step v a).heap j = some y → y.Awaits (step v a).pending (step v a).log) ∧
      Answered (step v a).log := by
    cases a with
    | create path =>
        exact ⟨awaits_of_store (i := v.next) h.awaits rfl (List.Subset.refl _) (List.Subset.refl _) trivial,
          h.answered⟩
    | own i ch =>
        rw [step]
        cases hx : v.heap i with
        | none => exact ⟨h.awaits, h.answered⟩
        | some x =>
            refine own_awaits hx hv h (fun op hch ho => ?_) (ownerStep_moved ch v i x)
            exact hstale i x op (congrArg (Action.own i) hch) hx ho
    | reply status srcPort => exact reply_awaits h status srcPort
    | packet data => exact ha.elim
    | handle k => exact handled_awaits h (handlePacket_handled k v)
    | finish k => exact handled_awaits h (finishCallback_handled k v)
  exact ⟨hechoes, hrest.1, hrest.2⟩

/-- In every run that sends no command while a reply with its opcode is on its way to the port. -/
theorem send_returns_own_reply (as : List DspAction) (h : Always DspAction.step NoStale q6voiceCommonProbe as) :
    Answered (run DspAction.step q6voiceCommonProbe as).log := by
  have hinv := run_invariant (I := fun v : Service => Inv v.table ∧ Matched v)
    (fun v a hv hstale => ⟨step_inv hv.1 a.1, step_matched hv.1 hv.2 hstale⟩)
    ⟨q6voiceCommonProbe_inv, q6voiceCommonProbe_matched⟩ h
  exact hinv.2.answered

theorem createSession_answered : Answered (run DspAction.step q6voiceCommonProbe createSession).log := by
  apply send_returns_own_reply
  refine ⟨?_, ?_, ?_, ?_, ?_, ?_, ?_, ?_, ?_, ?_, trivial⟩ <;> intro i x op ha hx ho c hc
  all_goals first
    | exact absurd hc List.not_mem_nil
    | cases ha

/-- The command times out, is sent again, and the reply to the first comes. -/
def retry : List DspAction :=
  createSession ++ ⟨.own 0 (.command 1), trivial⟩ :: proceed 2 ++ ⟨.own 0 .timeout, trivial⟩ :: proceed 2 ++
    ⟨.own 0 (.command 1), trivial⟩ :: proceed 2 ++ [⟨.reply 0 5, trivial⟩, ⟨.handle 0, trivial⟩] ++ proceed 2

/-- The second command returns zero on the reply to the first. -/
theorem retry_returns_stale_reply :
    ¬ ∀ as : List DspAction, Answered (run DspAction.step q6voiceCommonProbe as).log := by
  intro h
  have hlog : ∃ l c, (run DspAction.step q6voiceCommonProbe retry).log = l ++ [.returned c 0] ∧ .arrived c 0 ∉ l := by
    refine ⟨(run DspAction.step q6voiceCommonProbe retry).log.dropLast,
      ⟨⟨.command 1, 0, 5, 0⟩, 2, 0⟩, by decide, by decide⟩
  obtain ⟨l, c, hlog, harrived⟩ := hlog
  exact harrived (h retry l c [] hlog)

end Sirius.Q6common
