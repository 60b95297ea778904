import Sirius.Q6common.Refcount

/-!
# Replies on their way

Runs in which every packet is a reply of the DSP, one for each command and in the order sent.
A command is pending until its reply has been handled or dropped.
-/
namespace Sirius.Q6common
open Q6voice (PathType)
open SharedSlots Runs

def Action.FromDsp : Action → Prop
  | .packet _ => False
  | _ => True

abbrev DspAction := { a : Action // a.FromDsp }

def DspAction.step (v : Service) (a : DspAction) : Service := Q6common.step v a.1

/-- The command whose reply the callback has yet to handle. -/
def Callback.pending (cb : Callback) : Option Command := if cb.handled then none else cb.answers

def Service.pending (v : Service) : List Command := v.callbacks.filterMap Callback.pending ++ v.unanswered

theorem port_inj {p q : PathType} (h : port p = port q) : p = q := by
  have hp := congrArg ofPort h
  rw [ofPort_port, ofPort_port] at hp
  exact Option.some.inj hp

/-- No two owners are between the test of the slot and the end of it on one port. -/
theorem resident_unique {v : Service} (hv : Inv v.table) {i j : ℕ} {x y : Cell} (hx : v.heap i = some x)
    (hy : v.heap j = some y) (hs : x.owner.stage = .resident) (hs' : y.owner.stage = .resident)
    (hport : port x.session.port = port y.session.port) : i = j :=
  (counted_of_inv hv).exclusive i j x y hx hy hs hs' (port_inj hport)

theorem heap_unallocated {v : Service} (hv : Inv v.table) {i : ℕ} (hi : v.next ≤ i) : v.heap i = none :=
  Option.map_eq_none_iff.mp (hv.unallocated i hi)

theorem run_inv (as : List DspAction) : Inv (run DspAction.step q6voiceCommonProbe as).table :=
  run_keeps (I := fun v : Service => Inv v.table) (fun _ a hv => step_inv hv a.1) q6voiceCommonProbe_inv as

def proceed (n : ℕ) : List DspAction := List.replicate n ⟨.own 0 .proceed, trivial⟩

/-- A session is created; its handle is 5. -/
def createSession : List DspAction :=
  ⟨.create .voice, trivial⟩ :: proceed 3 ++
    [⟨.reply 0 5, trivial⟩, ⟨.handle 0, trivial⟩, ⟨.finish 0, trivial⟩] ++ proceed 3

/-- Every callback handles the reply to a command, on a session with the port it was sent from. -/
def Echoes (v : Service) : Prop :=
  ∀ cb ∈ v.callbacks, ∃ c x, cb.answers = some c ∧ cb.data = c.reply cb.data.status cb.data.srcPort ∧
    .arrived c cb.data.status ∈ v.log ∧ v.heap cb.session = some x ∧ c.srcPort = port x.session.port

theorem Echoes.of_store {v w : Service} (h : Echoes v) {i : ℕ} {x' : Cell} (hheap : w.heap = (v.store i x').heap)
    (hport : ∀ x, v.heap i = some x → x'.session.port = x.session.port) (hlog : v.log ⊆ w.log)
    (hcb : ∀ cb ∈ w.callbacks, ∃ cb' ∈ v.callbacks,
      cb'.session = cb.session ∧ cb'.data = cb.data ∧ cb'.answers = cb.answers) : Echoes w := by
  intro cb hmem
  obtain ⟨cb', hmem', hsession, hdata, hanswers⟩ := hcb cb hmem
  obtain ⟨c, x, ha, hd, harrived, hx, hp⟩ := h cb' hmem'
  rw [hanswers] at ha
  rw [hdata] at hd harrived
  rw [hsession] at hx
  rw [hheap]
  by_cases hi : cb.session = i
  · refine ⟨c, x', ha, hd, hlog harrived, hi ▸ store_self v i x', ?_⟩
    rw [hport x (hi ▸ hx)]
    exact hp
  · exact ⟨c, x, ha, hd, hlog harrived, (store_ne v hi x').trans hx, hp⟩

theorem own_echoes {v w : Service} (h : Echoes v) {i : ℕ} {x : Cell} {ch : Choice} (hx : v.heap i = some x)
    (hm : Moved v i x ch w) : Echoes w := by
  obtain ⟨x', hframe⟩ := moved_framed hx hm
  refine h.of_store hframe.heap (fun y hy => ?_) hframe.log fun cb hmem => ⟨cb, ?_, rfl, rfl, rfl⟩
  · rw [hx] at hy
    cases hy
    exact hframe.port
  · exact hframe.callbacks ▸ hmem

theorem dspAnswer_log (c : Command) (status : BitVec 32) (srcPort : BitVec 16) (v : Service) :
    v.log ⊆ (dspAnswer c status srcPort v).log ∧ .arrived c status ∈ (dspAnswer c status srcPort v).log := by
  unfold dspAnswer
  dsimp only
  split_ifs
  · exact ⟨fun e he => List.mem_append_left _ (List.mem_append_left _ he), List.mem_append_right _ List.mem_cons_self⟩
  · exact ⟨fun e he => List.mem_append_left _ he, List.mem_append_right _ List.mem_cons_self⟩

/-- A reply that is found becomes a callback on the session in the slot of its port. -/
theorem found_echoes {v w : Service} (hv : Inv v.table) (h : Echoes v) {c : Command} {status : BitVec 32}
    {srcPort : BitVec 16} (harrived : .arrived c status ∈ v.log)
    (hf : Found (c.reply status srcPort) (some c) v w) : Echoes w := by
  cases hf with
  | dropped hslot => exact h
  | found path i x hport hslot hx =>
      have hpath : x.session.port = path := by
        obtain ⟨y, hy, hp, -⟩ := ((counted_of_inv hv).slot path i).mp hslot
        rw [hx] at hy
        cases hy
        exact hp
      intro cb hmem
      rcases List.mem_append.mp hmem with hmem | hmem
      · have hstore : Echoes (v.store i (krefGet x)) := by
          refine h.of_store rfl (fun y hy => ?_) (List.Subset.refl _) fun cb hcb => ⟨cb, hcb, rfl, rfl, rfl⟩
          rw [hx] at hy
          cases hy
          rfl
        exact hstore cb hmem
      · rw [List.mem_singleton] at hmem
        subst hmem
        refine ⟨c, krefGet x, rfl, rfl, harrived, store_self v i _, ?_⟩
        exact (port_of_ofPort hport).trans (congrArg port hpath.symm)

theorem reply_echoes {v : Service} (hv : Inv v.table) (h : Echoes v) (status : BitVec 32) (srcPort : BitVec 16) :
    Echoes (dspReply status srcPort v) := by
  cases hq : v.unanswered with
  | nil =>
      rw [dspReply, hq]
      exact h
  | cons c rest =>
      rw [dspReply_cons hq]
      obtain ⟨hsessions, hheap, -, hcallbacks, -⟩ := dspAnswer_kept c status srcPort v
      obtain ⟨hlog, harrived⟩ := dspAnswer_log c status srcPort v
      have hanswer : Echoes (dspAnswer c status srcPort v) := by
        intro cb hmem
        obtain ⟨c', x, ha, hd, har, hx, hp⟩ := h cb (hcallbacks ▸ hmem)
        exact ⟨c', x, ha, hd, hlog har, hheap ▸ hx, hp⟩
      exact found_echoes (dspAnswer_table c status srcPort v ▸ hv) hanswer harrived (lookupSession_found ..)

theorem handled_echoes {v w : Service} (h : Echoes v) (hh : Handled v w) : Echoes w := by
  have hport : ∀ {i : ℕ} {x x' : Cell}, v.heap i = some x → x'.session.port = x.session.port →
      ∀ y, v.heap i = some y → x'.session.port = y.session.port := by
    intro i x x' hx hp y hy
    rw [hx] at hy
    cases hy
    exact hp
  cases hh with
  | stays => exact h
  | handled l r cb x hcb hh hx =>
      refine h.of_store rfl (hport hx (sessionCallback_kept cb.data x.session).1) (List.Subset.refl _) ?_
      intro cb' hmem
      rw [hcb]
      rcases List.mem_append.mp hmem with hmem | hmem
      · exact ⟨cb', List.mem_append_left _ hmem, rfl, rfl, rfl⟩
      · rcases List.mem_cons.mp hmem with rfl | hmem
        · exact ⟨cb, List.mem_append_right _ List.mem_cons_self, rfl, rfl, rfl⟩
        · exact ⟨cb', List.mem_append_right _ (List.mem_cons_of_mem _ hmem), rfl, rfl, rfl⟩
  | finished l r cb x hcb hh hx =>
      refine h.of_store rfl (hport hx rfl) (List.Subset.refl _) ?_
      intro cb' hmem
      rw [hcb]
      rcases List.mem_append.mp hmem with hmem | hmem
      · exact ⟨cb', List.mem_append_left _ hmem, rfl, rfl, rfl⟩
      · exact ⟨cb', List.mem_append_right _ (List.mem_cons_of_mem _ hmem), rfl, rfl, rfl⟩

theorem step_echoes {v : Service} (hv : Inv v.table) (h : Echoes v) {a : Action} (ha : a.FromDsp) :
    Echoes (step v a) := by
  cases a with
  | create path =>
      refine h.of_store (i := v.next) rfl (fun y hy => ?_) (List.Subset.refl _) fun cb hcb => ⟨cb, hcb, rfl, rfl, rfl⟩
      rw [heap_unallocated hv le_rfl] at hy
      cases hy
  | own i ch =>
      rw [step]
      cases hx : v.heap i with
      | none => exact h
      | some x => exact own_echoes h hx (ownerStep_moved ch v i x)
  | reply status srcPort => exact reply_echoes hv h status srcPort
  | packet data => exact ha.elim
  | handle k => exact handled_echoes h (handlePacket_handled k v)
  | finish k => exact handled_echoes h (finishCallback_handled k v)

theorem sendPacket_pending (hdr : Header) (v : Service) (i : ℕ) (x : Cell) :
    (sendPacket hdr v i x).pending = v.pending ++ [⟨hdr, v.serial, i⟩] := by
  rw [Service.pending, Service.pending, List.append_assoc]
  rfl

theorem mem_pending {v : Service} {cb : Callback} {c : Command} (hmem : cb ∈ v.callbacks) (hh : cb.handled = false)
    (ha : cb.answers = some c) : c ∈ v.pending := by
  apply List.mem_append_left
  refine List.mem_filterMap.mpr ⟨cb, hmem, ?_⟩
  rw [Callback.pending, hh]
  exact ha

theorem found_pending {v w : Service} {data : Packet} {c : Command} (hf : Found data (some c) v w) :
    w.pending.Sublist (v.callbacks.filterMap Callback.pending ++ c :: v.unanswered) := by
  cases hf with
  | dropped hslot => exact (List.Sublist.refl _).append (List.sublist_cons_self c _)
  | found path i x hport hslot hx =>
      change (List.filterMap Callback.pending (v.callbacks ++ [_]) ++ v.unanswered).Sublist _
      rw [List.filterMap_append, List.append_assoc]
      exact List.Sublist.refl _

theorem reply_pending (status : BitVec 32) (srcPort : BitVec 16) (v : Service) :
    (dspReply status srcPort v).pending.Sublist v.pending := by
  cases hq : v.unanswered with
  | nil =>
      rw [dspReply, hq]
  | cons c rest =>
      have hkept := dspAnswer_kept c status srcPort v
      have hunanswered : (dspAnswer c status srcPort v).unanswered = rest := by
        unfold dspAnswer
        dsimp only
        split_ifs <;> exact congrArg List.tail hq
      have hfound :=
        found_pending (lookupSession_found (c.reply status srcPort) (some c) (dspAnswer c status srcPort v))
      have hpending : v.pending = v.callbacks.filterMap Callback.pending ++ c :: rest := by
        rw [Service.pending, hq]
      rw [dspReply_cons hq, hpending]
      rw [hkept.2.2.2.1, hunanswered] at hfound
      exact hfound

theorem handled_pending {v w : Service} (hh : Handled v w) : w.pending.Sublist v.pending := by
  cases hh with
  | stays => exact List.Sublist.refl _
  | handled l r cb x hcb hh hx =>
      refine List.Sublist.append ?_ (List.Sublist.refl _)
      rw [hcb, List.filterMap_append, List.filterMap_append]
      refine (List.Sublist.refl _).append ?_
      rw [List.filterMap_cons, List.filterMap_cons]
      change (r.filterMap Callback.pending).Sublist _
      cases cb.pending with
      | none => exact List.Sublist.refl _
      | some c => exact List.sublist_cons_self c _
  | finished l r cb x hcb hh hx =>
      refine List.Sublist.append ?_ (List.Sublist.refl _)
      rw [hcb, List.filterMap_append, List.filterMap_append]
      refine (List.Sublist.refl _).append ?_
      rw [List.filterMap_cons, Callback.pending, hh]
      exact List.Sublist.refl _

/-- A handled reply leaves no other copy of its command. -/
theorem not_pending_of_handled {v : Service} {l r : List Callback} {cb : Callback} {c : Command}
    (hcb : v.callbacks = l ++ cb :: r) (hp : cb.pending = some c) (hnodup : v.pending.Nodup) :
    c ∉ (l ++ { cb with handled := true } :: r).filterMap Callback.pending ++ v.unanswered := by
  have hold : v.pending = l.filterMap Callback.pending ++ c :: (r.filterMap Callback.pending ++ v.unanswered) := by
    rw [Service.pending, hcb, List.filterMap_append, List.filterMap_cons, hp, List.append_assoc]
    rfl
  have hnew : (l ++ { cb with handled := true } :: r).filterMap Callback.pending ++ v.unanswered =
      l.filterMap Callback.pending ++ (r.filterMap Callback.pending ++ v.unanswered) := by
    rw [List.filterMap_append, List.filterMap_cons, List.append_assoc]
    rfl
  rw [hold, List.perm_middle.nodup_iff] at hnodup
  rw [hnew]
  exact (List.nodup_cons.mp hnodup).1

end Sirius.Q6common
