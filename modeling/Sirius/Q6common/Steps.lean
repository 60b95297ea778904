import Sirius.Q6common.Model

/-!
# What a step of the service can do

One case for each step an owner takes and for each thing a callback does.
-/
namespace Sirius.Q6common
open Q6voice (PathType EBUSY)

@[simp] theorem store_self (v : Service) (i : ℕ) (x : Cell) : (v.store i x).heap i = some x :=
  Function.update_self ..

theorem store_ne (v : Service) {i j : ℕ} (hj : j ≠ i) (x : Cell) : (v.store i x).heap j = v.heap j :=
  Function.update_of_ne hj ..

theorem port_of_ofPort {n : ℕ} {path : PathType} (h : ofPort n = some path) : n = port path := by
  unfold ofPort at h
  split at h <;> cases h <;> rfl

/-- The step of the owner of session `i`, by where it is. -/
inductive Moved (v : Service) (i : ℕ) (x : Cell) : Choice → Service → Prop
  | stays (ch : Choice) : Moved v i x ch v
  | register (ho : x.owner = .allocated) : Moved v i x .proceed (registerSession v i x)
  | expect (op : Opcode) (ho : x.owner = .send op) : Moved v i x .proceed (v.store i (expectReply op x))
  | transmit (h : Header) (ho : x.owner = .transmit h) : Moved v i x .proceed (sendPacket h v i x)
  | sendFails (h : Header) (ret : ℤ) (ho : x.owner = .transmit h) (hret : ret < 0) :
      Moved v i x (.sendFails ret) (v.store i { x with owner := .returned h.opcode ret })
  | wake (c : Command) (ho : x.owner = .wait c) (hop : x.session.expectedOpcode = none) :
      Moved v i x .proceed (v.store i { x with owner := .woken c })
  | timeout (c : Command) (ho : x.owner = .wait c) (hop : x.session.expectedOpcode ≠ none) :
      Moved v i x .timeout (v.store i { x with owner := .timedOut c })
  | clear (c : Command) (ho : x.owner = .timedOut c) :
      Moved v i x .proceed ((v.store i { x with
        session := { x.session with expectedOpcode := none }
        owner := .returned c.opcode (-ETIMEDOUT) }).record (.returned c (-ETIMEDOUT)))
  | read (c : Command) (ret : ℤ) (ho : x.owner = .woken c)
      (hret : ret = if x.session.result ≠ 0 then - EIO else 0) :
      Moved v i x .proceed ((v.store i { x with owner := .returned c.opcode ret }).record (.returned c ret))
  | resume (op : Opcode) (ret : ℤ) (ho : x.owner = .returned op ret) :
      Moved v i x .proceed (v.store i { x with owner := afterSend x.session op ret })
  | command (n : ℕ) (ho : x.owner = .holding) :
      Moved v i x (.command n) (v.store i { x with owner := .send (.command n) })
  | release (ho : x.owner = .holding) : Moved v i x .release (v.store i { x with owner := .releasing })
  | destroy (ho : x.owner = .releasing) (hh : x.session.handle ≠ 0) :
      Moved v i x .proceed (v.store i { x with owner := .send .destroy })
  | leave (ho : x.owner = .releasing) (hh : x.session.handle = 0) :
      Moved v i x .proceed (v.store i { x with owner := .unregistering })
  | unregister (ho : x.owner = .unregistering) : Moved v i x .proceed (unregisterSession v i x)
  | put (ho : x.owner = .putting) : Moved v i x .proceed (v.store i { krefPut x with owner := .done })

theorem ownerStep_moved (ch : Choice) (v : Service) (i : ℕ) (x : Cell) : Moved v i x ch (ownerStep ch v i x) := by
  unfold ownerStep
  cases ho : x.owner <;> cases ch <;> try exact .stays _
  case allocated.proceed => exact .register ho
  case send.proceed op => exact .expect op ho
  case transmit.proceed h => exact .transmit h ho
  case transmit.sendFails h ret =>
    dsimp only
    split_ifs with hret
    · exact .sendFails h ret ho hret
    · exact .stays _
  case wait.proceed c =>
    dsimp only
    split_ifs with hop
    · exact .wake c ho hop
    · exact .stays _
  case wait.timeout c =>
    dsimp only
    split_ifs with hop
    · exact .stays _
    · exact .timeout c ho hop
  case timedOut.proceed c => exact .clear c ho
  case woken.proceed c => exact .read c _ ho rfl
  case returned.proceed op ret => exact .resume op ret ho
  case holding.command n => exact .command n ho
  case holding.release => exact .release ho
  case releasing.proceed =>
    dsimp only
    split_ifs with hh
    · exact .destroy ho hh
    · exact .leave ho (not_not.mp hh)
  case unregistering.proceed => exact .unregister ho
  case putting.proceed => exact .put ho

/-- What every step of an owner leaves of the rest of the service. -/
structure Framed (v : Service) (i : ℕ) (x x' : Cell) (w : Service) : Prop where
  heap : w.heap = (v.store i x').heap
  port : x'.session.port = x.session.port
  callbacks : w.callbacks = v.callbacks
  log : v.log ⊆ w.log

theorem moved_framed {v w : Service} {i : ℕ} {x : Cell} {ch : Choice} (h : v.heap i = some x)
    (hm : Moved v i x ch w) : ∃ x', Framed v i x x' w := by
  have hlog : ∀ e, v.log ⊆ (v.record e).log := fun e => List.subset_append_left ..
  have hsame : v.heap = (v.store i x).heap := by
    rw [Service.store, ← h, Function.update_eq_self]
  cases hm with
  | stays ch => exact ⟨x, hsame, rfl, rfl, List.Subset.refl _⟩
  | register ho =>
      unfold registerSession
      split_ifs <;> exact ⟨_, rfl, rfl, rfl, List.Subset.refl _⟩
  | transmit hdr ho => exact ⟨_, rfl, rfl, rfl, hlog _⟩
  | clear c ho => exact ⟨_, rfl, rfl, rfl, hlog _⟩
  | read c ret ho hret => exact ⟨_, rfl, rfl, rfl, hlog _⟩
  | _ => exact ⟨_, rfl, rfl, rfl, List.Subset.refl _⟩

/-- A packet at `q6voice_common_callback`: dropped, or a callback with its own reference. -/
inductive Found (data : Packet) (answers : Option Command) (v : Service) : Service → Prop
  | dropped (hslot : ∀ path i, ofPort data.destPort = some path → v.sessions path = some i → v.heap i = none) :
      Found data answers v v
  | found (path : PathType) (i : ℕ) (x : Cell) (hport : ofPort data.destPort = some path)
      (hslot : v.sessions path = some i) (hx : v.heap i = some x) :
      Found data answers v { v.store i (krefGet x) with callbacks := v.callbacks ++ [⟨i, data, answers, false⟩] }

theorem lookupSession_found (data : Packet) (answers : Option Command) (v : Service) :
    Found data answers v (lookupSession data answers v) := by
  unfold lookupSession
  cases hport : ofPort data.destPort with
  | none => exact .dropped (by grind)
  | some path =>
      dsimp only [Option.bind_some]
      cases hslot : v.sessions path with
      | none => exact .dropped (by grind)
      | some i =>
          dsimp only
          cases hx : v.heap i with
          | none => exact .dropped (by grind)
          | some x => exact .found path i x hport hslot hx

theorem dspReply_cons {v : Service} {c : Command} {rest : List Command} (hc : v.unanswered = c :: rest)
    (status : BitVec 32) (srcPort : BitVec 16) : dspReply status srcPort v =
      lookupSession (c.reply status srcPort) (some c) (dspAnswer c status srcPort v) := by
  rw [dspReply, hc]

/-- What an answer leaves alone. -/
theorem dspAnswer_kept (c : Command) (status : BitVec 32) (srcPort : BitVec 16) (v : Service) :
    (dspAnswer c status srcPort v).sessions = v.sessions ∧ (dspAnswer c status srcPort v).heap = v.heap ∧
      (dspAnswer c status srcPort v).next = v.next ∧ (dspAnswer c status srcPort v).callbacks = v.callbacks ∧
      (dspAnswer c status srcPort v).serial = v.serial := by
  unfold dspAnswer
  dsimp only
  split_ifs <;> exact ⟨rfl, rfl, rfl, rfl, rfl⟩

/-- The two steps of a callback in progress; `l` and `r` are the others. -/
inductive Handled (v : Service) : Service → Prop
  | stays : Handled v v
  | handled (l r : List Callback) (cb : Callback) (x : Cell) (hcb : v.callbacks = l ++ cb :: r)
      (hh : cb.handled = false) (hx : v.heap cb.session = some x) :
      Handled v { v.store cb.session { x with session := q6voiceSessionCallback cb.data x.session } with
        callbacks := l ++ { cb with handled := true } :: r }
  | finished (l r : List Callback) (cb : Callback) (x : Cell) (hcb : v.callbacks = l ++ cb :: r)
      (hh : cb.handled = true) (hx : v.heap cb.session = some x) :
      Handled v { v.store cb.session (krefPut x) with callbacks := l ++ r }

/-- A list around its `k`-th element. -/
theorem split_getElem {β : Type*} {as : List β} {k : ℕ} {a : β} (h : as[k]? = some a) :
    as = as.take k ++ a :: as.drop (k + 1) ∧ (∀ b, as.set k b = as.take k ++ b :: as.drop (k + 1)) ∧
      as.eraseIdx k = as.take k ++ as.drop (k + 1) := by
  obtain ⟨hk, ha⟩ := List.getElem?_eq_some_iff.mp h
  refine ⟨?_, fun b => List.set_eq_take_append_cons_drop.trans (if_pos hk), List.eraseIdx_eq_take_drop_succ ..⟩
  rw [← ha, ← List.drop_eq_getElem_cons hk, List.take_append_drop]

theorem handlePacket_handled (k : ℕ) (v : Service) : Handled v (handlePacket k v) := by
  unfold handlePacket
  cases hk : v.callbacks[k]? with
  | none => exact .stays
  | some cb =>
      obtain ⟨hcb, hset, -⟩ := split_getElem hk
      dsimp only
      cases hh : cb.handled with
      | true => exact .stays
      | false =>
          cases hx : v.heap cb.session with
          | none => exact .stays
          | some x =>
              simp only [hset]
              exact .handled _ _ cb x hcb hh hx

theorem finishCallback_handled (k : ℕ) (v : Service) : Handled v (finishCallback k v) := by
  unfold finishCallback
  cases hk : v.callbacks[k]? with
  | none => exact .stays
  | some cb =>
      obtain ⟨hcb, -, herase⟩ := split_getElem hk
      dsimp only
      cases hh : cb.handled with
      | false => exact .stays
      | true =>
          cases hx : v.heap cb.session with
          | none => exact .stays
          | some x =>
              simp only [herase]
              exact .finished _ _ cb x hcb hh hx

/-- A packet is ignored, or it is the reply that was expected. -/
theorem sessionCallback_cases (data : Packet) (s : Session) :
    q6voiceSessionCallback data s = s ∨
      (data.opcode = s.expectedOpcode ∧ (s.handle = 0 ∨ s.handle = data.srcPort) ∧ q6voiceSessionCallback data s =
        { s with handle := data.srcPort, result := data.status, expectedOpcode := none }) := by
  unfold q6voiceSessionCallback
  dsimp only
  by_cases hb : data.basic = false
  · exact Or.inl (if_pos hb)
  · rw [if_neg hb]
    by_cases hop : data.opcode = s.expectedOpcode
    · rw [if_neg (not_not.mpr hop)]
      by_cases hz : s.handle = 0
      · rw [if_pos hz, if_neg (not_not.mpr rfl)]
        exact Or.inr ⟨hop, Or.inl hz, rfl⟩
      · rw [if_neg hz]
        by_cases hh : s.handle = data.srcPort
        · rw [if_neg (not_not.mpr hh)]
          refine Or.inr ⟨hop, Or.inr hh, ?_⟩
          rw [hh]
        · exact Or.inl (if_pos hh)
    · exact Or.inl (if_pos hop)

end Sirius.Q6common
