import Sirius.Lib.Runs
import Sirius.Lib.SharedSlots
import Sirius.Q6common.Steps

/-!
# Who holds a session

Each session is an object behind the slot of its path: its owner holds one reference until
it has put it, each callback between its get and its put another. Every step of the service
is a step of such objects, or none.
-/
namespace Sirius.Q6common
open Q6voice (PathType EBUSY)
open SharedSlots Runs

def Owner.stage : Owner → Stage
  | .allocated => .fresh
  | .failed _ => .refused
  | .putting => .retired
  | .done => .gone
  | _ => .resident

def Cell.obj (x : Cell) : Obj PathType := ⟨x.session.port, x.session.refcount, x.owner.stage, x.freed⟩

/-- How many callbacks hold a reference to the session. -/
def Service.holders (v : Service) (i : ℕ) : ℕ := v.callbacks.countP (·.session = i)

/-- The sessions of a service as counted objects behind slots. -/
def Service.table (v : Service) : Table PathType :=
  ⟨v.sessions, fun i => (v.heap i).map Cell.obj, v.next, v.holders⟩

theorem table_heap {v : Service} {i : ℕ} {x : Cell} (h : v.heap i = some x) : v.table.heap i = some x.obj :=
  congrArg (Option.map Cell.obj) h

/-- One session changes, and whatever else a step changes of the service. -/
theorem table_of_store {v w : Service} {i : ℕ} {x : Cell} (hheap : w.heap = (v.store i x).heap) :
    w.table = { v.table.set i x.obj with slots := w.sessions, next := w.next, borrowed := w.holders } := by
  have hset : (fun j => (Function.update v.heap i (some x) j).map Cell.obj) =
      Function.update (fun j => (v.heap j).map Cell.obj) i (some x.obj) :=
    Function.comp_update (Option.map Cell.obj) v.heap i (some x)
  rw [Service.table, hheap]
  exact congrArg (fun heap => (⟨w.sessions, heap, w.next, w.holders⟩ : Table PathType)) hset

/-- The service moves as its table does, or its table stays as it is. -/
def Simulated (v w : Service) : Prop := w.table = v.table ∨ SharedSlots.Step v.table w.table

theorem Simulated.refl (v : Service) : Simulated v v := Or.inl rfl

theorem Simulated.of_table {v w w' : Service} (hw : w'.table = w.table) (h : Simulated v w) : Simulated v w' := by
  rw [Simulated, hw]
  exact h

/-- A step that only the session and its owner see. -/
theorem Simulated.store {v : Service} {i : ℕ} {x x' : Cell} (h : v.heap i = some x) (hobj : x'.obj = x.obj) :
    Simulated v (v.store i x') := by
  left
  rw [table_of_store (v := v) (i := i) (x := x') rfl, hobj, Table.set, ← table_heap h, Function.update_eq_self]
  rfl

/-- A step that moves one object. -/
theorem Simulated.of_step {v w : Service} {i : ℕ} {x : Cell} (hheap : w.heap = (v.store i x).heap)
    (hstep : SharedSlots.Step v.table
      { v.table.set i x.obj with slots := w.sessions, next := w.next, borrowed := w.holders }) : Simulated v w := by
  right
  rw [table_of_store hheap]
  exact hstep

theorem allocSession_simulated (path : PathType) (v : Service) : Simulated v (allocSession path v) :=
  .of_step (v := v) (i := v.next) rfl (.alloc v.table path)

section
variable {v : Service} {i : ℕ} {x : Cell} (h : v.heap i = some x)

include h in
theorem registerSession_simulated (ho : x.owner = .allocated) : Simulated v (registerSession v i x) := by
  have hstage : x.obj.stage = .fresh := congrArg Owner.stage ho
  unfold registerSession
  cases hslot : v.sessions x.session.port with
  | none => exact .of_step (v := v) (i := i) rfl (.enter (table_heap h) hstage hslot)
  | some j => exact .of_step (v := v) (i := i) rfl (.refuse (table_heap h) hstage hslot)

theorem afterSend_stage (s : Session) (op : Opcode) (ret : ℤ) : (afterSend s op ret).stage = .resident := by
  unfold afterSend
  cases op with
  | create => split_ifs <;> rfl
  | destroy => rfl
  | command n => rfl

include h in
theorem moved_simulated {ch : Choice} {w : Service} (hm : Moved v i x ch w) : Simulated v w := by
  -- inside `q6voice_common_send` and around it the session stays in its slot
  have hobj : ∀ {x' : Cell}, x'.session.port = x.session.port → x'.session.refcount = x.session.refcount →
      x'.freed = x.freed → x'.owner.stage = x.owner.stage → x'.obj = x.obj := by
    intro x' hport hcount hfreed hstage
    rw [Cell.obj, Cell.obj, hport, hcount, hfreed, hstage]
  have hstage : ∀ {o o' : Owner}, x.owner = o → o.stage = .resident → o'.stage = .resident →
      o'.stage = x.owner.stage := fun ho hs hs' => by rw [ho, hs, hs']
  cases hm with
  | stays ch => exact .refl v
  | register ho => exact registerSession_simulated h ho
  | expect op ho => exact .store h (hobj rfl rfl rfl (hstage ho rfl rfl))
  | transmit hdr ho =>
      refine .of_table (w := v.store i { x with owner := .wait ⟨hdr, v.serial, i⟩ }) rfl ?_
      exact .store h (hobj rfl rfl rfl (hstage ho rfl rfl))
  | sendFails hdr ret ho hret => exact .store h (hobj rfl rfl rfl (hstage ho rfl rfl))
  | wake c ho hop => exact .store h (hobj rfl rfl rfl (hstage ho rfl rfl))
  | timeout c ho hop => exact .store h (hobj rfl rfl rfl (hstage ho rfl rfl))
  | clear c ho =>
      refine .of_table (w := v.store i { x with
        session := { x.session with expectedOpcode := none }
        owner := .returned c.opcode (-ETIMEDOUT) }) rfl ?_
      exact .store h (hobj rfl rfl rfl (hstage ho rfl rfl))
  | read c ret ho hret =>
      refine .of_table (w := v.store i { x with owner := .returned c.opcode ret }) rfl ?_
      exact .store h (hobj rfl rfl rfl (hstage ho rfl rfl))
  | resume op ret ho => exact .store h (hobj rfl rfl rfl (hstage ho rfl (afterSend_stage _ op ret)))
  | command n ho => exact .store h (hobj rfl rfl rfl (hstage ho rfl rfl))
  | release ho => exact .store h (hobj rfl rfl rfl (hstage ho rfl rfl))
  | destroy ho hh => exact .store h (hobj rfl rfl rfl (hstage ho rfl rfl))
  | leave ho hh => exact .store h (hobj rfl rfl rfl (hstage ho rfl rfl))
  | unregister ho => exact .of_step (v := v) (i := i) rfl (.retire (table_heap h) (congrArg Owner.stage ho))
  | put ho => exact .of_step (v := v) (i := i) rfl (.drop (table_heap h) (congrArg Owner.stage ho))

end

theorem sessionCallback_kept (data : Packet) (s : Session) :
    (q6voiceSessionCallback data s).port = s.port ∧ (q6voiceSessionCallback data s).refcount = s.refcount := by
  unfold q6voiceSessionCallback
  dsimp only
  split_ifs <;> exact ⟨rfl, rfl⟩

theorem found_simulated {data : Packet} {answers : Option Command} {v w : Service} (hf : Found data answers v w) :
    Simulated v w := by
  cases hf with
  | dropped hslot => exact .refl v
  | found path i x hport hslot hx =>
      have hholders : ({ v.store i (krefGet x) with callbacks := v.callbacks ++ [⟨i, data, answers, false⟩] } :
          Service).holders = Function.update v.holders i (v.holders i + 1) := by
        funext j
        simp only [Service.holders, List.countP_append, List.countP_singleton, Function.update_apply]
        by_cases hj : j = i
        · simp [hj]
        · simp [hj, Ne.symm hj]
      refine .of_step (v := v) (i := i) (x := krefGet x) rfl ?_
      rw [hholders]
      exact .borrow (t := v.table) (k := path) hslot (table_heap hx)

theorem handled_simulated {v w : Service} (hh : Handled v w) : Simulated v w := by
  cases hh with
  | stays => exact .refl v
  | handled l r cb x hcb hh hx =>
      obtain ⟨hport, hcount⟩ := sessionCallback_kept cb.data x.session
      refine .of_table (w := v.store cb.session { x with session := q6voiceSessionCallback cb.data x.session }) ?_ ?_
      · have hholders : ∀ i, (l ++ { cb with handled := true } :: r).countP (·.session = i) =
            v.callbacks.countP (·.session = i) := by
          intro i
          rw [hcb, List.countP_append, List.countP_append, List.countP_cons, List.countP_cons]
        exact congrArg (fun n => (⟨_, _, _, n⟩ : Table PathType)) (funext hholders)
      · refine .store hx ?_
        rw [Cell.obj, Cell.obj, hport, hcount]
  | finished l r cb x hcb hh hx =>
      have hone : v.holders cb.session = (l ++ r).countP (·.session = cb.session) + 1 := by
        rw [Service.holders, hcb, List.countP_append, List.countP_append, List.countP_cons, decide_eq_true rfl]
        rfl
      have hholders : ({ v.store cb.session (krefPut x) with callbacks := l ++ r } : Service).holders =
          Function.update v.holders cb.session (v.holders cb.session - 1) := by
        funext j
        by_cases hj : j = cb.session
        · rw [hj, Function.update_self, hone]
          rfl
        · rw [Function.update_of_ne hj, Service.holders, Service.holders, hcb, List.countP_append,
            List.countP_append, List.countP_cons, decide_eq_false (Ne.symm hj)]
          rfl
      have hheld : v.holders cb.session ≠ 0 := by
        rw [hone]
        exact Nat.succ_ne_zero _
      refine .of_step (v := v) (i := cb.session) (x := krefPut x) rfl ?_
      rw [hholders]
      exact .giveBack (t := v.table) (table_heap hx) hheld

theorem dspAnswer_table (c : Command) (status : BitVec 32) (srcPort : BitVec 16) (v : Service) :
    (dspAnswer c status srcPort v).table = v.table := by
  obtain ⟨hsessions, hheap, hnext, hcallbacks, -⟩ := dspAnswer_kept c status srcPort v
  have hholders : (dspAnswer c status srcPort v).holders = v.holders := by
    funext i
    rw [Service.holders, hcallbacks, Service.holders]
  rw [Service.table, hsessions, hheap, hnext, hholders, Service.table]

/-- Every step of the service is one of its table, or none. -/
theorem step_simulated (v : Service) (a : Action) : Simulated v (step v a) := by
  cases a with
  | create path => exact allocSession_simulated path v
  | own i ch =>
      rw [step]
      cases hx : v.heap i with
      | none => exact .refl v
      | some x => exact moved_simulated hx (ownerStep_moved ch v i x)
  | reply status srcPort =>
      rw [step, dspReply]
      cases hq : v.unanswered with
      | nil => exact .refl v
      | cons c rest =>
          have hfound := found_simulated (lookupSession_found (c.reply status srcPort) (some c)
            (dspAnswer c status srcPort v))
          rw [Simulated, dspAnswer_table] at hfound
          exact hfound
  | packet data => exact found_simulated (lookupSession_found data none v)
  | handle k => exact handled_simulated (handlePacket_handled k v)
  | finish k => exact handled_simulated (finishCallback_handled k v)

theorem q6voiceCommonProbe_inv : Inv q6voiceCommonProbe.table := empty_inv

theorem step_inv {v : Service} (hv : Inv v.table) (a : Action) : Inv (step v a).table := by
  rcases step_simulated v a with h | h
  · rw [h]
    exact hv
  · exact h.inv hv

/-- The owner has yet to release the session. -/
def Owner.holds (o : Owner) : Bool := o.stage.owned

/-- Exclusive slots, and the count and the end of every session. -/
structure Counted (v : Service) : Prop where
  slot : ∀ path i, v.sessions path = some i ↔
    ∃ x, v.heap i = some x ∧ x.session.port = path ∧ x.owner.stage = .resident
  exclusive : ∀ i j x y, v.heap i = some x → v.heap j = some y → x.owner.stage = .resident →
    y.owner.stage = .resident → x.session.port = y.session.port → i = j
  busy : ∀ i j x, v.heap i = some x → x.owner = .allocated → v.sessions x.session.port = some j →
    j ≠ i ∧ (step v (.own i .proceed)).sessions = v.sessions ∧
      (step v (.own i .proceed)).heap =
        Function.update v.heap i (some { x with owner := .failed (-EBUSY), freed := x.freed + 1 })
  refcount : ∀ i x, v.heap i = some x → x.freed = 0 →
    x.session.refcount = (if x.owner.holds then 1 else 0) + v.holders i
  freed : ∀ i x, v.heap i = some x → x.freed = if x.owner.holds ∨ v.holders i ≠ 0 then 0 else 1

/-- A session stands in a slot as its object does. -/
theorem resides_iff_cell (v : Service) (path : PathType) (i : ℕ) :
    v.table.Resides path i ↔ ∃ x, v.heap i = some x ∧ x.session.port = path ∧ x.owner.stage = .resident := by
  constructor
  · rintro ⟨o, h, hport, hstage⟩
    obtain ⟨x, hx, rfl⟩ := Option.map_eq_some_iff.mp h
    exact ⟨x, hx, hport, hstage⟩
  · rintro ⟨x, hx, hport, hstage⟩
    exact ⟨x.obj, table_heap hx, hport, hstage⟩

theorem registerSession_busy {v : Service} {i j : ℕ} {x : Cell} (h : v.heap i = some x) (ho : x.owner = .allocated)
    (hslot : v.sessions x.session.port = some j) :
    step v (.own i .proceed) = v.store i { x with owner := .failed (-EBUSY), freed := x.freed + 1 } := by
  simp only [step, h, ownerStep, ho, registerSession, hslot, Option.isSome_some, if_true]

theorem counted_of_inv {v : Service} (hv : Inv v.table) : Counted v := by
  have hslot : ∀ path i, v.sessions path = some i ↔
      ∃ x, v.heap i = some x ∧ x.session.port = path ∧ x.owner.stage = .resident := fun path i =>
    (hv.slot path i).trans (resides_iff_cell v path i)
  constructor
  case slot => exact hslot
  case exclusive =>
    intro i j x y hx hy hs hs' hport
    exact hv.resident_unique ((resides_iff_cell v _ i).mpr ⟨x, hx, hport, hs⟩)
      ((resides_iff_cell v _ j).mpr ⟨y, hy, rfl, hs'⟩)
  case busy =>
    intro i j x hx ho hs
    rw [registerSession_busy hx ho hs]
    refine ⟨?_, rfl, rfl⟩
    rintro rfl
    obtain ⟨y, hy, -, hstage⟩ := (hslot _ _).mp hs
    rw [hx] at hy
    cases hy
    rw [ho] at hstage
    cases hstage
  case refcount => exact fun i x hx => (hv.counted i x.obj (table_heap hx)).total.1
  case freed => exact fun i x hx => (hv.counted i x.obj (table_heap hx)).total.2

/-- In every interleaving of creates, sends, releases and callbacks. -/
theorem sessions_counted (as : List Action) : Counted (run step q6voiceCommonProbe as) := by
  apply counted_of_inv
  exact run_keeps (I := fun v : Service => Inv v.table) (fun v a hv => step_inv hv a) q6voiceCommonProbe_inv as

end Sirius.Q6common
