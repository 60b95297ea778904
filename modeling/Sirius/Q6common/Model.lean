import Sirius.Q6voice.Model

/-!
# One voice service, drivers/audio/q6voice/q6voice-common.c

A service with its slots, the sessions ever allocated, the threads that own them and the
callbacks in progress. A step is one region under a lock, one access between two of them,
or one packet; threads take their steps in any order. The log, `freed` and the commands
that replies answer are not state of the driver: they say what happened.
-/
namespace Sirius.Q6common
open Q6voice (PathType EBUSY)

@[simp] def EIO : ℤ := 5
@[simp] def ETIMEDOUT : ℤ := 110

def port : PathType → ℕ
  | .voice => 0
  | .voip => 1
  | .volte => 2
  | .voice2 => 3
  | .qchat => 4
  | .vowlan => 5
  | .voicemmode1 => 6
  | .voicemmode2 => 7

/-- The path of a port below `Q6VOICE_PATH_COUNT`. -/
def ofPort : ℕ → Option PathType
  | 0 => some .voice
  | 1 => some .voip
  | 2 => some .volte
  | 3 => some .voice2
  | 4 => some .qchat
  | 5 => some .vowlan
  | 6 => some .voicemmode1
  | 7 => some .voicemmode2
  | _ => none

@[simp] theorem ofPort_port (path : PathType) : ofPort (port path) = some path := by
  cases path <;> rfl

/-- The opcodes of a service: the one that creates a session, `APRV2_IBASIC_CMD_DESTROY_SESSION`
and the others. They differ and none is zero; where the code has a zero, `none` stands for it. -/
inductive Opcode
  | create
  | destroy
  | command (n : ℕ)
  deriving DecidableEq, Repr

structure Header where
  opcode : Opcode
  srcPort : ℕ
  destPort : BitVec 16
  token : ℕ
  deriving DecidableEq, Repr

/-- A command the DSP has been sent: its place among all of them, and the session. -/
structure Command extends Header where
  serial : ℕ
  session : ℕ
  deriving DecidableEq, Repr

/-- A `struct apr_resp_pkt`; `basic` says that its opcode is `APR_BASIC_RSP_RESULT`. -/
structure Packet where
  basic : Bool
  srcPort : BitVec 16
  destPort : ℕ
  token : ℕ
  opcode : Option Opcode
  status : BitVec 32
  deriving DecidableEq, Repr

structure Session where
  refcount : ℕ
  port : PathType
  handle : BitVec 16
  expectedOpcode : Option Opcode
  result : BitVec 32
  deriving DecidableEq, Repr

/-- Where the owner of a session is, from `kzalloc` in `q6voice_session_create` to the end of
`q6voice_session_release`; inside `q6voice_common_send` it has the opcode it sends. -/
inductive Owner
  | allocated
  | failed (ret : ℤ)
  | send (op : Opcode)
  | transmit (h : Header)
  | wait (c : Command)
  | timedOut (c : Command)
  | woken (c : Command)
  | returned (op : Opcode) (ret : ℤ)
  | holding
  | releasing
  | unregistering
  | putting
  | done
  deriving DecidableEq, Repr

structure Cell where
  session : Session
  owner : Owner
  freed : ℕ
  deriving DecidableEq, Repr

/-- A callback between its `kref_get` and its `kref_put`. -/
structure Callback where
  session : ℕ
  data : Packet
  answers : Option Command
  handled : Bool
  deriving DecidableEq, Repr

inductive Event
  | sent (c : Command)
  | arrived (c : Command) (status : BitVec 32)
  | allocated (c : Command) (handle : BitVec 16)
  | returned (c : Command) (ret : ℤ)
  deriving DecidableEq, Repr

/-- A `struct q6voice_service` with its surroundings; `unanswered` is what the DSP has yet to reply to. -/
structure Service where
  sessions : PathType → Option ℕ
  heap : ℕ → Option Cell
  next : ℕ
  callbacks : List Callback
  unanswered : List Command
  serial : ℕ
  log : List Event

def q6voiceCommonProbe : Service where
  sessions := fun _ => none
  heap := fun _ => none
  next := 0
  callbacks := []
  unanswered := []
  serial := 0
  log := []

def Service.store (v : Service) (i : ℕ) (x : Cell) : Service := { v with heap := Function.update v.heap i (some x) }

def Service.record (v : Service) (e : Event) : Service := { v with log := v.log ++ [e] }

def krefGet (x : Cell) : Cell := { x with session := { x.session with refcount := x.session.refcount + 1 } }

def krefPut (x : Cell) : Cell :=
  { x with
    session := { x.session with refcount := x.session.refcount - 1 }
    freed := if x.session.refcount = 1 then x.freed + 1 else x.freed }

/-- `kzalloc` and the initialisation in `q6voice_session_create`. -/
def allocSession (path : PathType) (v : Service) : Service :=
  { v.store v.next ⟨⟨1, path, 0, none, 0⟩, .allocated, 0⟩ with next := v.next + 1 }

/-- The test of the slot in `q6voice_session_create`, under the lock of the service. -/
def registerSession (v : Service) (i : ℕ) (x : Cell) : Service :=
  if (v.sessions x.session.port).isSome then v.store i { x with owner := .failed (-EBUSY), freed := x.freed + 1 }
  else { v.store i { x with owner := .send .create } with
    sessions := Function.update v.sessions x.session.port (some i) }

/-- The header, and what is expected, in `q6voice_common_send`. -/
def expectReply (op : Opcode) (x : Cell) : Cell :=
  { x with
    session := { x.session with expectedOpcode := some op, result := 0 }
    owner := .transmit ⟨op, port x.session.port, x.session.handle, 0⟩ }

/-- `apr_send_pkt`, where it succeeds. -/
def sendPacket (h : Header) (v : Service) (i : ℕ) (x : Cell) : Service :=
  let c : Command := ⟨h, v.serial, i⟩
  { (v.store i { x with owner := .wait c }).record (.sent c) with
    serial := v.serial + 1
    unanswered := v.unanswered ++ [c] }

/-- Where `q6voice_common_send` returns to, with what its caller tests. -/
def afterSend (s : Session) (op : Opcode) (ret : ℤ) : Owner :=
  match op with
  | .create => if ret ≠ 0 then .releasing else if s.handle = 0 then .releasing else .holding
  | .destroy => .unregistering
  | .command _ => .holding

/-- The end of the slot in `q6voice_session_release`, under the lock of the service. -/
def unregisterSession (v : Service) (i : ℕ) (x : Cell) : Service :=
  { v.store i { x with owner := .putting } with
    sessions := if v.sessions x.session.port = some i then Function.update v.sessions x.session.port none
      else v.sessions }

inductive Choice
  | proceed
  | sendFails (ret : ℤ)
  | timeout
  | command (n : ℕ)
  | release
  deriving DecidableEq, Repr

/-- One step of the owner of session `i`; it stays where it is if it cannot take it. -/
def ownerStep (ch : Choice) (v : Service) (i : ℕ) (x : Cell) : Service :=
  match x.owner, ch with
  | .allocated, .proceed => registerSession v i x
  | .send op, .proceed => v.store i (expectReply op x)
  | .transmit h, .proceed => sendPacket h v i x
  | .transmit h, .sendFails ret => if ret < 0 then v.store i { x with owner := .returned h.opcode ret } else v
  -- `wait_event_timeout` on the opcode
  | .wait c, .proceed => if x.session.expectedOpcode = none then v.store i { x with owner := .woken c } else v
  | .wait c, .timeout => if x.session.expectedOpcode = none then v else v.store i { x with owner := .timedOut c }
  | .timedOut c, .proceed =>
      (v.store i { x with
        session := { x.session with expectedOpcode := none }
        owner := .returned c.opcode (-ETIMEDOUT) }).record (.returned c (-ETIMEDOUT))
  | .woken c, .proceed =>
      let ret := if x.session.result ≠ 0 then - EIO else 0
      (v.store i { x with owner := .returned c.opcode ret }).record (.returned c ret)
  | .returned op ret, .proceed => v.store i { x with owner := afterSend x.session op ret }
  | .holding, .command n => v.store i { x with owner := .send (.command n) }
  | .holding, .release => v.store i { x with owner := .releasing }
  | .releasing, .proceed =>
      v.store i { x with owner := if x.session.handle ≠ 0 then .send .destroy else .unregistering }
  | .unregistering, .proceed => unregisterSession v i x
  | .putting, .proceed => v.store i { krefPut x with owner := .done }
  | _, _ => v

def q6voiceSessionCallback (data : Packet) (s : Session) : Session :=
  if data.basic = false then s
  else if data.opcode ≠ s.expectedOpcode then s
  else
    let handle := if s.handle = 0 then data.srcPort else s.handle
    if handle ≠ data.srcPort then s
    else { s with handle, result := data.status, expectedOpcode := none }

/-- The lookup in `q6voice_common_callback`, under the lock of the service. -/
def lookupSession (data : Packet) (answers : Option Command) (v : Service) : Service :=
  match (ofPort data.destPort).bind v.sessions with
  | none => v
  | some i =>
      match v.heap i with
      | none => v
      | some x => { v.store i (krefGet x) with callbacks := v.callbacks ++ [⟨i, data, answers, false⟩] }

/-- The reply to a command, with the token and opcode it carried. -/
def Command.reply (c : Command) (status : BitVec 32) (srcPort : BitVec 16) : Packet :=
  ⟨true, srcPort, c.srcPort, c.token, some c.opcode, status⟩

/-- The DSP answers a command; a session it creates has its handle in the reply. -/
def dspAnswer (c : Command) (status : BitVec 32) (srcPort : BitVec 16) (v : Service) : Service :=
  let v := { v with unanswered := v.unanswered.tail }
  let v := if c.opcode = .create ∧ status = 0 ∧ srcPort ≠ 0 then v.record (.allocated c srcPort) else v
  v.record (.arrived c status)

/-- The reply to the first command the DSP has not answered. -/
def dspReply (status : BitVec 32) (srcPort : BitVec 16) (v : Service) : Service :=
  match v.unanswered with
  | [] => v
  | c :: _ => lookupSession (c.reply status srcPort) (some c) (dspAnswer c status srcPort v)

def handlePacket (k : ℕ) (v : Service) : Service :=
  match v.callbacks[k]? with
  | none => v
  | some cb =>
      if cb.handled then v
      else
        match v.heap cb.session with
        | none => v
        | some x => { v.store cb.session { x with session := q6voiceSessionCallback cb.data x.session } with
            callbacks := v.callbacks.set k { cb with handled := true } }

/-- The `kref_put` at the end of `q6voice_common_callback`. -/
def finishCallback (k : ℕ) (v : Service) : Service :=
  match v.callbacks[k]? with
  | none => v
  | some cb =>
      if cb.handled then
        match v.heap cb.session with
        | none => v
        | some x => { v.store cb.session (krefPut x) with callbacks := v.callbacks.eraseIdx k }
      else v

inductive Action
  | create (path : PathType)
  | own (i : ℕ) (ch : Choice)
  | reply (status : BitVec 32) (srcPort : BitVec 16)
  | packet (data : Packet)
  | handle (k : ℕ)
  | finish (k : ℕ)
  deriving DecidableEq, Repr

def step (v : Service) : Action → Service
  | .create path => allocSession path v
  | .own i ch =>
      match v.heap i with
      | none => v
      | some x => ownerStep ch v i x
  | .reply status srcPort => dspReply status srcPort v
  | .packet data => lookupSession data none v
  | .handle k => handlePacket k v
  | .finish k => finishCallback k v

end Sirius.Q6common
