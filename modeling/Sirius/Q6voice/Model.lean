import Mathlib.Logic.Function.Basic
import Mathlib.Data.Int.Order.Basic

/-!
# The voice paths, drivers/audio/q6voice/q6voice.c

One definition for each function of the file, the `goto` labels of `q6voice_path_start`
included. The mutex of a path makes every call on it one step. A session is a number,
`Env` says how the DSP and the allocator answer during one call, and the log records what
was executed. A command that fails has no effect on the DSP.
-/
namespace Sirius.Q6voice

@[simp] def ENOMEM : ℤ := 12
@[simp] def EBUSY : ℤ := 16
@[simp] def EALREADY : ℤ := 114
@[simp] def AFE_PORT_ID_QUATERNARY_MI2S_RX : ℕ := 0x1006

/-- `enum q6voice_path_type` -/
inductive PathType
  | voice
  | voip
  | volte
  | voice2
  | qchat
  | vowlan
  | voicemmode1
  | voicemmode2
  deriving DecidableEq, Repr

inductive Service
  | mvm
  | cvp
  | cvs
  deriving DecidableEq, Repr

/-- A `struct q6voice_session *`; `wild` is whatever else a variable that was never set holds. -/
inductive Ptr
  | null
  | wild
  | session (id : ℕ)
  deriving DecidableEq, Repr

inductive Cmd
  | createMvm
  | createCvs
  | createCvp (txPort rxPort : ℕ)
  | setDualControl
  | attachStream (on : Bool)
  | enable (on : Bool)
  | attach (on : Bool)
  | start (on : Bool)
  | unmute (rx : Bool)
  | startPlayback (port : ℕ)
  | stopPlayback
  deriving DecidableEq, Repr

/-- What the DSP has been told about the sessions of a path. -/
structure Dsp where
  streamAttached : Bool
  enabled : Bool
  attached : Bool
  running : Bool
  playback : Bool
  deriving DecidableEq, Repr

def Cmd.effect (d : Dsp) : Cmd → Dsp
  | .attachStream on => { d with streamAttached := on }
  | .enable on => { d with enabled := on }
  | .attach on => { d with attached := on }
  | .start on => { d with running := on }
  | .startPlayback _ => { d with playback := true }
  | .stopPlayback => { d with playback := false }
  | _ => d

/-- What was executed: the two path functions, with whether voice was running, commands, and
the ends of sessions. -/
inductive Event
  | pathStart (running : Bool)
  | pathStop (running : Bool)
  | command (c : Cmd) (target : Ptr) (ret : ℤ)
  | release (s : Ptr)
  deriving DecidableEq, Repr

/-- `struct q6voice_path_runtime`; bit 0 of `started` is playback, bit 1 capture. -/
structure Runtime where
  sessions : Service → Ptr
  started : BitVec 2

/-- A path, the slots `sessions[path]` of the three services and the DSP's view of it. -/
structure Path where
  runtime : Option Runtime
  registered : Service → Ptr
  dsp : Dsp
  nextId : ℕ
  log : List Event

/-- The module parameters. -/
structure Params where
  attachStream : Bool
  unmute : Bool
  playbackPort : ℕ
  txPort : ℕ
  requireBoth : Bool

/-- The answers during one call: zero or an error to each command, `kzalloc`, and what the
uninitialised `cvs` of `q6voice_path_start` holds. -/
structure Env where
  resp : Cmd → ℤ
  kzalloc : Bool
  stackCvs : Ptr

section
variable (prm : Params) (env : Env)

def record (e : Event) (p : Path) : Path := { p with log := p.log ++ [e] }

/-- `q6voice_common_send` of one command. -/
def send (s : Ptr) (c : Cmd) (p : Path) : Path × ℤ :=
  let ret := env.resp c
  let dsp := if ret = 0 then c.effect p.dsp else p.dsp
  (record (.command c s ret) { p with dsp }, ret)

/-- `q6voice_session_create`: the slot must be free, and is free again when the command fails. -/
def sessionCreate (svc : Service) (c : Cmd) (p : Path) : Path × Except ℤ Ptr :=
  if p.registered svc ≠ .null then (p, .error (-EBUSY))
  else
    let s := Ptr.session p.nextId
    let p := { p with nextId := p.nextId + 1 }
    let (p, ret) := send env s c p
    if ret ≠ 0 then (p, .error ret)
    else ({ p with registered := Function.update p.registered svc s }, .ok s)

/-- `q6voice_session_release` -/
def sessionRelease (svc : Service) (s : Ptr) (p : Path) : Path :=
  record (.release s) { p with registered := Function.update p.registered svc .null }

def Path.session (p : Path) (svc : Service) : Ptr :=
  match p.runtime with
  | some runtime => runtime.sessions svc
  | none => .null

def Path.setSession (p : Path) (svc : Service) (s : Ptr) : Path :=
  { p with runtime := p.runtime.map fun r => { r with sessions := Function.update r.sessions svc s } }

def Path.started (p : Path) : BitVec 2 :=
  match p.runtime with
  | some runtime => runtime.started
  | none => 0

def Path.setStarted (p : Path) (started : BitVec 2) : Path :=
  { p with runtime := p.runtime.map fun r => { r with started } }

/-- The first rung of `q6voice_path_start`: the MVM session, created under dual control. -/
def openMvm (p : Path) : Path × Except ℤ Ptr :=
  let mvm := p.session .mvm
  if mvm ≠ .null then (p, .ok mvm)
  else
    match sessionCreate env .mvm .createMvm p with
    | (p, .error ret) => (p, .error ret)
    | (p, .ok mvm) =>
        let (p, ret) := send env mvm .setDualControl p
        if ret ≠ 0 then (sessionRelease .mvm mvm p, .error ret)
        else (p.setSession .mvm mvm, .ok mvm)

/-- The session of a service, created where the runtime has none. -/
def openSession (svc : Service) (c : Cmd) (p : Path) : Path × Except ℤ Ptr :=
  let s := p.session svc
  if s ≠ .null then (p, .ok s)
  else
    match sessionCreate env svc c p with
    | (p, .error ret) => (p, .error ret)
    | (p, .ok s) => (p.setSession svc s, .ok s)

def openCvs (p : Path) : Path × Except ℤ Ptr := openSession env .cvs .createCvs p

def openCvp (p : Path) : Path × Except ℤ Ptr :=
  openSession env .cvp (.createCvp prm.txPort AFE_PORT_ID_QUATERNARY_MI2S_RX) p

/-- The second rung: with `attach_stream`, a stream of our own; without, `cvs` is never set. -/
def openStream (mvm : Ptr) (p : Path) : Path × Except ℤ Ptr :=
  if prm.attachStream then
    match openCvs env p with
    | (p, .error ret) => (p, .error ret)
    | (p, .ok cvs) =>
        let (p, ret) := send env mvm (.attachStream true) p
        if ret ≠ 0 then (p, .error ret) else (p, .ok cvs)
  else (p, .ok env.stackCvs)

def cvpErr (cvp : Ptr) (p : Path) (ret : ℤ) : Path × ℤ := ((send env cvp (.enable false) p).1, ret)

def attachErr (mvm cvp : Ptr) (p : Path) (ret : ℤ) : Path × ℤ :=
  cvpErr env cvp (send env mvm (.attach false) p).1 ret

def startErr (mvm cvp : Ptr) (p : Path) (ret : ℤ) : Path × ℤ :=
  attachErr env mvm cvp (send env mvm (.start false) p).1 ret

/-- `q6cvp_set_mute(cvp, false)`: transmit, then receive. -/
def unmuteBoth (cvp : Ptr) (p : Path) : Path :=
  let (p, ret) := send env cvp (.unmute false) p
  if ret ≠ 0 then p else (send env cvp (.unmute true) p).1

/-- What follows once voice has started; nothing here is fatal. -/
def audible (cvs cvp : Ptr) (p : Path) : Path :=
  let p := if prm.unmute then unmuteBoth env cvp p else p
  if prm.playbackPort ≠ 0 ∧ cvs ≠ .null then (send env cvs (.startPlayback prm.playbackPort) p).1 else p

/-- The last rungs, with their unwinding. -/
def bringUp (mvm cvs cvp : Ptr) (p : Path) : Path × ℤ :=
  let (p, ret) := send env cvp (.enable true) p
  if ret ≠ 0 then cvpErr env cvp p ret
  else
    let (p, ret) := send env mvm (.attach true) p
    if ret ≠ 0 then attachErr env mvm cvp p ret
    else
      let (p, ret) := send env mvm (.start true) p
      if ret ≠ 0 then startErr env mvm cvp p ret
      else (audible prm env cvs cvp p, 0)

def q6voicePathStart (p : Path) : Path × ℤ :=
  let p := record (.pathStart p.dsp.running) p
  match openMvm env p with
  | (p, .error ret) => (p, ret)
  | (p, .ok mvm) =>
      match openStream prm env mvm p with
      | (p, .error ret) => (p, ret)
      | (p, .ok cvs) =>
          match openCvp prm env p with
          | (p, .error ret) => (p, ret)
          | (p, .ok cvp) => bringUp prm env mvm cvs cvp p

/-- `BIT(capture)` -/
def bit (capture : Bool) : BitVec 2 := 1#2 <<< capture.toNat

/-- The directions after a change are enough for the session to run. -/
def wanted (started : BitVec 2) : Bool :=
  if prm.requireBoth then decide (started = 3) else decide (started &&& bit false ≠ 0)

/-- `kzalloc` of the runtime, where there is none. -/
def ensureRuntime (p : Path) : Option Path :=
  if p.runtime.isSome then some p
  else if env.kzalloc then some { p with runtime := some ⟨fun _ => .null, 0⟩ }
  else none

/-- `q6voice_start` from where the direction has been marked. -/
def startMarked (capture : Bool) (p : Path) : Path × ℤ :=
  if wanted prm p.started then
    let (p, ret) := q6voicePathStart prm env p
    if ret ≠ 0 then (p.setStarted (p.started &&& ~~~bit capture), ret) else (p, 0)
  else (p, 0)

/-- `q6voice_start` on its path. -/
def startPath (capture : Bool) (p : Path) : Path × ℤ :=
  match ensureRuntime env p with
  | none => (p, -ENOMEM)
  | some p =>
      if p.started &&& bit capture ≠ 0 then (p, -EALREADY)
      else startMarked prm env capture (p.setStarted (p.started ||| bit capture))

def q6voicePathStop (p : Path) : Path :=
  let mvm := p.session .mvm
  let cvs := p.session .cvs
  let cvp := p.session .cvp
  let p := record (.pathStop p.dsp.running) p
  let p := if prm.playbackPort ≠ 0 ∧ cvs ≠ .null then (send env cvs .stopPlayback p).1 else p
  let p := (send env mvm (.start false) p).1
  let p := (send env mvm (.attach false) p).1
  let p := (send env cvp (.enable false) p).1
  -- there is only a stream to detach if we were the one who attached it
  if cvs ≠ .null then (send env mvm (.attachStream false) p).1 else p

/-- The body of the loop of `q6voice_path_destroy`. -/
def releaseService (svc : Service) (p : Path) : Path :=
  if p.session svc ≠ .null then sessionRelease svc (p.session svc) p else p

def q6voicePathDestroy (p : Path) : Path :=
  { releaseService .cvs (releaseService .cvp (releaseService .mvm p)) with runtime := none }

/-- `q6voice_stop` on its path; it always returns zero. -/
def stopPath (capture : Bool) (p : Path) : Path :=
  if p.started &&& bit capture = 0 then p
  else
    let p := if wanted prm p.started then q6voicePathStop prm env p else p
    let p := p.setStarted (p.started &&& ~~~bit capture)
    if p.started = 0 then q6voicePathDestroy p else p

/-- The body of the loop of `q6voice_free`. -/
def freePath (p : Path) : Path :=
  if p.runtime.isSome then
    q6voicePathDestroy (if p.started = 3 then q6voicePathStop prm env p else p)
  else p

end

abbrev Paths := PathType → Path

/-- A path of a freshly created device. -/
def newPath : Path where
  runtime := none
  registered := fun _ => .null
  dsp := ⟨false, false, false, false, false⟩
  nextId := 0
  log := []

def q6voiceCreate : Paths := fun _ => newPath

def q6voiceStart (prm : Params) (env : Env) (v : Paths) (path : PathType) (capture : Bool) : Paths × ℤ :=
  let (p, ret) := startPath prm env capture (v path)
  (Function.update v path p, ret)

def q6voiceStop (prm : Params) (env : Env) (v : Paths) (path : PathType) (capture : Bool) : Paths :=
  Function.update v path (stopPath prm env capture (v path))

/-- `q6voice_free`, with the answers each path gets. -/
def q6voiceFree (prm : Params) (env : PathType → Env) (v : Paths) : Paths :=
  fun path => freePath prm (env path) (v path)

end Sirius.Q6voice
