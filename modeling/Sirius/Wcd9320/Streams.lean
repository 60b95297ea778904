import Sirius.Wcd9320.Controls

/-!
# A stream starts and stops

`wcd9320_trigger`, the power events of the AIF widgets and the controls, in any order with
`wcd9320_hw_params`. hw_params configures the ports of the channel list as it is then; the trigger that
stops a stream walks the list as it is by that time.
-/
namespace Sirius.Wcd9320
open ListHead Runs

abbrev RX1 : Fin 7 := 0

inductive TriggerCmd
  | stop
  | start
  | pausePush
  | pauseRelease
  | suspend
  | resume
  deriving DecidableEq, Repr

def TriggerCmd.Starts (cmd : TriggerCmd) : Prop := cmd = .start ∨ cmd = .resume ∨ cmd = .pauseRelease

instance : DecidablePred TriggerCmd.Starts := fun cmd => inferInstanceAs (Decidable (cmd = _ ∨ cmd = _ ∨ cmd = _))

/-- The module parameters `keep_stream` and `disable_ports_on_stop`. -/
structure Params where
  keepStream : Bool
  disablePortsOnStop : Bool

def streaming : Params := ⟨false, true⟩

/-- What the SLIMbus core answers to a trigger. -/
structure TriggerEnv extends Env where
  slimStreamPrepare : ℤ
  slimStreamEnable : ℤ

def Device.setStreamUp (dev : Device) (dai : Dai) (up : Bool) : Device :=
  { dev with dai := Function.update dev.dai dai { dev.dai dai with streamUp := up } }

def wcd9320Trigger (env : TriggerEnv) (params : Params) (fuel : ℕ) (dev : Device) (dai : Dai) (stream : Stream)
    (cmd : TriggerCmd) : Option (Device × ℤ) :=
  if (dev.dai dai).sruntime = false then some (dev, 0)
  else
    match cmd with
    | .start | .resume | .pauseRelease =>
        if params.keepStream && (dev.dai dai).streamUp then some (dev, 0)
        else if env.slimStreamPrepare ≠ 0 then some (dev, env.slimStreamPrepare)
        else if env.slimStreamEnable ≠ 0 then some (dev, env.slimStreamEnable)
        else some (dev.setStreamUp dai true, 0)
    | .stop | .suspend | .pausePush =>
        if params.keepStream then some (dev, 0)
        else
          let dev := dev.setStreamUp dai false
          if params.disablePortsOnStop then do
            let dev ← wcd9320SlimPortsDisable env.toEnv fuel dev dai stream
            some (dev, 0)
          else some (dev, 0)

inductive DapmEvent
  | postPmu
  | postPmd
  deriving DecidableEq, Repr

def taikoCodecEnableSlimrx (dev : Device) (dai : Dai) : DapmEvent → Device
  | .postPmu => dev
  | .postPmd => dev.freeChs dai

def taikoCodecEnableSlimtx (dev : Device) (dai : Dai) (event : DapmEvent) : Device :=
  if event = .postPmd then dev.freeChs dai else dev

def Dai.stream : Dai → Stream
  | .aif1Pb | .aif2Pb | .aif3Pb => .playback
  | _ => .capture

/-- The event function of the AIF widget of an interface; those of AIF4 leave the channels alone. -/
def widgetEvent (dev : Device) (dai : Dai) (event : DapmEvent) : Device :=
  match dai with
  | .aif1Pb | .aif2Pb | .aif3Pb => taikoCodecEnableSlimrx dev dai event
  | .aif1Cap | .aif2Cap | .aif3Cap => taikoCodecEnableSlimtx dev dai event
  | .aif4Vifeed | .aif4MadTx => dev

def channels (wcd : Codec) (dai : Dai) : List SlimCh :=
  ((listForEachEntry wcd.links (.dai dai) collect WALK []).getD []).filterMap wcd.ch

/-- The configuration register of a slave port. -/
def portCfg : Stream → ℕ → ℕ
  | .playback, port => WCD9320_SLIM_PGD_RX_PORT_CFG port
  | .capture, port => WCD9320_SLIM_PGD_TX_PORT_CFG port

def portCfgs : List ℕ :=
  (List.finRange WCD9320_RX_MAX).map (fun p => portCfg .playback (slimRxCh p).port) ++
    (List.finRange WCD9320_TX_MAX).map fun p => portCfg .capture (slimTxCh p).port

def Enabled (dev : Device) (reg : ℕ) : Prop := (dev.ifRegmap reg).testBit 0 = true

instance (dev : Device) : DecidablePred (Enabled dev) := fun _ => inferInstanceAs (Decidable (_ = _))

def payload (chans : List SlimCh) : BitVec 16 := chans.foldl (fun payload ch => payload ||| 1#16 <<< ch.shift) 0

def configWrites (direction : Stream) (chans : List SlimCh) : List (ℕ × ℕ) :=
  chans.flatMap fun ch => portWrites direction (payload chans) ch.port

/-- Of writes in sequence, from the `n`th to the interface device on, those before the first that fails. -/
def written (env : Env) : ℕ → List (ℕ × ℕ) → List (ℕ × ℕ)
  | _, [] => []
  | n, w :: ws => if env.regmapWrite n < 0 then [] else w :: written env (n + 1) ws

/-- Of writes that go on behind a failed one, those that do not fail. -/
def landed (env : Env) : ℕ → List (ℕ × ℕ) → List (ℕ × ℕ)
  | _, [] => []
  | n, w :: ws => if env.regmapWrite n < 0 then landed env (n + 1) ws else w :: landed env (n + 1) ws

def applyWrites (regs : ℕ → ℕ) (ws : List (ℕ × ℕ)) : ℕ → ℕ :=
  ws.foldl (fun regs w => Function.update regs w.1 w.2) regs

def hwParamsWrites (env : Env) (dev : Device) (dai : Dai) (rate : ℕ) : List (ℕ × ℕ) :=
  if rate ∈ rates ∧ env.kcalloc = true then
    written env dev.ifWrites (configWrites dai.stream (channels dev.wcd dai))
  else []

def hwParamsEnables (env : Env) (dev : Device) (dai : Dai) (rate : ℕ) : List ℕ :=
  ((hwParamsWrites env dev dai rate).map Prod.fst).filter (· ∈ portCfgs)

def stopDisables (env : Env) (dev : Device) (dai : Dai) : List ℕ :=
  (landed env dev.ifWrites ((channels dev.wcd dai).map fun ch => (portCfg dai.stream ch.port, SLAVE_PORT_DISABLE))).map
    Prod.fst

/-- The device, and for each interface the ports that its hw_params has enabled since its last STOP, the
channel numbers of its most recent successful hw_params, and whether what that wrote is still there. -/
structure StreamState where
  dev : Device
  enabled : Dai → List ℕ
  numbers : Dai → List ℕ
  current : Dai → Bool

inductive StreamAct
  | write (w : Write)
  | hwParams (dai : Dai) (rate : ℕ) (env : Env)
  | trigger (dai : Dai) (cmd : TriggerCmd) (env : TriggerEnv)
  | widget (dai : Dai) (event : DapmEvent)

/-- A callback that faults is not returned from. -/
def streamStep (params : Params) (state : StreamState) : StreamAct → StreamState
  | .write w =>
      match put state.dev.wcd w with
      | some wcd => { state with dev := { state.dev with wcd } }
      | none => state
  | .hwParams dai rate env =>
      match wcd9320HwParams env WALK state.dev dai dai.stream rate with
      | some (dev, ret) =>
          { dev
            enabled := Function.update state.enabled dai
              (state.enabled dai ++ hwParamsEnables env state.dev dai rate)
            numbers := if ret = 0 then
              Function.update state.numbers dai ((channels state.dev.wcd dai).map SlimCh.chNum) else state.numbers
            current := if rate ∈ rates then Function.update state.current dai (ret = 0) else state.current }
      | none => state
  | .trigger dai cmd env =>
      match wcd9320Trigger env params WALK state.dev dai dai.stream cmd with
      | some (dev, _) =>
          { state with
            dev
            enabled := if cmd = .stop then Function.update state.enabled dai [] else state.enabled }
      | none => state
  | .widget dai event =>
      { state with
        dev := widgetEvent state.dev dai event
        current := if event = .postPmd ∧ (dai.IsPlayback ∨ dai.IsCapture) then
          Function.update state.current dai false else state.current }

def configAlloc : SlimStreamConfig where
  rate := 0
  bps := 0
  chCount := 0
  chs := none
  portMask := 0
  direction := .playback

/-- The codec registered, no stream configured, the registers of the interface device as they are found. -/
def streamRegistered (regmap : ℕ → BitVec 8) (ifRegmap : ℕ → ℕ) : StreamState where
  dev :=
    { wcd := registered
      dai := fun _ => ⟨false, configAlloc, false⟩
      regmap
      ifRegmap
      ifWrites := 0 }
  enabled := fun _ => []
  numbers := fun _ => []
  current := fun _ => false

section
variable (env : Env)

theorem written_append (n : ℕ) (as bs : List (ℕ × ℕ)) :
    written env n (as ++ bs) =
      if written env n as = as then as ++ written env (n + as.length) bs else written env n as := by
  induction as generalizing n with
  | nil => rfl
  | cons a as ih =>
      rw [List.cons_append, written, written]
      by_cases hfail : env.regmapWrite n < 0
      · simp [hfail]
      · simp only [hfail, if_false, ih, List.cons.injEq, true_and, List.length_cons]
        rw [show n + 1 + as.length = n + (as.length + 1) by omega]
        split <;> rfl

theorem written_sublist (n : ℕ) (ws : List (ℕ × ℕ)) : (written env n ws).Sublist ws := by
  induction ws generalizing n with
  | nil => exact List.Sublist.refl _
  | cons w ws ih =>
      rw [written]
      split
      · exact List.nil_sublist _
      · exact (ih (n + 1)).cons_cons w

theorem landed_sublist (n : ℕ) (ws : List (ℕ × ℕ)) : (landed env n ws).Sublist ws := by
  induction ws generalizing n with
  | nil => exact List.Sublist.refl _
  | cons w ws ih =>
      rw [landed]
      split
      · exact (ih (n + 1)).cons w
      · exact (ih (n + 1)).cons_cons w

theorem written_append_eq_iff (n : ℕ) (as bs : List (ℕ × ℕ)) :
    written env n (as ++ bs) = as ++ bs ↔ written env n as = as ∧ written env (n + as.length) bs = bs := by
  rw [written_append]
  split
  case isTrue h => simp [h]
  case isFalse h =>
    refine iff_of_false (fun heq => h ?_) fun hall => h hall.1
    have hlen := (written_sublist env n as).length_le
    have hbs : bs = [] := by
      rw [heq, List.length_append] at hlen
      exact List.length_eq_zero_iff.1 (by omega)
    rw [heq, hbs, List.append_nil]

/-- Writes in sequence leave what was written before the first failure. -/
theorem regmapWrites_spec (dev : Device) (ws : List (ℕ × ℕ)) :
    ∃ n, regmapWrites env dev ws =
        ({ dev with ifRegmap := applyWrites dev.ifRegmap (written env dev.ifWrites ws), ifWrites := n },
          (regmapWrites env dev ws).2) ∧
      ((regmapWrites env dev ws).2 < 0 ↔ written env dev.ifWrites ws ≠ ws) ∧
      (¬(regmapWrites env dev ws).2 < 0 → n = dev.ifWrites + ws.length) := by
  induction ws generalizing dev with
  | nil => exact ⟨dev.ifWrites, rfl, by simp [regmapWrites, written], fun _ => rfl⟩
  | cons w ws ih =>
      obtain ⟨reg, val⟩ := w
      by_cases hfail : env.regmapWrite dev.ifWrites < 0
      · refine ⟨dev.ifWrites + 1, ?_, ?_, ?_⟩
        · simp only [regmapWrites, regmapWrite, written, hfail, if_true]
          rfl
        · simp only [regmapWrites, regmapWrite, written, hfail, if_true]
          simp
        · simp only [regmapWrites, regmapWrite, hfail, if_true]
          exact fun h => absurd trivial h
      · obtain ⟨n, heq, hret, hn⟩ := ih
          { dev with ifRegmap := Function.update dev.ifRegmap reg val, ifWrites := dev.ifWrites + 1 }
        refine ⟨n, ?_, ?_, ?_⟩
        · simp only [regmapWrites, regmapWrite, written, hfail, if_false]
          exact heq
        · simp only [regmapWrites, regmapWrite, written, hfail, if_false]
          simpa using hret
        · simp only [regmapWrites, regmapWrite, hfail, if_false, List.length_cons]
          intro h
          exact (hn h).trans (by dsimp only; omega)

theorem applyWrites_append (regs : ℕ → ℕ) (as bs : List (ℕ × ℕ)) :
    applyWrites regs (as ++ bs) = applyWrites (applyWrites regs as) bs := List.foldl_append

/-- A register holds what all writes to it wrote, or what it held. -/
theorem applyWrites_apply (regs : ℕ → ℕ) {ws : List (ℕ × ℕ)} {reg val : ℕ} (h : ∀ w ∈ ws, w.1 = reg → w.2 = val) :
    applyWrites regs ws reg = if reg ∈ ws.map Prod.fst then val else regs reg := by
  induction ws generalizing regs with
  | nil => rfl
  | cons w ws ih =>
      have hrest := ih (Function.update regs w.1 w.2) fun w' hw' => h w' (List.mem_cons_of_mem _ hw')
      have hcons : applyWrites regs (w :: ws) = applyWrites (Function.update regs w.1 w.2) ws := rfl
      rw [hcons, hrest, List.map_cons]
      by_cases hmem : reg ∈ ws.map Prod.fst
      · rw [if_pos hmem, if_pos (List.mem_cons_of_mem _ hmem)]
      · by_cases hreg : reg = w.1
        · subst hreg
          rw [if_neg hmem, Function.update_self, if_pos List.mem_cons_self]
          exact h w List.mem_cons_self rfl
        · rw [if_neg hmem, Function.update_of_ne hreg, if_neg]
          rw [List.mem_cons]
          exact not_or.2 ⟨hreg, hmem⟩

/-- The interface's stream configuration has other channel numbers. -/
def Device.setChs (dev : Device) (dai : Dai) (chs : Option (List ℕ)) : Device :=
  dev.setConfig dai { (dev.dai dai).sconfig with chs }

/-- Channel numbers put into an array from `i` on. -/
def fill : List ℕ → ℕ → List ℕ → List ℕ
  | arr, _, [] => arr
  | arr, i, num :: nums => fill (arr.set i num) (i + 1) nums

theorem fill_append (front nums : List ℕ) :
    fill (front ++ List.replicate nums.length 0) front.length nums = front ++ nums := by
  induction nums generalizing front with
  | nil => rfl
  | cons num nums ih =>
      have hset : (front ++ List.replicate (nums.length + 1) 0).set front.length num =
          front ++ [num] ++ List.replicate nums.length 0 := by
        rw [List.set_append_right _ _ le_rfl, Nat.sub_self, List.replicate_succ, List.set_cons_zero,
          List.append_assoc, List.singleton_append]
      rw [fill, List.length_cons, hset]
      have hrest := ih (front ++ [num])
      rw [List.length_append, List.length_singleton] at hrest
      rw [hrest, List.append_assoc, List.singleton_append]

/-- The second walk of hw_params over these nodes: its writes up to the first that fails, and the channel
numbers of all nodes if none does. -/
theorem forEach_configureChannel (dai : Dai) (direction : Stream) (pay : BitVec 16) (wcd : Codec) (xs : List Node)
    (hxs : ∀ x ∈ xs, (wcd.ch x).isSome) (dev : Device) (hdev : dev.wcd = wcd) (i : ℕ) {r : ℤ} (hr : ¬r < 0) :
    ∃ n chs i' ret, forEach (configureChannel env dai direction pay) xs (dev, i, r) =
        some (({ dev with
          ifRegmap := applyWrites dev.ifRegmap (written env dev.ifWrites
            ((xs.filterMap wcd.ch).flatMap fun ch => portWrites direction pay ch.port))
          ifWrites := n } : Device).setChs dai chs, i', ret) ∧
      (ret < 0 ↔ written env dev.ifWrites ((xs.filterMap wcd.ch).flatMap fun ch => portWrites direction pay ch.port) ≠
        (xs.filterMap wcd.ch).flatMap fun ch => portWrites direction pay ch.port) ∧
      (¬ret < 0 →
        chs = (dev.dai dai).sconfig.chs.map fun arr => fill arr i ((xs.filterMap wcd.ch).map SlimCh.chNum)) := by
  induction xs generalizing dev i r with
  | nil =>
      refine ⟨dev.ifWrites, (dev.dai dai).sconfig.chs, i, r, ?_, by simp [written, hr], ?_⟩
      · simp [forEach, written, applyWrites, Device.setChs, Device.setConfig]
      · intro _
        cases (dev.dai dai).sconfig.chs <;> rfl
  | cons x xs ih =>
      obtain ⟨ch, hch⟩ := Option.isSome_iff_exists.1 (hxs x List.mem_cons_self)
      -- the device with the number of this channel noted, and behind the writes of its port
      let noted := dev.setChs dai ((dev.dai dai).sconfig.chs.map fun arr => arr.set i ch.chNum)
      obtain ⟨n, heq, hfails, hn⟩ := regmapWrites_spec env noted (portWrites direction pay ch.port)
      have hbody : configureChannel env dai direction pay (dev, i, r) x =
          some (if (regmapWrites env noted (portWrites direction pay ch.port)).2 < 0 then
            .done ((regmapWrites env noted (portWrites direction pay ch.port)).1, i + 1,
              (regmapWrites env noted (portWrites direction pay ch.port)).2)
            else .yield ((regmapWrites env noted (portWrites direction pay ch.port)).1, i + 1,
              (regmapWrites env noted (portWrites direction pay ch.port)).2)) := by
        simp only [configureChannel, hdev, hch]
        rfl
      rw [forEach, hbody, Option.bind_some]
      simp only [List.filterMap_cons_some hch, List.flatMap_cons, List.map_cons]
      by_cases hfail : (regmapWrites env noted (portWrites direction pay ch.port)).2 < 0
      · have hw : written env dev.ifWrites (portWrites direction pay ch.port) ≠ portWrites direction pay ch.port :=
          hfails.1 hfail
        simp only [hfail, if_true]
        refine ⟨n, (dev.dai dai).sconfig.chs.map fun arr => arr.set i ch.chNum, i + 1, _, ?_, ?_,
          fun h => absurd hfail h⟩
        · rw [heq, written_append, if_neg hw]
          rfl
        · refine iff_of_true hfail fun hall => hw ?_
          exact ((written_append_eq_iff env _ _ _).1 hall).1
      · have hw : written env dev.ifWrites (portWrites direction pay ch.port) = portWrites direction pay ch.port :=
          not_not.1 fun hne => hfail (hfails.2 hne)
        simp only [hfail, if_false]
        obtain ⟨n', chs, i', ret, hrest, hret, hchs⟩ := ih (fun y hy => hxs y (List.mem_cons_of_mem _ hy))
          (regmapWrites env noted (portWrites direction pay ch.port)).1 (by rw [heq]; exact hdev) (i + 1) hfail
        have hcount : (regmapWrites env noted (portWrites direction pay ch.port)).1.ifWrites =
            dev.ifWrites + (portWrites direction pay ch.port).length := by
          rw [heq]
          exact hn hfail
        refine ⟨n', chs, i', ret, ?_, ?_, ?_⟩
        · rw [hrest, hcount, written_append, if_pos hw, applyWrites_append, heq]
          simp only [noted, Device.setChs, Device.setConfig, Function.update_idem, Function.update_self, hw]
        · rw [hret, hcount, Ne, Ne, written_append_eq_iff, and_iff_right hw]
        · intro h
          rw [hchs h, heq]
          simp only [noted, Device.setChs, Device.setConfig, Function.update_self, Option.map_map]
          rfl

/-- The first walk of hw_params counts the channels and collects their ports. -/
theorem forEach_countChannel (wcd : Codec) (xs : List Node) (hxs : ∀ x ∈ xs, (wcd.ch x).isSome)
    (cfg : SlimStreamConfig) (pay : BitVec 16) :
    ∃ portMask, forEach (countChannel wcd) xs (cfg, pay) =
      some ({ cfg with chCount := cfg.chCount + (xs.filterMap wcd.ch).length, portMask },
        (xs.filterMap wcd.ch).foldl (fun payload ch => payload ||| 1#16 <<< ch.shift) pay) := by
  induction xs generalizing cfg pay with
  | nil => exact ⟨cfg.portMask, rfl⟩
  | cons x xs ih =>
      obtain ⟨ch, hch⟩ := Option.isSome_iff_exists.1 (hxs x List.mem_cons_self)
      obtain ⟨portMask, hrest⟩ := ih (fun y hy => hxs y (List.mem_cons_of_mem _ hy))
        { cfg with chCount := cfg.chCount + 1, portMask := cfg.portMask ||| bit ch.port } (pay ||| 1#16 <<< ch.shift)
      refine ⟨portMask, ?_⟩
      rw [forEach, countChannel, List.filterMap_cons_some hch]
      simp only [hch, Option.bind_eq_bind, Option.bind_some, hrest, List.length_cons, List.foldl_cons]
      rw [Nat.add_assoc, Nat.add_comm 1]

variable {dev : Device} {L : Dai → List Node}

theorem Routed.channels_eq {wcd : Codec} (h : Routed wcd L) (d : Dai) : channels wcd d = (L d).filterMap wcd.ch := by
  have hfuel : (L d).length < WALK := Nat.lt_succ_of_le (h.length_le d)
  rw [channels, h.linked.listForEachEntry_eq collect d hfuel, forEach_collect]
  rfl

/-- What hw_params comes to, past the check of the rate. -/
structure Configured (env : Env) (dev : Device) (d : Dai) (dev' : Device) (ret : ℤ) : Prop where
  wcd : dev'.wcd = dev.wcd
  other : ∀ e, e ≠ d → dev'.dai e = dev.dai e
  ifRegmap : dev'.ifRegmap = applyWrites dev.ifRegmap
    (if env.kcalloc then written env dev.ifWrites (configWrites d.stream (channels dev.wcd d)) else [])
  ret_eq_zero : ret = 0 ↔ env.kcalloc = true ∧
    written env dev.ifWrites (configWrites d.stream (channels dev.wcd d)) =
      configWrites d.stream (channels dev.wcd d) ∧
    ((dev.dai d).sruntime = true ∨ ¬env.slimStreamAllocate < 0)
  chCount : (dev'.dai d).sconfig.chCount = (channels dev.wcd d).length
  chs : (dev'.dai d).sconfig.chs = if ret = 0 then some ((channels dev.wcd d).map SlimCh.chNum) else none
  sruntime : (dev'.dai d).sruntime = true ↔ (dev.dai d).sruntime = true ∨ ret = 0

/-- Behind the second walk of hw_params, whatever is done then. -/
structure Walked (env : Env) (dev : Device) (d : Dai) (dev' : Device) (ret : ℤ) : Prop where
  wcd : dev'.wcd = dev.wcd
  other : ∀ e, e ≠ d → dev'.dai e = dev.dai e
  ifRegmap : dev'.ifRegmap = applyWrites dev.ifRegmap
    (written env dev.ifWrites (configWrites d.stream (channels dev.wcd d)))
  fails : ret < 0 ↔ written env dev.ifWrites (configWrites d.stream (channels dev.wcd d)) ≠
    configWrites d.stream (channels dev.wcd d)
  chCount : (dev'.dai d).sconfig.chCount = (channels dev.wcd d).length
  chs : ¬ret < 0 → (dev'.dai d).sconfig.chs = some ((channels dev.wcd d).map SlimCh.chNum)
  sruntime : (dev'.dai d).sruntime = (dev.dai d).sruntime

theorem Routed.secondWalk (h : Routed dev.wcd L) (d : Dai) (cfg : SlimStreamConfig)
    (hcount : cfg.chCount = (channels dev.wcd d).length) :
    ∃ dev' i ret, listForEachEntry dev.wcd.links (.dai d)
        (configureChannel env d d.stream (payload (channels dev.wcd d))) WALK
        (dev.setConfig d { cfg with chs := some (List.replicate cfg.chCount 0) }, 0, 0) = some (dev', i, ret) ∧
      Walked env dev d dev' ret := by
  have hfuel : (L d).length < WALK := Nat.lt_succ_of_le (h.length_le d)
  have hxs : ∀ x ∈ L d, (dev.wcd.ch x).isSome := fun x hx => h.ch_isSome hx dev.wcd
  obtain ⟨n, chs, i, ret, hwalk, hret, hchs⟩ := forEach_configureChannel env d d.stream
    (payload (channels dev.wcd d)) dev.wcd (L d) hxs
    (dev.setConfig d { cfg with chs := some (List.replicate cfg.chCount 0) }) rfl 0 (r := 0) (by decide)
  rw [← h.linked.listForEachEntry_eq _ _ hfuel, ← h.channels_eq] at hwalk
  rw [← h.channels_eq] at hret hchs
  refine ⟨_, i, ret, hwalk, rfl, ?_, rfl, hret, ?_, ?_, ?_⟩
  · intro e he
    simp [Device.setChs, Device.setConfig, he]
  · simp [Device.setChs, Device.setConfig, hcount]
  · intro hneg
    have hfill := fill_append [] ((channels dev.wcd d).map SlimCh.chNum)
    rw [List.length_map, List.length_nil, List.nil_append, List.nil_append] at hfill
    simp [hchs hneg, Device.setChs, Device.setConfig, hcount, hfill]
  · simp [Device.setChs, Device.setConfig]

variable {env} in
/-- Where a write or the allocation of the stream fails, the channel numbers are freed. -/
theorem Walked.freed {dev' : Device} {d : Dai} {ret ret' : ℤ} (h : Walked env dev d dev' ret)
    (hk : env.kcalloc = true) (hneg : ret' < 0)
    (hfail : ¬(written env dev.ifWrites (configWrites d.stream (channels dev.wcd d)) =
        configWrites d.stream (channels dev.wcd d) ∧
      ((dev.dai d).sruntime = true ∨ ¬env.slimStreamAllocate < 0))) : Configured env dev d (dev'.freeChs d) ret' where
  wcd := h.wcd
  other e he := (Function.update_of_ne he _ _).trans (h.other e he)
  ifRegmap := by
    rw [if_pos hk]
    exact h.ifRegmap
  ret_eq_zero := iff_of_false hneg.ne fun hall => hfail hall.2
  chCount := by simp [Device.freeChs, Device.setConfig, h.chCount]
  chs := by simp [Device.freeChs, Device.setConfig, hneg.ne]
  sruntime := by simp [Device.freeChs, Device.setConfig, hneg.ne, h.sruntime]

theorem Routed.slimSetHwParams_configured (h : Routed dev.wcd L) (d : Dai) :
    ∃ dev' ret, wcd9320SlimSetHwParams env WALK dev d d.stream = some (dev', ret) ∧ Configured env dev d dev' ret := by
  have hfuel : (L d).length < WALK := Nat.lt_succ_of_le (h.length_le d)
  have hxs : ∀ x ∈ L d, (dev.wcd.ch x).isSome := fun x hx => h.ch_isSome hx dev.wcd
  obtain ⟨portMask, hcount⟩ := forEach_countChannel dev.wcd (L d) hxs
    { (dev.dai d).sconfig with chCount := 0, direction := d.stream, portMask := 0 } 0
  rw [← h.linked.listForEachEntry_eq _ _ hfuel, ← h.channels_eq, Nat.zero_add] at hcount
  unfold wcd9320SlimSetHwParams
  simp only [hcount, Option.bind_eq_bind, Option.bind_some]
  by_cases hk : env.kcalloc = true
  · obtain ⟨dev', i, ret, hwalk, hw⟩ := h.secondWalk env d
      { (dev.dai d).sconfig with
        chCount := (channels dev.wcd d).length, direction := d.stream, portMask } rfl
    have hwrites := not_congr hw.fails
    rw [not_not] at hwrites
    simp only [hk, if_true]
    change ∃ dev' ret, (listForEachEntry dev.wcd.links (.dai d)
        (configureChannel env d d.stream (payload (channels dev.wcd d))) WALK _).bind _ = _ ∧ _
    rw [hwalk, Option.bind_some]
    by_cases hneg : ret < 0
    · refine ⟨dev'.freeChs d, ret, ?_, hw.freed hk hneg fun hall => hwrites.2 hall.1 hneg⟩
      dsimp only
      rw [if_pos hneg]
    · by_cases hrun : (dev.dai d).sruntime = true
      · refine ⟨dev', 0, ?_, hw.wcd, hw.other, ?_, ?_, hw.chCount, ?_, ?_⟩
        · dsimp only
          rw [if_neg hneg, if_pos (hw.sruntime.trans hrun)]
        · rw [if_pos hk]
          exact hw.ifRegmap
        · exact iff_of_true rfl ⟨hk, hwrites.1 hneg, .inl hrun⟩
        · exact hw.chs hneg
        · simp [hw.sruntime, hrun]
      · have hrun' : ¬(dev'.dai d).sruntime = true := by rwa [hw.sruntime]
        by_cases halloc : env.slimStreamAllocate < 0
        · refine ⟨dev'.freeChs d, env.slimStreamAllocate, ?_, hw.freed hk halloc fun hall => ?_⟩
          · dsimp only
            rw [if_neg hneg, if_neg hrun', if_pos halloc]
          · exact hall.2.elim hrun fun hne => hne halloc
        · refine ⟨{ dev' with dai := Function.update dev'.dai d { dev'.dai d with sruntime := true } }, 0, ?_, hw.wcd,
            ?_, ?_, ?_, ?_, ?_, ?_⟩
          · dsimp only
            rw [if_neg hneg, if_neg hrun', if_neg halloc]
          · intro e he
            rw [← hw.other e he]
            exact Function.update_of_ne he _ _
          · rw [if_pos hk]
            exact hw.ifRegmap
          · exact iff_of_true rfl ⟨hk, hwrites.1 hneg, .inr halloc⟩
          · simp [hw.chCount]
          · simp [hw.chs hneg]
          · simp
  · simp only [hk]
    refine ⟨_, _, rfl, rfl, ?_, ?_, ?_, ?_, ?_, ?_⟩
    · exact fun e he => Function.update_of_ne he _ _
    · simp [hk, applyWrites, Device.setConfig]
    · simp [hk]
    · simp [Device.setConfig]
    · simp [Device.setConfig]
    · simp [Device.setConfig]

/-- hw_params refuses a rate and changes nothing, or configures the stream. -/
theorem Routed.hwParams_configured (h : Routed dev.wcd L) (d : Dai) (rate : ℕ) :
    ∃ dev' ret, wcd9320HwParams env WALK dev d d.stream rate = some (dev', ret) ∧
      (rate ∉ rates → dev' = dev ∧ ret ≠ 0) ∧ (rate ∈ rates → Configured env dev d dev' ret) := by
  unfold wcd9320HwParams
  cases hrate : rates.findIdx? (· = rate) with
  | none => exact ⟨dev, -EINVAL, rfl, fun _ => ⟨rfl, by decide⟩, fun hmem => absurd hmem (findIdx?_rates.1 hrate)⟩
  | some rateIndex =>
      have hmem : rate ∈ rates := by
        by_contra hne
        rw [findIdx?_rates.2 hne] at hrate
        cases hrate
      let named := dev.setConfig d { (dev.dai d).sconfig with bps := 16, rate }
      have hnamed : Routed named.wcd L := h
      obtain ⟨dev', ret, hset, hconf⟩ := hnamed.slimSetHwParams_configured env d
      have hconf' : Configured env dev d dev' ret := by
        refine ⟨hconf.wcd, ?_, hconf.ifRegmap, ?_, hconf.chCount, hconf.chs, ?_⟩
        · intro e he
          rw [hconf.other e he]
          exact Function.update_of_ne he _ _
        · simpa [named, Device.setConfig] using hconf.ret_eq_zero
        · simpa [named, Device.setConfig] using hconf.sruntime
      have hset' : wcd9320SlimSetHwParams env WALK (dev.setConfig d { (dev.dai d).sconfig with bps := 16, rate }) d
          d.stream = some (dev', ret) := hset
      simp only [hset', Option.bind_eq_bind, Option.bind_some]
      by_cases hret : ret = 0
      · have h' : Routed dev'.wcd L := by
          rw [hconf'.wcd]
          exact h
        obtain ⟨regmap, hwalk⟩ := h'.walk_setRate d (show (L d).length < WALK from Nat.lt_succ_of_le (h'.length_le d))
          rateIndex d.stream dev'.regmap
        subst hret
        simp only [ne_eq, not_true_eq_false, if_false, hwalk, Option.bind_some]
        refine ⟨{ dev' with regmap }, 0, rfl, fun hne => absurd hmem hne, fun _ => ?_⟩
        exact ⟨hconf'.wcd, hconf'.other, hconf'.ifRegmap, hconf'.ret_eq_zero, hconf'.chCount, hconf'.chs,
          hconf'.sruntime⟩
      · simp only [ne_eq, hret, not_false_eq_true, if_true]
        exact ⟨dev', ret, rfl, fun hne => absurd hmem hne, fun _ => hconf'⟩

theorem forEach_disablePort (direction : Stream) (wcd : Codec) (xs : List Node)
    (hxs : ∀ x ∈ xs, (wcd.ch x).isSome) (dev : Device) (hdev : dev.wcd = wcd) :
    ∃ n, forEach (disablePort env direction) xs dev = some { dev with
      ifRegmap := applyWrites dev.ifRegmap (landed env dev.ifWrites
        ((xs.filterMap wcd.ch).map fun ch => (portCfg direction ch.port, SLAVE_PORT_DISABLE)))
      ifWrites := n } := by
  induction xs generalizing dev with
  | nil => exact ⟨dev.ifWrites, rfl⟩
  | cons x xs ih =>
      obtain ⟨ch, hch⟩ := Option.isSome_iff_exists.1 (hxs x List.mem_cons_self)
      have hbody : disablePort env direction dev x =
          some (.yield (regmapWrite env dev (portCfg direction ch.port) SLAVE_PORT_DISABLE).1) := by
        rw [disablePort, hdev, hch]
        cases direction <;> rfl
      obtain ⟨n, hrest⟩ := ih (fun y hy => hxs y (List.mem_cons_of_mem _ hy))
        (regmapWrite env dev (portCfg direction ch.port) SLAVE_PORT_DISABLE).1 hdev
      refine ⟨n, ?_⟩
      rw [forEach, hbody, Option.bind_some, List.filterMap_cons_some hch, List.map_cons, landed]
      dsimp only
      rw [hrest]
      by_cases hfail : env.regmapWrite dev.ifWrites < 0
      · simp [regmapWrite, hfail]
      · simp [regmapWrite, hfail, applyWrites]

/-- A stream that stops has its ports disabled as far as the writes land. -/
theorem Routed.slimPortsDisable_eq (h : Routed dev.wcd L) (d : Dai) :
    ∃ dev', wcd9320SlimPortsDisable env WALK dev d d.stream = some dev' ∧ dev'.wcd = dev.wcd ∧ dev'.dai = dev.dai ∧
      ∀ reg, dev'.ifRegmap reg = if reg ∈ stopDisables env dev d then SLAVE_PORT_DISABLE else dev.ifRegmap reg := by
  have hfuel : (L d).length < WALK := Nat.lt_succ_of_le (h.length_le d)
  have hxs : ∀ x ∈ L d, (dev.wcd.ch x).isSome := fun x hx => h.ch_isSome hx dev.wcd
  obtain ⟨n, hwalk⟩ := forEach_disablePort env d.stream dev.wcd (L d) hxs dev rfl
  rw [← h.linked.listForEachEntry_eq _ _ hfuel, ← h.channels_eq] at hwalk
  refine ⟨_, hwalk, rfl, rfl, fun reg => ?_⟩
  have hval : ∀ w ∈ landed env dev.ifWrites
      ((channels dev.wcd d).map fun ch => (portCfg d.stream ch.port, SLAVE_PORT_DISABLE)), w.1 = reg →
      w.2 = SLAVE_PORT_DISABLE := by
    intro w hw _
    obtain ⟨ch, -, rfl⟩ := List.mem_map.1 ((landed_sublist env _ _).subset hw)
    rfl
  exact applyWrites_apply dev.ifRegmap hval

end

section
variable {state : StreamState} {L : Dai → List Node}

/-- The codec and the configurations of its streams are as they were. -/
structure SameConfig (dev dev' : Device) : Prop where
  wcd : dev'.wcd = dev.wcd
  sconfig : ∀ d, (dev'.dai d).sconfig = (dev.dai d).sconfig

theorem SameConfig.refl (dev : Device) : SameConfig dev dev := ⟨rfl, fun _ => rfl⟩

theorem SameConfig.trans {dev dev' dev'' : Device} (h : SameConfig dev dev') (h' : SameConfig dev' dev'') :
    SameConfig dev dev'' :=
  ⟨h'.wcd.trans h.wcd, fun d => (h'.sconfig d).trans (h.sconfig d)⟩

theorem sameConfig_setStreamUp (dev : Device) (d : Dai) (up : Bool) : SameConfig dev (dev.setStreamUp d up) := by
  refine ⟨rfl, fun e => ?_⟩
  by_cases he : e = d
  · subst he
    simp [Device.setStreamUp]
  · simp [Device.setStreamUp, he]

theorem wcd9320Trigger_sameConfig {env : TriggerEnv} {params : Params} {dev dev' : Device} {d : Dai}
    {cmd : TriggerCmd} {ret : ℤ} (h : Routed dev.wcd L)
    (htrigger : wcd9320Trigger env params WALK dev d d.stream cmd = some (dev', ret)) : SameConfig dev dev' := by
  have hstop : ∀ dev', (if params.keepStream = true then some (dev, 0)
      else if params.disablePortsOnStop = true then
        (wcd9320SlimPortsDisable env.toEnv WALK (dev.setStreamUp d false) d d.stream).bind fun dev => some (dev, 0)
      else some (dev.setStreamUp d false, 0)) = some (dev', ret) → SameConfig dev dev' := by
    intro dev' heq
    have hdown : Routed (dev.setStreamUp d false).wcd L := h
    obtain ⟨dev'', hdisable, hwcd, hdai, -⟩ := hdown.slimPortsDisable_eq env.toEnv d
    have hdisabled : SameConfig (dev.setStreamUp d false) dev'' := ⟨hwcd, fun e => by rw [hdai]⟩
    rw [hdisable, Option.bind_some] at heq
    split at heq
    · cases heq
      exact SameConfig.refl dev
    · split at heq
      · cases heq
        exact (sameConfig_setStreamUp dev d false).trans hdisabled
      · cases heq
        exact sameConfig_setStreamUp dev d false
  have hstart : ∀ dev', (if (params.keepStream && (dev.dai d).streamUp) = true then some (dev, 0)
      else if env.slimStreamPrepare ≠ 0 then some (dev, env.slimStreamPrepare)
      else if env.slimStreamEnable ≠ 0 then some (dev, env.slimStreamEnable)
      else some (dev.setStreamUp d true, 0)) = some (dev', ret) → SameConfig dev dev' := by
    intro dev' heq
    split at heq
    · cases heq
      exact SameConfig.refl dev
    · split at heq
      · cases heq
        exact SameConfig.refl dev
      · split at heq
        · cases heq
          exact SameConfig.refl dev
        · cases heq
          exact sameConfig_setStreamUp dev d true
  unfold wcd9320Trigger at htrigger
  split at htrigger
  · cases htrigger
    exact SameConfig.refl dev
  · cases cmd with
    | stop => exact hstop dev' htrigger
    | start => exact hstart dev' htrigger
    | pausePush => exact hstop dev' htrigger
    | pauseRelease => exact hstart dev' htrigger
    | suspend => exact hstop dev' htrigger
    | resume => exact hstart dev' htrigger

theorem widgetEvent_wcd (dev : Device) (d : Dai) (event : DapmEvent) : (widgetEvent dev d event).wcd = dev.wcd := by
  cases d <;> cases event <;> rfl

/-- Whatever is called, the lists stay routed. -/
theorem Routed.streamStep (h : Routed state.dev.wcd L) (params : Params) (a : StreamAct) :
    ∃ L', Routed (streamStep params state a).dev.wcd L' := by
  cases a with
  | write w =>
      obtain ⟨wcd', L', hput, hwritten⟩ := h.put w
      rw [Wcd9320.streamStep, hput]
      exact ⟨L', hwritten.routed⟩
  | hwParams d rate env =>
      obtain ⟨dev', ret, heq, hset⟩ := h.hwParams env d d.stream rate (Nat.lt_succ_of_le (h.length_le d))
      have heq' : wcd9320HwParams env WALK state.dev d d.stream rate = some (dev', ret) := heq
      rw [Wcd9320.streamStep, heq']
      exact ⟨L, by rw [hset.wcd]; exact h⟩
  | trigger d cmd env =>
      rw [Wcd9320.streamStep]
      split
      case h_1 dev' ret heq => exact ⟨L, by rw [(wcd9320Trigger_sameConfig h heq).wcd]; exact h⟩
      case h_2 => exact ⟨L, h⟩
  | widget d event => exact ⟨L, by rw [Wcd9320.streamStep, widgetEvent_wcd]; exact h⟩

end

end Sirius.Wcd9320
