import Sirius.Lib.Runs
import Sirius.Q6common.Steps

/-!
# The services over probe and remove

A probe allocates a service and enters it in the registry; a remove takes it out, and its memory goes with the
device. Sessions, creates and callbacks in progress keep the pointer they have. A step is one region under a lock or
one access between two of them, as before; `removed` says what has been freed.
-/
namespace Sirius.Q6common
open Q6voice (PathType)
open Runs

inductive ServiceType
  | mvm
  | cvp
  | cvs
  deriving DecidableEq, Repr

/-- A callback that has the pointer of its service, and what it was called with. -/
structure Arrival where
  service : ℕ
  data : Packet
  answers : Option Command

/-- Every service there has been; `registered` is `q6voice_services`, `bound` says which devices have theirs.
`creating` are the creates that have looked their service up. -/
structure Voice where
  registered : ServiceType → Option ℕ
  kind : ℕ → ServiceType
  service : ℕ → Service
  bound : ℕ → Bool
  removed : ℕ → Bool
  next : ℕ
  creating : List (ℕ × PathType)
  arrived : List Arrival

def voiceInit : Voice where
  registered := fun _ => none
  kind := fun _ => .mvm
  service := fun _ => q6voiceCommonProbe
  bound := fun _ => false
  removed := fun _ => false
  next := 0
  creating := []
  arrived := []

def Voice.setService (s : Voice) (v : ℕ) (w : Service) : Voice := { s with service := Function.update s.service v w }

/-- `q6voice_common_probe`; where the type is taken the probe fails, and what it has allocated is freed. -/
def probe (type : ServiceType) (s : Voice) : Voice :=
  match s.registered type with
  | none =>
      { s.setService s.next q6voiceCommonProbe with
        registered := Function.update s.registered type (some s.next)
        kind := Function.update s.kind s.next type
        bound := Function.update s.bound s.next true
        next := s.next + 1 }
  | some _ => { s with removed := Function.update s.removed s.next true, next := s.next + 1 }

/-- `q6voice_common_remove`, and the end of the device's memory. -/
def remove (v : ℕ) (s : Voice) : Voice :=
  if s.bound v then
    { s with
      registered := if s.registered (s.kind v) = some v then Function.update s.registered (s.kind v) none
        else s.registered
      bound := Function.update s.bound v false
      removed := Function.update s.removed v true }
  else s

/-- The lookup in `q6voice_session_create`, under the lock of the registry. -/
def lookupService (type : ServiceType) (path : PathType) (s : Voice) : Voice :=
  match s.registered type with
  | none => s
  | some v => { s with creating := s.creating ++ [(v, path)] }

/-- `kzalloc` in `q6voice_session_create`, which may fail, and the initialisation, which reads `svc->adev`. -/
def initSession (k : ℕ) (alloc : Bool) (s : Voice) : Voice :=
  match s.creating[k]? with
  | none => s
  | some (v, path) =>
      let s := { s with creating := s.creating.eraseIdx k }
      if alloc then s.setService v (allocSession path (s.service v)) else s

/-- The DSP answers; a device that is not bound is not called back. -/
def arriveReply (v : ℕ) (status : BitVec 32) (srcPort : BitVec 16) (s : Voice) : Voice :=
  match (s.service v).unanswered with
  | [] => s
  | c :: _ =>
      let s := s.setService v (dspAnswer c status srcPort (s.service v))
      if s.bound v then { s with arrived := s.arrived ++ [⟨v, c.reply status srcPort, some c⟩] } else s

def arrivePacket (v : ℕ) (data : Packet) (s : Voice) : Voice :=
  if s.bound v then { s with arrived := s.arrived ++ [⟨v, data, none⟩] } else s

/-- The lookup of a callback, under the lock of the service it has the pointer of. -/
def deliver (k : ℕ) (s : Voice) : Voice :=
  match s.arrived[k]? with
  | none => s
  | some a => { s.setService a.service (lookupSession a.data a.answers (s.service a.service)) with
      arrived := s.arrived.eraseIdx k }

inductive VoiceAct
  | probe (type : ServiceType)
  | remove (v : ℕ)
  | create (type : ServiceType) (path : PathType)
  | init (k : ℕ) (alloc : Bool)
  | own (v i : ℕ) (ch : Choice)
  | reply (v : ℕ) (status : BitVec 32) (srcPort : BitVec 16)
  | packet (v : ℕ) (data : Packet)
  | deliver (k : ℕ)
  | handle (v k : ℕ)
  | finish (v k : ℕ)
  deriving DecidableEq, Repr

def voiceStep (s : Voice) : VoiceAct → Voice
  | .probe type => probe type s
  | .remove v => remove v s
  | .create type path => lookupService type path s
  | .init k alloc => initSession k alloc s
  | .own v i ch => s.setService v (step (s.service v) (.own i ch))
  | .reply v status srcPort => arriveReply v status srcPort s
  | .packet v data => arrivePacket v data s
  | .deliver k => deliver k s
  | .handle v k => s.setService v (handlePacket k (s.service v))
  | .finish v k => s.setService v (finishCallback k (s.service v))

/-- The steps of an owner that read or write the service: the slot, twice, and `s->svc->adev`. -/
def Owner.touches : Owner → Choice → Bool
  | .allocated, .proceed | .transmit _, .proceed | .transmit _, .sendFails _ | .unregistering, .proceed => true
  | _, _ => false

/-- The service a step reads or writes. -/
def touched (s : Voice) : VoiceAct → Option ℕ
  | .probe _ => some s.next
  | .remove v => if s.bound v then some v else none
  | .init k alloc => s.creating[k]?.bind fun c => if alloc then some c.1 else none
  | .own v i ch => ((s.service v).heap i).bind fun x => if x.owner.touches ch then some v else none
  | .deliver k => s.arrived[k]?.map Arrival.service
  | _ => none

/-- The step touches nothing that was removed. -/
def Safe (s : Voice) (a : VoiceAct) : Prop := ∀ v, touched s a = some v → s.removed v = false

/-- The session has left its slot, or never had it. -/
def Owner.finished : Owner → Bool
  | .failed _ | .putting | .done => true
  | _ => false

/-- The owner can get to the end of its release, and touches nothing that was removed. -/
def Releases (s : Voice) (v i : ℕ) : Prop :=
  ∃ chs : List Choice, Always voiceStep Safe s (chs.map (.own v i)) ∧
    ∃ x, ((run voiceStep s (chs.map (.own v i))).service v).heap i = some x ∧ x.owner = .done

/-- The sessions of what was removed can still be released. -/
def Releasable (s : Voice) : Prop :=
  ∀ v i x, s.removed v = true → (s.service v).heap i = some x → (∀ ret, x.owner ≠ .failed ret) → Releases s v i

def Outlives (s : Voice) (a : VoiceAct) : Prop := Safe s a ∧ Releasable (voiceStep s a)

/-- No create and no callback in progress has the pointer of the service, and no session that is yet to leave it. -/
structure Unreferenced (s : Voice) (v : ℕ) : Prop where
  creating : ∀ c ∈ s.creating, c.1 ≠ v
  arrived : ∀ a ∈ s.arrived, a.service ≠ v
  sessions : ∀ i x, (s.service v).heap i = some x → x.owner.finished = true

def RemovesUnreferenced (s : Voice) : VoiceAct → Prop
  | .remove v => s.bound v = true → Unreferenced s v
  | _ => True

section
variable {v : Service} {i : ℕ} {x : Cell} {ch : Choice}

theorem touches_of_finished (h : x.owner.finished = true) : x.owner.touches ch = false := by
  cases ho : x.owner <;> rw [ho] at h <;> first | rfl | exact absurd h Bool.false_ne_true

/-- Who has finished stays so. -/
theorem moved_finished {w : Service} (hx : v.heap i = some x) (hm : Moved v i x ch w)
    (h : x.owner.finished = true) : ∃ x', w.heap = (v.store i x').heap ∧ x'.owner.finished = true := by
  cases hm with
  | stays ch =>
      refine ⟨x, ?_, h⟩
      rw [Service.store, ← hx, Function.update_eq_self]
  | put ho => exact ⟨_, rfl, rfl⟩
  | register ho | expect op ho | transmit hdr ho | sendFails hdr ret ho hret | wake c ho hop | timeout c ho hop
  | clear c ho | read c ret ho hret | resume op ret ho | command n ho | release ho | destroy ho hh | leave ho hh
  | unregister ho =>
      rw [ho] at h
      cases h

theorem afterSend_not_finished (s : Session) (op : Opcode) (ret : ℤ) : (afterSend s op ret).finished = false := by
  unfold afterSend
  cases op with
  | create => split_ifs <;> rfl
  | _ => rfl

/-- Nobody gets out of the slot without the service. -/
theorem moved_not_finished {w : Service} (hx : v.heap i = some x) (hm : Moved v i x ch w)
    (htouch : x.owner.touches ch = false) (h : x.owner.finished = false) :
    ∃ x', w.heap i = some x' ∧ x'.owner.finished = false := by
  cases hm with
  | stays ch => exact ⟨x, hx, h⟩
  | register ho | transmit hdr ho | sendFails hdr ret ho hret | unregister ho =>
      rw [ho] at htouch
      cases htouch
  | put ho =>
      rw [ho] at h
      cases h
  | clear c ho => exact ⟨_, store_self v i _, rfl⟩
  | read c ret ho hret => exact ⟨_, store_self v i _, rfl⟩
  | resume op ret ho => exact ⟨_, store_self v i _, afterSend_not_finished ..⟩
  | _ => exact ⟨_, store_self v i _, rfl⟩

end

/-- What depends on the owners only. -/
def Finished (w : Service) : Prop := ∀ i x, w.heap i = some x → x.owner.finished = true

section
variable {w w' : Service}

theorem Finished.of_store {i : ℕ} {x' : Cell} (h : Finished w) (hheap : w'.heap = (w.store i x').heap)
    (hx' : x'.owner.finished = true) : Finished w' := by
  intro j y hy
  rw [hheap] at hy
  by_cases hj : j = i
  · rw [hj, store_self] at hy
    cases hy
    exact hx'
  · rw [store_ne w hj] at hy
    exact h j y hy

theorem Finished.own (h : Finished w) (i : ℕ) (ch : Choice) : Finished (step w (.own i ch)) := by
  rw [step]
  split
  case h_1 => exact h
  case h_2 x hx =>
      obtain ⟨x', hheap, hx'⟩ := moved_finished hx (ownerStep_moved ch w i x) (h i x hx)
      exact h.of_store hheap hx'

theorem Finished.handled (h : Finished w) (hw : Handled w w') : Finished w' := by
  cases hw with
  | stays => exact h
  | handled l r cb x hcb hh hx => exact h.of_store rfl (h _ x hx)
  | finished l r cb x hcb hh hx => exact h.of_store rfl (h _ x hx)

end

section
variable {s : Voice} {v : ℕ}

/-- A change of one service, and of what is in progress. -/
theorem Unreferenced.of_service {s' : Voice} {u : ℕ} {w : Service} (h : Unreferenced s v)
    (hservice : s'.service = Function.update s.service u w) (hw : u = v → Finished w)
    (hcreating : ∀ c ∈ s'.creating, c ∈ s.creating ∨ c.1 ≠ v)
    (harrived : ∀ a ∈ s'.arrived, a ∈ s.arrived ∨ a.service ≠ v) : Unreferenced s' v := by
  constructor
  · exact fun c hc => (hcreating c hc).elim (h.creating c) id
  · exact fun a ha => (harrived a ha).elim (h.arrived a) id
  · intro i x hx
    rw [hservice] at hx
    by_cases huv : u = v
    · rw [← huv, Function.update_self] at hx
      exact hw huv i x hx
    · rw [Function.update_of_ne (Ne.symm huv)] at hx
      exact h.sessions i x hx

end

/-- What is freed, or not there yet. -/
def Voice.Gone (s : Voice) (v : ℕ) : Prop := s.removed v = true ∨ s.next ≤ v

structure VoiceInv (s : Voice) : Prop where
  registered : ∀ type v, s.registered type = some v → s.bound v = true ∧ s.kind v = type
  bound : ∀ v, s.bound v = true → s.removed v = false ∧ v < s.next
  removed : ∀ v, s.removed v = true → v < s.next
  gone : ∀ v, s.Gone v → Unreferenced s v

theorem voiceInit_inv : VoiceInv voiceInit := by
  constructor
  · exact fun _ _ h => nomatch h
  · exact fun _ h => nomatch h
  · exact fun _ h => nomatch h
  · exact fun v _ => ⟨fun _ hc => absurd hc List.not_mem_nil, fun _ ha => absurd ha List.not_mem_nil,
      fun _ _ hx => nomatch hx⟩

section
variable {s : Voice}

theorem VoiceInv.not_gone (h : VoiceInv s) {v : ℕ} (hv : s.bound v = true) : ¬s.Gone v := by
  obtain ⟨hremoved, hlt⟩ := h.bound v hv
  rintro (hgone | hle)
  · exact Bool.false_ne_true (hremoved.symm.trans hgone)
  · omega

/-- Steps that leave the devices alone. -/
theorem VoiceInv.of_service (h : VoiceInv s) {s' : Voice} (hregistered : s'.registered = s.registered)
    (hkind : s'.kind = s.kind) (hbound : s'.bound = s.bound) (hremoved : s'.removed = s.removed)
    (hnext : s'.next = s.next) (hgone : ∀ v, s.Gone v → Unreferenced s' v) : VoiceInv s' := by
  constructor
  · rw [hregistered, hbound, hkind]
    exact h.registered
  · rw [hbound, hremoved, hnext]
    exact h.bound
  · rw [hremoved, hnext]
    exact h.removed
  · intro v hv
    rw [Voice.Gone, hremoved, hnext] at hv
    exact hgone v hv

theorem VoiceInv.ne_next (h : VoiceInv s) {v : ℕ} (hv : s.bound v = true) : v ≠ s.next :=
  Nat.ne_of_lt (h.bound v hv).2

theorem VoiceInv.next_not_removed (h : VoiceInv s) : s.removed s.next = false :=
  Bool.eq_false_iff.mpr fun hr => Nat.lt_irrefl _ (h.removed s.next hr)

theorem VoiceInv.probe_free (h : VoiceInv s) {type : ServiceType} (hr : s.registered type = none) :
    VoiceInv (Q6common.probe type s) := by
  rw [Q6common.probe, hr]
  constructor
  · intro t v htv
    dsimp only [Voice.setService] at htv ⊢
    by_cases ht : t = type
    · rw [ht, Function.update_self] at htv
      cases htv
      exact ⟨Function.update_self .., (Function.update_self ..).trans ht.symm⟩
    · rw [Function.update_of_ne ht] at htv
      obtain ⟨hbound, hkind⟩ := h.registered t v htv
      have hne : v ≠ s.next := h.ne_next hbound
      rw [Function.update_of_ne hne, Function.update_of_ne hne]
      exact ⟨hbound, hkind⟩
  · intro v hv
    dsimp only [Voice.setService] at hv ⊢
    by_cases hn : v = s.next
    · rw [hn]
      exact ⟨h.next_not_removed, Nat.lt_succ_self _⟩
    · rw [Function.update_of_ne hn] at hv
      obtain ⟨hremoved, hlt⟩ := h.bound v hv
      exact ⟨hremoved, Nat.lt_succ_of_lt hlt⟩
  · exact fun v hv => Nat.lt_succ_of_lt (h.removed v hv)
  · intro v hv
    have hgone : s.Gone v := hv.imp id fun hle => Nat.le_of_succ_le hle
    exact (h.gone v hgone).of_service rfl (fun _ i x hx => nomatch hx) (fun c hc => Or.inl hc)
      fun a ha => Or.inl ha

/-- What the probe has allocated is freed again. -/
theorem VoiceInv.probe_taken (h : VoiceInv s) {type : ServiceType} {u : ℕ} (hr : s.registered type = some u) :
    VoiceInv (Q6common.probe type s) := by
  rw [Q6common.probe, hr]
  constructor
  · exact h.registered
  · intro v hv
    obtain ⟨hremoved, hlt⟩ := h.bound v hv
    exact ⟨(Function.update_of_ne (h.ne_next hv) ..).trans hremoved, Nat.lt_succ_of_lt hlt⟩
  · intro v hv
    dsimp only at hv ⊢
    by_cases hn : v = s.next
    · omega
    · rw [Function.update_of_ne hn] at hv
      exact Nat.lt_succ_of_lt (h.removed v hv)
  · intro v hv
    have hgone : s.Gone v := by
      by_cases hn : v = s.next
      · exact Or.inr (Nat.le_of_eq hn.symm)
      · exact hv.imp (fun hr => (Function.update_of_ne hn ..).symm.trans hr) fun hle => Nat.le_of_succ_le hle
    obtain ⟨hcreating, harrived, hsessions⟩ := h.gone v hgone
    exact ⟨hcreating, harrived, hsessions⟩

theorem VoiceInv.probe (h : VoiceInv s) (type : ServiceType) : VoiceInv (Q6common.probe type s) := by
  cases hr : s.registered type with
  | none => exact h.probe_free hr
  | some u => exact h.probe_taken hr

/-- The registry has no entry for a service that was removed. -/
theorem VoiceInv.remove_registered (h : VoiceInv s) {v : ℕ} (hv : s.bound v = true) {type : ServiceType} {u : ℕ}
    (hu : (Q6common.remove v s).registered type = some u) : s.registered type = some u ∧ u ≠ v := by
  rw [Q6common.remove, if_pos hv] at hu
  dsimp only at hu
  by_cases hentry : s.registered (s.kind v) = some v
  · rw [if_pos hentry] at hu
    by_cases ht : type = s.kind v
    · rw [ht, Function.update_self] at hu
      cases hu
    · rw [Function.update_of_ne ht] at hu
      refine ⟨hu, ?_⟩
      rintro rfl
      exact ht (h.registered type u hu).2.symm
  · rw [if_neg hentry] at hu
    refine ⟨hu, ?_⟩
    rintro rfl
    rw [(h.registered type u hu).2] at hentry
    exact hentry hu

theorem VoiceInv.remove (h : VoiceInv s) {v : ℕ} (ha : s.bound v = true → Unreferenced s v) :
    VoiceInv (Q6common.remove v s) := by
  by_cases hv : s.bound v = true
  · have hregistered : ∀ type u, (Q6common.remove v s).registered type = some u → s.registered type = some u ∧ u ≠ v :=
      fun type u => h.remove_registered hv
    rw [Q6common.remove, if_pos hv] at hregistered ⊢
    constructor
    · intro type u hu
      obtain ⟨hu, hne⟩ := hregistered type u hu
      obtain ⟨hbound, hkind⟩ := h.registered type u hu
      exact ⟨(Function.update_of_ne hne ..).trans hbound, hkind⟩
    · intro u hu
      dsimp only at hu ⊢
      by_cases hne : u = v
      · rw [hne, Function.update_self] at hu
        cases hu
      · rw [Function.update_of_ne hne] at hu ⊢
        exact h.bound u hu
    · intro u hu
      dsimp only at hu ⊢
      by_cases hne : u = v
      · rw [hne]
        exact (h.bound v hv).2
      · rw [Function.update_of_ne hne] at hu
        exact h.removed u hu
    · intro u hu
      have hfree : Unreferenced s u := by
        by_cases hne : u = v
        · rw [hne]
          exact ha hv
        · exact h.gone u (hu.imp (fun hr => (Function.update_of_ne hne ..).symm.trans hr) id)
      obtain ⟨hcreating, harrived, hsessions⟩ := hfree
      exact ⟨hcreating, harrived, hsessions⟩
  · rw [Q6common.remove, if_neg hv]
    exact h

theorem VoiceInv.create (h : VoiceInv s) (type : ServiceType) (path : PathType) :
    VoiceInv (lookupService type path s) := by
  unfold lookupService
  cases hr : s.registered type with
  | none => exact h
  | some u =>
      refine h.of_service rfl rfl rfl rfl rfl fun v hv => ?_
      have hne : u ≠ v := by
        rintro rfl
        exact h.not_gone (h.registered type u hr).1 hv
      refine ⟨fun c hc => ?_, (h.gone v hv).arrived, (h.gone v hv).sessions⟩
      rcases List.mem_append.mp hc with hold | hnew
      · exact (h.gone v hv).creating c hold
      · rw [List.mem_singleton.mp hnew]
        exact hne

theorem VoiceInv.init (h : VoiceInv s) (k : ℕ) (alloc : Bool) : VoiceInv (initSession k alloc s) := by
  unfold initSession
  cases hk : s.creating[k]? with
  | none => exact h
  | some c =>
      have herase : ∀ c' ∈ s.creating.eraseIdx k, c' ∈ s.creating := fun c' => List.mem_of_mem_eraseIdx
      cases alloc with
      | false =>
          refine h.of_service rfl rfl rfl rfl rfl fun v hv => ?_
          exact ⟨fun c' hc' => (h.gone v hv).creating c' (herase c' hc'), (h.gone v hv).arrived, (h.gone v hv).sessions⟩
      | true =>
          refine h.of_service rfl rfl rfl rfl rfl fun v hv => ?_
          have hne : c.1 ≠ v := (h.gone v hv).creating c (List.mem_of_getElem? hk)
          exact (h.gone v hv).of_service rfl (fun heq => absurd heq hne) (fun c' hc' => Or.inl (herase c' hc'))
            fun a ha => Or.inl ha

/-- A step of one service. -/
theorem VoiceInv.within (h : VoiceInv s) (u : ℕ) {w : Service} (hw : Finished (s.service u) → Finished w) :
    VoiceInv (s.setService u w) := by
  refine h.of_service rfl rfl rfl rfl rfl fun v hv => ?_
  refine (h.gone v hv).of_service rfl (fun huv => hw ?_) (fun c hc => Or.inl hc) fun a ha => Or.inl ha
  rw [huv]
  exact (h.gone v hv).sessions

theorem VoiceInv.arrive (h : VoiceInv s) {u : ℕ} (hu : s.bound u = true) (data : Packet) (answers : Option Command) :
    VoiceInv { s with arrived := s.arrived ++ [⟨u, data, answers⟩] } := by
  refine h.of_service rfl rfl rfl rfl rfl fun v hv => ?_
  refine ⟨(h.gone v hv).creating, fun a ha => ?_, (h.gone v hv).sessions⟩
  rcases List.mem_append.mp ha with hold | hnew
  · exact (h.gone v hv).arrived a hold
  · rw [List.mem_singleton.mp hnew]
    rintro rfl
    exact h.not_gone hu hv

theorem VoiceInv.reply (h : VoiceInv s) (u : ℕ) (status : BitVec 32) (srcPort : BitVec 16) :
    VoiceInv (arriveReply u status srcPort s) := by
  unfold arriveReply
  cases hc : (s.service u).unanswered with
  | nil => exact h
  | cons c rest =>
      have hanswer : VoiceInv (s.setService u (dspAnswer c status srcPort (s.service u))) := by
        refine h.within u fun hf => ?_
        rw [Finished, (dspAnswer_kept c status srcPort (s.service u)).2.1]
        exact hf
      by_cases hu : s.bound u = true
      · exact (congrArg VoiceInv (if_pos hu)).mpr (hanswer.arrive hu _ _)
      · exact (congrArg VoiceInv (if_neg hu)).mpr hanswer

theorem VoiceInv.packet (h : VoiceInv s) (u : ℕ) (data : Packet) : VoiceInv (arrivePacket u data s) := by
  unfold arrivePacket
  split_ifs with hu
  · exact h.arrive hu data none
  · exact h

theorem VoiceInv.deliver (h : VoiceInv s) (k : ℕ) : VoiceInv (Q6common.deliver k s) := by
  unfold Q6common.deliver
  cases hk : s.arrived[k]? with
  | none => exact h
  | some a =>
      refine h.of_service rfl rfl rfl rfl rfl fun v hv => ?_
      have hne : a.service ≠ v := (h.gone v hv).arrived a (List.mem_of_getElem? hk)
      exact (h.gone v hv).of_service rfl (fun heq => absurd heq hne) (fun c hc => Or.inl hc)
        fun a' ha' => Or.inl (List.mem_of_mem_eraseIdx ha')

theorem VoiceInv.kept (h : VoiceInv s) {a : VoiceAct} (ha : RemovesUnreferenced s a) : VoiceInv (voiceStep s a) := by
  cases a with
  | probe type => exact h.probe type
  | remove v => exact h.remove ha
  | create type path => exact h.create type path
  | init k alloc => exact h.init k alloc
  | own v i ch => exact h.within v fun hf => hf.own i ch
  | reply v status srcPort => exact h.reply v status srcPort
  | packet v data => exact h.packet v data
  | deliver k => exact h.deliver k
  | handle v k => exact h.within v fun hf => hf.handled (handlePacket_handled k _)
  | finish v k => exact h.within v fun hf => hf.handled (finishCallback_handled k _)

theorem VoiceInv.safe (h : VoiceInv s) (a : VoiceAct) : Safe s a := by
  intro v hv
  rw [Bool.eq_false_iff]
  intro hr
  have hfree : Unreferenced s v := h.gone v (Or.inl hr)
  cases a with
  | probe type =>
      cases hv
      exact Nat.lt_irrefl _ (h.removed s.next hr)
  | remove u =>
      dsimp only [touched] at hv
      split_ifs at hv with hu
      cases hv
      exact h.not_gone hu (Or.inl hr)
  | init k alloc =>
      obtain ⟨c, hk, hc⟩ := Option.bind_eq_some_iff.mp hv
      split_ifs at hc
      cases hc
      exact hfree.creating c (List.mem_of_getElem? hk) rfl
  | own u i ch =>
      obtain ⟨x, hx, htouch⟩ := Option.bind_eq_some_iff.mp hv
      split_ifs at htouch with htouches
      cases htouch
      exact Bool.false_ne_true ((touches_of_finished (hfree.sessions i x hx)).symm.trans htouches)
  | deliver k =>
      obtain ⟨a, hk, ha⟩ := Option.map_eq_some_iff.mp hv
      exact hfree.arrived a (List.mem_of_getElem? hk) ha
  | create | reply | packet | handle | finish => cases hv

/-- Only the `kref_put` may be left to do. -/
theorem VoiceInv.releasable (h : VoiceInv s) : Releasable s := by
  intro v i x hr hx hfailed
  have hfinished : x.owner.finished = true := (h.gone v (Or.inl hr)).sessions i x hx
  cases ho : x.owner with
  | failed ret => exact absurd ho (hfailed ret)
  | putting =>
      refine ⟨[.proceed], ⟨h.safe _, trivial⟩, { krefPut x with owner := .done }, ?_, rfl⟩
      have hput : step (s.service v) (.own i .proceed) = (s.service v).store i { krefPut x with owner := .done } := by
        simp only [step, hx, ownerStep, ho]
      change (Function.update s.service v _ v).heap i = _
      rw [Function.update_self, hput, store_self]
  | done => exact ⟨[], trivial, x, hx, ho⟩
  | _ =>
      rw [ho] at hfinished
      cases hfinished

theorem not_safe_of_touched {v : ℕ} {a : VoiceAct} (hr : s.removed v = true) (ht : touched s a = some v) : ¬Safe s a :=
  fun h => Bool.false_ne_true ((h v ht).symm.trans hr)

/-- An owner that touches nothing removed does not get past the slot. -/
theorem not_releases {v i : ℕ} {x : Cell} (hr : s.removed v = true) (hx : (s.service v).heap i = some x)
    (h : x.owner.finished = false) : ¬Releases s v i := by
  rintro ⟨chs, hsafe, x', hx', hdone⟩
  induction chs generalizing s x with
  | nil =>
      cases hx.symm.trans hx'
      rw [hdone] at h
      cases h
  | cons ch chs ih =>
      obtain ⟨hch, hrest⟩ := hsafe
      have htouch : x.owner.touches ch = false := by
        rw [Bool.eq_false_iff]
        intro ht
        have htouched : touched s (.own v i ch) = some v := by simp only [touched, hx, Option.bind_some, if_pos ht]
        exact not_safe_of_touched hr htouched hch
      obtain ⟨y, hy, hfin⟩ := moved_not_finished hx (ownerStep_moved ch (s.service v) i x) htouch h
      have hstep : ((voiceStep s (.own v i ch)).service v).heap i = some y := by
        change (Function.update s.service v _ v).heap i = _
        rw [Function.update_self, step, hx]
        exact hy
      exact ih (s := voiceStep s (.own v i ch)) hr hstep hfin hrest hx'

/-- A service that may be removed, whatever follows, is not referred to. -/
theorem unreferenced_of_outlives {v : ℕ} (hv : s.bound v = true)
    (h : ∀ bs, Always voiceStep Outlives s (.remove v :: bs)) : Unreferenced s v := by
  have hremove : voiceStep s (.remove v) = remove v s := rfl
  have hr : (remove v s).removed v = true := by
    rw [remove, if_pos hv]
    exact Function.update_self ..
  have hsame : (remove v s).creating = s.creating ∧ (remove v s).arrived = s.arrived ∧
      (remove v s).service = s.service := by
    rw [remove, if_pos hv]
    exact ⟨rfl, rfl, rfl⟩
  obtain ⟨hcreating, harrived, hservice⟩ := hsame
  -- what still has the pointer goes on, and touches it
  constructor
  · intro c hc hcv
    obtain ⟨k, hk, hget⟩ := List.mem_iff_getElem.mp hc
    obtain ⟨-, ⟨hsafe, -⟩, -⟩ := h [.init k true]
    have htouched : touched (remove v s) (.init k true) = some v := by
      rw [touched, hcreating, List.getElem?_eq_getElem hk, hget, ← hcv]
      rfl
    exact not_safe_of_touched hr htouched hsafe
  · intro a ha hav
    obtain ⟨k, hk, hget⟩ := List.mem_iff_getElem.mp ha
    obtain ⟨-, ⟨hsafe, -⟩, -⟩ := h [.deliver k]
    have htouched : touched (remove v s) (.deliver k) = some v := by
      rw [touched, harrived, List.getElem?_eq_getElem hk, hget, ← hav]
      rfl
    exact not_safe_of_touched hr htouched hsafe
  · intro i x hx
    by_contra hfin
    obtain ⟨⟨-, hreleasable⟩, -⟩ := h []
    have hfin : x.owner.finished = false := Bool.eq_false_iff.mpr hfin
    have hx : ((remove v s).service v).heap i = some x := by rw [hservice, hx]
    refine not_releases hr hx hfin (hreleasable v i x hr hx ?_)
    intro ret hret
    rw [hret] at hfin
    cases hfin

end

/-- Services outlive their sessions in every run that removes them only when nothing refers to them, and a remove at
any other time can end in an access to what it has freed, or in a session that cannot be released. -/
theorem voice_outlives (as : List VoiceAct) :
    (Always voiceStep RemovesUnreferenced voiceInit as → Always voiceStep Outlives voiceInit as) ∧
    ∀ v, (run voiceStep voiceInit as).bound v = true →
      (∀ bs, Always voiceStep Outlives voiceInit (as ++ .remove v :: bs)) →
      Unreferenced (run voiceStep voiceInit as) v := by
  constructor
  · intro h
    refine always_of_invariant (I := VoiceInv) (fun s a hs ha => hs.kept ha) (fun s a hs ha => ?_) voiceInit_inv h
    exact ⟨hs.safe a, (hs.kept ha).releasable⟩
  · intro v hv h
    exact unreferenced_of_outlives hv fun bs => (always_append.mp (h bs)).2

/-- A session is created and released, its commands answered. -/
def createAndRelease : List VoiceAct :=
  [.probe .cvp, .create .cvp .voice, .init 0 true, .own 0 0 .proceed, .own 0 0 .proceed, .own 0 0 .proceed,
    .reply 0 0 5, .deliver 0, .handle 0 0, .finish 0 0, .own 0 0 .proceed, .own 0 0 .proceed, .own 0 0 .proceed,
    .own 0 0 .release, .own 0 0 .proceed, .own 0 0 .proceed, .own 0 0 .proceed, .reply 0 0 5, .deliver 0, .handle 0 0,
    .finish 0 0, .own 0 0 .proceed, .own 0 0 .proceed, .own 0 0 .proceed, .own 0 0 .proceed, .own 0 0 .proceed]

/-- Then its service can be removed and probed again, and the next session runs on the new one. -/
theorem voice_outlives_released :
    Always voiceStep Outlives voiceInit
      (createAndRelease ++ [.remove 0, .probe .cvp, .create .cvp .voice, .init 0 true]) := by
  have hreleased : Always voiceStep RemovesUnreferenced voiceInit createAndRelease := by
    simp only [createAndRelease, Always, RemovesUnreferenced, and_self]
  have hunreferenced : Unreferenced (run voiceStep voiceInit createAndRelease) 0 := by
    refine ⟨fun _ hc => absurd hc List.not_mem_nil, fun _ ha => absurd ha List.not_mem_nil, fun i x hx => ?_⟩
    cases i with
    | zero =>
        cases hx
        rfl
    | succ i =>
        have hnone : none = some x := hx
        cases hnone
  exact (voice_outlives _).1 (always_append.mpr ⟨hreleased, fun _ => hunreferenced, trivial, trivial, trivial, trivial⟩)

/-- A session is created, the service is removed and probed again, and the session is released. -/
def releaseAfterRemove : List VoiceAct :=
  [.probe .cvp, .create .cvp .voice, .init 0 true, .own 0 0 .proceed, .own 0 0 .proceed, .own 0 0 .proceed,
    .reply 0 0 5, .deliver 0, .handle 0 0, .finish 0 0, .own 0 0 .proceed, .own 0 0 .proceed, .own 0 0 .proceed,
    .remove 0, .probe .cvp, .own 0 0 .release, .own 0 0 .proceed, .own 0 0 .proceed, .own 0 0 .proceed]

/-- `APRV2_IBASIC_CMD_DESTROY_SESSION` is sent through the service that was removed. -/
theorem releaseAfterRemove_not_outlives : ¬Always voiceStep Outlives voiceInit releaseAfterRemove := by
  rintro ⟨-, -, -, -, -, -, -, -, -, -, -, -, -, -, -, -, -, -, ⟨hsafe, -⟩, -⟩
  exact absurd (hsafe 0 (by decide)) (by decide)

end Sirius.Q6common
