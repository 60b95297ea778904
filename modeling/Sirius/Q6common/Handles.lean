import Sirius.Q6common.Pending

/-!
# What becomes of the handles the DSP allocates

A handle travels only in the reply to a create. While no create gives up on its reply, the
session that sent it takes the handle over, and keeps it until it has sent a destroy. After
a timeout the reply finds nobody, or the next session on the path.
-/
namespace Sirius.Q6common
open Q6voice (PathType)
open SharedSlots Runs

def Destroyed (log : List Event) (i : ℕ) (handle : BitVec 16) : Prop :=
  ∃ d, .sent d ∈ log ∧ d.opcode = .destroy ∧ d.session = i ∧ d.destPort = handle

def Service.Registered (v : Service) (i : ℕ) (handle : BitVec 16) : Prop :=
  ∃ x, v.heap i = some x ∧ v.sessions x.session.port = some i ∧ x.session.handle = handle

def Owner.sending : Owner → Bool
  | .send _ | .transmit _ | .wait _ | .timedOut _ | .woken _ => true
  | _ => false

/-- No send in progress and no reply on its way. -/
structure Quiescent (v : Service) : Prop where
  sends : ∀ i x, v.heap i = some x → x.owner.sending = false
  unanswered : v.unanswered = []
  callbacks : v.callbacks = []

/-- Every handle allocated is that of the registered session that asked for it, or destroyed. -/
def NoneLeaked (v : Service) : Prop :=
  Quiescent v → ∀ c handle, .allocated c handle ∈ v.log →
    v.Registered c.session handle ∨ Destroyed v.log c.session handle

/-- No create times out, and no destroy is refused by `apr_send_pkt`. -/
structure NoLoss (v : Service) (a : DspAction) : Prop where
  create : ∀ i x c, a.1 = .own i .timeout → v.heap i = some x → x.owner = .wait c → c.opcode = .create →
    x.session.expectedOpcode = none
  destroy : ∀ i x h ret, a.1 = .own i (.sendFails ret) → v.heap i = some x → x.owner = .transmit h →
    h.opcode = .destroy → 0 ≤ ret

/-- A session whose owner is here has yet to destroy its handle. -/
def Owner.keeps : Owner → Prop
  | .send _ | .transmit _ | .holding | .releasing => True
  | .wait c | .timedOut c | .woken c => c.opcode ≠ .destroy
  | .returned op _ => op ≠ .destroy
  | _ => False

theorem Owner.keeps.resident {o : Owner} (h : o.keeps) : o.stage = .resident := by
  cases o <;> first | rfl | exact h.elim

/-- What holds of a session before it sends a create or a destroy. -/
def Cell.Ready (x : Cell) : Prop :=
  match x.owner with
  | .allocated | .send .create => x.session.handle = 0 ∧ x.session.expectedOpcode = none
  | .send .destroy => x.session.handle ≠ 0
  | .transmit h =>
      (h.opcode = .create → x.session.expectedOpcode = some .create ∧ x.session.handle = 0 ∧
        h.srcPort = port x.session.port) ∧
      (h.opcode = .destroy → h.destPort = x.session.handle ∧ x.session.handle ≠ 0)
  | _ => True

structure Cell.Creating (x : Cell) (c : Command) : Prop where
  owner : x.owner = .wait c
  expected : x.session.expectedOpcode = some .create
  handle : x.session.handle = 0
  port : c.srcPort = port x.session.port

structure Cell.Keeps (x : Cell) (c : Command) (handle : BitVec 16) : Prop where
  handle : x.session.handle = handle
  owner : x.owner.keeps
  port : c.srcPort = port x.session.port

/-- The handle is in a reply, with its session, or destroyed. -/
inductive Service.Accounts (v : Service) (c : Command) (handle : BitVec 16) : Prop
  | coming (cb : Callback) (hcb : cb ∈ v.callbacks) (hp : cb.pending = some c) (hs : cb.data.srcPort = handle)
  | kept (x : Cell) (hx : v.heap c.session = some x) (hk : x.Keeps c handle)
  | destroyed (hd : Destroyed v.log c.session handle)

structure Accounted (v : Service) : Prop where
  echoes : Echoes v
  ready : ∀ i x, v.heap i = some x → x.Ready
  creating : ∀ c ∈ v.pending, c.opcode = .create → ∃ x, v.heap c.session = some x ∧ x.Creating c
  own : ∀ cb ∈ v.callbacks, ∀ c, cb.pending = some c → c.opcode = .create → cb.session = c.session
  nodup : v.pending.Nodup
  serial : ∀ c ∈ v.pending, c.serial < v.serial
  handles : ∀ c handle, .allocated c handle ∈ v.log → c.opcode = .create ∧ handle ≠ 0 ∧ v.Accounts c handle

theorem q6voiceCommonProbe_accounted : Accounted q6voiceCommonProbe := by
  constructor
  case echoes => exact fun _ hcb => absurd hcb List.not_mem_nil
  case ready =>
    intro i x hx
    cases hx
  case creating => exact fun _ hc => absurd hc List.not_mem_nil
  case own => exact fun _ hcb => absurd hcb List.not_mem_nil
  case nodup => exact List.nodup_nil
  case serial => exact fun _ hc => absurd hc List.not_mem_nil
  case handles => exact fun _ _ he => absurd he List.not_mem_nil

/-- What a change of session `i` has to keep for the handles to stay accounted for. -/
structure Advances (w : Service) (i : ℕ) (x x' : Cell) : Prop where
  port : x'.session.port = x.session.port
  creating : ∀ c ∈ w.pending, c.opcode = .create → x.Creating c → x'.Creating c
  kept : x.owner.keeps → x.session.handle ≠ 0 →
    (x'.session.handle = x.session.handle ∧ x'.owner.keeps) ∨ Destroyed w.log i x.session.handle

section
variable {v w : Service} {i : ℕ} {x' : Cell}

theorem Advances.of_heap {x : Cell} (h : Advances w i x x') (hx : v.heap i = some x) (y : Cell)
    (hy : v.heap i = some y) : Advances w i y x' := by
  rw [hx] at hy
  cases hy
  exact h

theorem creating_of_store (hheap : w.heap = (v.store i x').heap) (hadv : ∀ x, v.heap i = some x → Advances w i x x')
    {c : Command} (hc : c ∈ w.pending) (hop : c.opcode = .create)
    (h : ∃ x, v.heap c.session = some x ∧ x.Creating c) : ∃ x, w.heap c.session = some x ∧ x.Creating c := by
  obtain ⟨x, hx, hcreating⟩ := h
  rw [hheap]
  by_cases hi : c.session = i
  · rw [hi] at hx ⊢
    exact ⟨x', store_self v i x', (hadv x hx).creating c hc hop hcreating⟩
  · exact ⟨x, (store_ne v hi x').trans hx, hcreating⟩

theorem accounts_of_store (hheap : w.heap = (v.store i x').heap) (hadv : ∀ x, v.heap i = some x → Advances w i x x')
    (hlog : v.log ⊆ w.log) {c : Command} {handle : BitVec 16} (hne : handle ≠ 0)
    (hcb : ∀ cb ∈ v.callbacks, cb.pending = some c → cb.data.srcPort = handle → w.Accounts c handle)
    (h : v.Accounts c handle) : w.Accounts c handle := by
  cases h with
  | coming cb hmem hp hs => exact hcb cb hmem hp hs
  | kept x hx hk =>
      by_cases hi : c.session = i
      · rw [hi] at hx
        have hport : c.srcPort = port x'.session.port := by
          rw [(hadv x hx).port]
          exact hk.port
        rcases (hadv x hx).kept hk.owner (hk.handle ▸ hne) with ⟨hh, ho⟩ | hd
        · exact .kept x' (by rw [hheap, hi, store_self]) ⟨hh.trans hk.handle, ho, hport⟩
        · rw [hk.handle, ← hi] at hd
          exact .destroyed hd
      · exact .kept x (by rw [hheap, store_ne v hi, hx]) hk
  | destroyed hd =>
      obtain ⟨d, hsent, hop⟩ := hd
      exact .destroyed ⟨d, hlog hsent, hop⟩

theorem ready_of_store (h : ∀ i x, v.heap i = some x → x.Ready) (hheap : w.heap = (v.store i x').heap)
    (hready : x'.Ready) (j : ℕ) (y : Cell) (hy : w.heap j = some y) : y.Ready := by
  rw [hheap] at hy
  by_cases hj : j = i
  · rw [hj, store_self] at hy
    cases hy
    exact hready
  · rw [store_ne v hj] at hy
    exact h j y hy

/-- One session changes, nothing new is pending, and what is newly allocated is accounted for. -/
theorem Accounted.of_store (h : Accounted v) (hechoes : Echoes w) (hheap : w.heap = (v.store i x').heap)
    (hadv : ∀ x, v.heap i = some x → Advances w i x x') (hready : x'.Ready) (hpending : w.pending.Sublist v.pending)
    (hserial : w.serial = v.serial) (hlog : v.log ⊆ w.log)
    (halloc : ∀ c handle, .allocated c handle ∈ w.log → .allocated c handle ∈ v.log ∨
      (c.opcode = .create ∧ handle ≠ 0 ∧ w.Accounts c handle))
    (hown : ∀ cb ∈ w.callbacks, ∀ c, cb.pending = some c → c.opcode = .create → cb.session = c.session)
    (hcb : ∀ c handle, handle ≠ 0 → c.opcode = .create →
      ∀ cb ∈ v.callbacks, cb.pending = some c → cb.data.srcPort = handle → w.Accounts c handle) :
    Accounted w := by
  constructor
  case echoes => exact hechoes
  case ready => exact ready_of_store h.ready hheap hready
  case creating =>
    intro c hc hop
    exact creating_of_store hheap hadv hc hop (h.creating c (hpending.subset hc) hop)
  case own => exact hown
  case nodup => exact hpending.nodup h.nodup
  case serial =>
    intro c hc
    rw [hserial]
    exact h.serial c (hpending.subset hc)
  case handles =>
    intro c handle he
    rcases halloc c handle he with he | hnew
    · obtain ⟨hop, hne, hacc⟩ := h.handles c handle he
      exact ⟨hop, hne, accounts_of_store hheap hadv hlog hne (hcb c handle hne hop) hacc⟩
    · exact hnew

/-- One owner moves on, and nothing is sent. -/
theorem Accounted.of_own {x : Cell} (h : Accounted v) (hechoes : Echoes w) (hx : v.heap i = some x)
    (hheap : w.heap = (v.store i x').heap) (hcallbacks : w.callbacks = v.callbacks)
    (hunanswered : w.unanswered = v.unanswered) (hserial : w.serial = v.serial) (hlog : v.log ⊆ w.log)
    (halloc : ∀ c handle, .allocated c handle ∈ w.log → .allocated c handle ∈ v.log) (hready : x'.Ready)
    (hport : x'.session.port = x.session.port) (hwait : ∀ c, c.opcode = .create → ¬ x.Creating c)
    (hkept : x.owner.keeps → x.session.handle ≠ 0 → x'.session.handle = x.session.handle ∧ x'.owner.keeps) :
    Accounted w := by
  have hpending : w.pending = v.pending := by
    rw [Service.pending, hcallbacks, hunanswered, Service.pending]
  have hadv : Advances w i x x' :=
    ⟨hport, fun c _ hop hc => absurd hc (hwait c hop), fun hk hne => Or.inl (hkept hk hne)⟩
  refine h.of_store hechoes hheap (hadv.of_heap hx) hready (hpending ▸ List.Sublist.refl _) hserial hlog
    (fun c handle he => Or.inl (halloc c handle he)) ?_ ?_
  · rw [hcallbacks]
    exact h.own
  · intro c handle _ _ cb hcb hp hs
    exact .coming cb (hcallbacks ▸ hcb) hp hs

end

section
variable {v : Service} {i : ℕ} {x : Cell}

/-- Pending commands have smaller serial numbers than the next one. -/
theorem Accounted.nodup_sent (h : Accounted v) {c : Command} (hc : c.serial = v.serial) : (v.pending ++ [c]).Nodup := by
  rw [List.nodup_append]
  refine ⟨h.nodup, List.pairwise_singleton .., ?_⟩
  rintro d hd c' hc' rfl
  have hlt := h.serial d hd
  rw [List.mem_singleton.mp hc', hc] at hlt
  exact absurd hlt (Nat.lt_irrefl _)

/-- The session has its handle until its destroy has been sent. -/
theorem sendPacket_advances (h : Accounted v) (hx : v.heap i = some x) {hdr : Header}
    (ho : x.owner = .transmit hdr) :
    Advances (sendPacket hdr v i x) i x { x with owner := .wait ⟨hdr, v.serial, i⟩ } := by
  have hready := h.ready i x hx
  rw [Cell.Ready, ho] at hready
  have hsent : .sent ⟨hdr, v.serial, i⟩ ∈ (sendPacket hdr v i x).log := List.mem_append_right _ List.mem_cons_self
  refine ⟨rfl, fun c _ _ hc => (by cases ho.symm.trans hc.owner), fun _ _ => ?_⟩
  by_cases hop : hdr.opcode = .destroy
  · exact Or.inr ⟨⟨hdr, v.serial, i⟩, hsent, hop, rfl, (hready.2 hop).1⟩
  · exact Or.inl ⟨rfl, hop⟩

theorem sendPacket_accounted (h : Accounted v) (hx : v.heap i = some x) {hdr : Header}
    (ho : x.owner = .transmit hdr) (hechoes : Echoes (sendPacket hdr v i x)) :
    Accounted (sendPacket hdr v i x) := by
  have hready := h.ready i x hx
  rw [Cell.Ready, ho] at hready
  have hpending := sendPacket_pending hdr v i x
  have hlog : v.log ⊆ (sendPacket hdr v i x).log := List.subset_append_left ..
  have hadv := (sendPacket_advances h hx ho).of_heap hx
  constructor
  case echoes => exact hechoes
  case ready => exact ready_of_store h.ready rfl trivial
  case creating =>
    intro c hc hop
    have hc₁ := hc
    rw [hpending] at hc
    rcases List.mem_append.mp hc with hc' | hc'
    · exact creating_of_store (w := sendPacket hdr v i x) rfl hadv hc₁ hop (h.creating c hc' hop)
    · cases List.mem_singleton.mp hc'
      obtain ⟨hexpected, hhandle, hport⟩ := hready.1 hop
      exact ⟨_, store_self v i _, rfl, hexpected, hhandle, hport⟩
  case own => exact h.own
  case nodup => exact hpending ▸ h.nodup_sent rfl
  case serial =>
    intro c hc
    rw [hpending] at hc
    rcases List.mem_append.mp hc with hc | hc
    · exact Nat.lt_succ_of_lt (h.serial c hc)
    · rw [List.mem_singleton.mp hc]
      exact Nat.lt_succ_self _
  case handles =>
    intro c handle he
    rcases List.mem_append.mp he with he | he
    · obtain ⟨hop, hne, hacc⟩ := h.handles c handle he
      exact ⟨hop, hne, accounts_of_store (w := sendPacket hdr v i x) rfl hadv hlog hne
        (fun cb hcb hp hs => .coming cb hcb hp hs) hacc⟩
    · cases List.mem_singleton.mp he

theorem afterSend_keeps (s : Session) {op : Opcode} (hop : op ≠ .destroy) (ret : ℤ) : (afterSend s op ret).keeps := by
  unfold afterSend
  cases op with
  | create => split_ifs <;> trivial
  | destroy => exact absurd rfl hop
  | command n => trivial

theorem afterSend_ready (s : Session) (op : Opcode) (ret : ℤ) : { x with owner := afterSend s op ret }.Ready := by
  unfold afterSend
  cases op with
  | create => split_ifs <;> trivial
  | destroy => trivial
  | command n => trivial

/-- The owner moves on with the session in hand, which keeps its port and its handle. -/
theorem Accounted.of_move {x' : Cell} (h : Accounted v) (hx : v.heap i = some x) (hechoes : Echoes (v.store i x'))
    (hready : x'.Ready) (hport : x'.session.port = x.session.port) (hhandle : x'.session.handle = x.session.handle)
    (hwait : ∀ c, x.owner = .wait c → c.opcode = .create → x.session.expectedOpcode = none)
    (hkept : x.owner.keeps → x.session.handle ≠ 0 → x'.owner.keeps) : Accounted (v.store i x') := by
  refine h.of_own hechoes hx rfl rfl rfl rfl (List.Subset.refl _) (fun _ _ he => he) hready hport (fun c hop hc => ?_)
    fun hk hne => ⟨hhandle, hkept hk hne⟩
  exact nomatch (hwait c hc.owner hop).symm.trans hc.expected

theorem registerSession_accounted (h : Accounted v) (hx : v.heap i = some x) (ho : x.owner = .allocated)
    (hechoes : Echoes (registerSession v i x)) : Accounted (registerSession v i x) := by
  have hready := h.ready i x hx
  rw [Cell.Ready, ho] at hready
  have hgone : ¬x.owner.keeps := by
    rw [ho]
    exact id
  unfold registerSession at hechoes ⊢
  split_ifs at hechoes ⊢
  · exact h.of_move hx hechoes trivial rfl rfl (fun c hc => nomatch ho.symm.trans hc) fun hk => absurd hk hgone
  · exact h.of_own hechoes hx rfl rfl rfl rfl (List.Subset.refl _) (fun _ _ he => he) hready rfl
      (fun c _ hc => nomatch ho.symm.trans hc.owner) fun hk => absurd hk hgone

theorem expectReply_accounted {op : Opcode} (h : Accounted v) (hx : v.heap i = some x) (ho : x.owner = .send op)
    (hechoes : Echoes (v.store i (expectReply op x))) : Accounted (v.store i (expectReply op x)) := by
  have hready := h.ready i x hx
  rw [Cell.Ready, ho] at hready
  refine h.of_move hx hechoes ⟨?_, ?_⟩ rfl rfl (fun c hc => nomatch ho.symm.trans hc) fun _ _ => trivial
  · rintro rfl
    exact ⟨rfl, hready.1, rfl⟩
  · rintro rfl
    exact ⟨rfl, hready⟩

/-- The wait for a reply ends, that for the reply to a create only when it has come. -/
theorem waited_accounted {c : Command} {o : Owner} (h : Accounted v) (hx : v.heap i = some x) (ho : x.owner = .wait c)
    (hcreate : c.opcode = .create → x.session.expectedOpcode = none) (hended : o = .woken c ∨ o = .timedOut c)
    (hechoes : Echoes (v.store i { x with owner := o })) : Accounted (v.store i { x with owner := o }) := by
  refine h.of_move hx hechoes ?_ rfl rfl (fun c' hc hop => ?_) fun hk _ => ?_
  · obtain rfl | rfl := hended
    · trivial
    · trivial
  · cases ho.symm.trans hc
    exact hcreate hop
  · rw [ho] at hk
    obtain rfl | rfl := hended
    · exact hk
    · exact hk

theorem returned_accounted {c : Command} {ret : ℤ} {x' : Cell} (h : Accounted v) (hx : v.heap i = some x)
    (ho : x.owner = .timedOut c ∨ x.owner = .woken c) (hport : x'.session.port = x.session.port)
    (hhandle : x'.session.handle = x.session.handle) (ho' : x'.owner = .returned c.opcode ret)
    (hechoes : Echoes ((v.store i x').record (.returned c ret))) :
    Accounted ((v.store i x').record (.returned c ret)) := by
  have hready : x'.Ready := by
    rw [Cell.Ready, ho']
    trivial
  have hnot : ∀ c', x.owner ≠ .wait c' := by
    intro c' hwait
    rw [hwait] at ho
    obtain ho | ho := ho
    · cases ho
    · cases ho
  refine h.of_own hechoes hx rfl rfl rfl rfl (List.subset_append_left ..) (fun c' handle he => ?_) hready hport
    (fun c' _ hc => hnot c' hc.owner) fun hk _ => ⟨hhandle, ?_⟩
  · exact (List.mem_append.mp he).resolve_right fun he => nomatch List.mem_singleton.mp he
  · rw [ho']
    obtain ho | ho := ho
    · rw [ho] at hk
      exact hk
    · rw [ho] at hk
      exact hk

theorem unregisterSession_accounted (h : Accounted v) (hx : v.heap i = some x) (ho : x.owner = .unregistering)
    (hechoes : Echoes (unregisterSession v i x)) : Accounted (unregisterSession v i x) := by
  refine h.of_own hechoes hx rfl rfl rfl rfl (List.Subset.refl _) (fun _ _ he => he) trivial rfl
    (fun c _ hc => nomatch ho.symm.trans hc.owner) fun hk _ => ?_
  rw [ho] at hk
  exact hk.elim

theorem own_accounted {ch : Choice} {w : Service} (h : Accounted v) (hx : v.heap i = some x) (hechoes : Echoes w)
    (hcreate : ∀ c, ch = .timeout → x.owner = .wait c → c.opcode = .create → x.session.expectedOpcode = none)
    (hdestroy : ∀ hdr ret, ch = .sendFails ret → x.owner = .transmit hdr → hdr.opcode = .destroy → 0 ≤ ret)
    (hm : Moved v i x ch w) : Accounted w := by
  cases hm with
  | stays ch => exact h
  | register ho => exact registerSession_accounted h hx ho hechoes
  | expect op ho => exact expectReply_accounted h hx ho hechoes
  | transmit hdr ho => exact sendPacket_accounted h hx ho hechoes
  | sendFails hdr ret ho hret =>
      refine h.of_move hx hechoes trivial rfl rfl (fun c hc => nomatch ho.symm.trans hc) fun _ _ hop => ?_
      exact absurd hret (not_lt.mpr (hdestroy hdr ret rfl ho hop))
  | wake c ho hop => exact waited_accounted h hx ho (fun _ => hop) (.inl rfl) hechoes
  | timeout c ho hop => exact waited_accounted h hx ho (hcreate c rfl ho) (.inr rfl) hechoes
  | clear c ho => exact returned_accounted h hx (.inl ho) rfl rfl rfl hechoes
  | read c ret ho hret => exact returned_accounted h hx (.inr ho) rfl rfl rfl hechoes
  | resume op ret ho =>
      refine h.of_move hx hechoes (afterSend_ready ..) rfl rfl (fun c hc => nomatch ho.symm.trans hc) fun hk _ => ?_
      rw [ho] at hk
      exact afterSend_keeps _ hk ret
  | command n ho =>
      exact h.of_move hx hechoes trivial rfl rfl (fun c hc => nomatch ho.symm.trans hc) fun _ _ => trivial
  | release ho =>
      exact h.of_move hx hechoes trivial rfl rfl (fun c hc => nomatch ho.symm.trans hc) fun _ _ => trivial
  | destroy ho hh => exact h.of_move hx hechoes hh rfl rfl (fun c hc => nomatch ho.symm.trans hc) fun _ _ => trivial
  | leave ho hh =>
      exact h.of_move hx hechoes trivial rfl rfl (fun c hc => nomatch ho.symm.trans hc) fun _ hne => absurd hh hne
  | unregister ho => exact unregisterSession_accounted h hx ho hechoes
  | put ho =>
      refine h.of_move hx hechoes trivial rfl rfl (fun c hc => nomatch ho.symm.trans hc) fun hk _ => ?_
      rw [ho] at hk
      exact hk.elim

end

theorem allocated_dspAnswer {c c' : Command} {status : BitVec 32} {srcPort handle : BitVec 16} {v : Service}
    (h : .allocated c' handle ∈ (dspAnswer c status srcPort v).log) :
    .allocated c' handle ∈ v.log ∨ (c' = c ∧ handle = srcPort ∧ c.opcode = .create ∧ srcPort ≠ 0) := by
  unfold dspAnswer at h
  dsimp only at h
  split_ifs at h with hnew
  · rcases List.mem_append.mp h with h | h
    · rcases List.mem_append.mp h with h | h
      · exact Or.inl h
      · cases List.mem_singleton.mp h
        exact Or.inr ⟨rfl, rfl, hnew.1, hnew.2.2⟩
    · cases List.mem_singleton.mp h
  · rcases List.mem_append.mp h with h | h
    · exact Or.inl h
    · cases List.mem_singleton.mp h

/-- The session that waits for the reply to its create is in the slot the reply goes to. -/
theorem creating_slot {v : Service} (hv : Inv v.table) (h : Accounted v) {c : Command} (hc : c ∈ v.pending)
    (hop : c.opcode = .create) {path : PathType} (hpath : ofPort c.srcPort = some path) :
    ∃ x, v.heap c.session = some x ∧ x.Creating c ∧ v.sessions path = some c.session := by
  obtain ⟨x, hx, hcreating⟩ := h.creating c hc hop
  have hport : x.session.port = path :=
    port_inj (hcreating.port.symm.trans (port_of_ofPort hpath))
  have hstage : x.owner.stage = .resident := congrArg Owner.stage hcreating.owner
  exact ⟨x, hx, hcreating, ((counted_of_inv hv).slot path c.session).mpr ⟨x, hx, hport, hstage⟩⟩

theorem advances_of_count {w : Service} {i : ℕ} {x x' : Cell} (howner : x'.owner = x.owner)
    (hport : x'.session.port = x.session.port) (hhandle : x'.session.handle = x.session.handle)
    (hexpected : x'.session.expectedOpcode = x.session.expectedOpcode) : Advances w i x x' := by
  refine ⟨hport, fun c _ _ hc => ⟨howner.trans hc.owner, hexpected.trans hc.expected, hhandle.trans hc.handle, ?_⟩,
    fun hk _ => Or.inl ⟨hhandle, howner ▸ hk⟩⟩
  rw [hport]
  exact hc.port

/-- Something arrives, and no session changes. -/
theorem Accounted.of_log {v w : Service} (h : Accounted v) (hechoes : Echoes w) (hheap : w.heap = v.heap)
    (hcallbacks : w.callbacks = v.callbacks) (hserial : w.serial = v.serial) (hpending : w.pending.Sublist v.pending)
    (hlog : v.log ⊆ w.log) (halloc : ∀ c handle, .allocated c handle ∈ w.log → .allocated c handle ∈ v.log) :
    Accounted w := by
  constructor
  case echoes => exact hechoes
  case ready => exact hheap ▸ h.ready
  case creating =>
    intro c hc hop
    rw [hheap]
    exact h.creating c (hpending.subset hc) hop
  case own => exact hcallbacks ▸ h.own
  case nodup => exact hpending.nodup h.nodup
  case serial =>
    intro c hc
    rw [hserial]
    exact h.serial c (hpending.subset hc)
  case handles =>
    intro c handle he
    obtain ⟨hop, hne, hacc⟩ := h.handles c handle (halloc c handle he)
    refine ⟨hop, hne, ?_⟩
    cases hacc with
    | coming cb hcb hp hs => exact .coming cb (hcallbacks ▸ hcb) hp hs
    | kept x hx hk => exact .kept x (hheap ▸ hx) hk
    | destroyed hd =>
        obtain ⟨d, hsent, hd⟩ := hd
        exact .destroyed ⟨d, hlog hsent, hd⟩

section
variable {v : Service} {c : Command} {rest : List Command} {status : BitVec 32} {srcPort : BitVec 16}

/-- A reply to a create finds the session that sent it, so the one that is dropped has no handle. -/
theorem dropped_accounted (hv : Inv v.table) (h : Accounted v) (hq : v.unanswered = c :: rest)
    (hechoes : Echoes (dspAnswer c status srcPort v))
    (hpending : (dspAnswer c status srcPort v).pending.Sublist v.pending)
    (hslot : ∀ path i, ofPort c.srcPort = some path → (dspAnswer c status srcPort v).sessions path = some i →
      (dspAnswer c status srcPort v).heap i = none) : Accounted (dspAnswer c status srcPort v) := by
  obtain ⟨hsessions, hheap, -, hcallbacks, hserial⟩ := dspAnswer_kept c status srcPort v
  have hc : c ∈ v.pending := List.mem_append_right _ (hq ▸ List.mem_cons_self)
  have hnot : c.opcode ≠ .create := by
    intro hop
    obtain ⟨x, hx, hcreating⟩ := h.creating c hc hop
    have hpath : ofPort c.srcPort = some x.session.port := by
      rw [hcreating.port, ofPort_port]
    obtain ⟨y, hy, -, hs⟩ := creating_slot hv h hc hop hpath
    have hnone := hslot _ _ hpath (hsessions ▸ hs)
    rw [hheap, hy] at hnone
    cases hnone
  refine h.of_log hechoes hheap hcallbacks hserial hpending (dspAnswer_log c status srcPort v).1 fun c' handle he => ?_
  exact (allocated_dspAnswer he).resolve_right fun hnew => hnot hnew.2.2.1

/-- A reply that finds a session becomes a callback on it, with the handle where there is one. -/
theorem found_accounted {path : PathType} {i : ℕ} {x : Cell} {w : Service} (hv : Inv v.table) (h : Accounted v)
    (hq : v.unanswered = c :: rest) (hport : ofPort c.srcPort = some path) (hslot : v.sessions path = some i)
    (hx : v.heap i = some x)
    (hw : w = { (dspAnswer c status srcPort v).store i (krefGet x) with
      callbacks := v.callbacks ++ [⟨i, c.reply status srcPort, some c, false⟩] })
    (hechoes : Echoes w) (hpending : w.pending.Sublist v.pending) : Accounted w := by
  obtain ⟨-, hheap, -, -, hserial⟩ := dspAnswer_kept c status srcPort v
  have hlog := (dspAnswer_log c status srcPort v).1
  have hc : c ∈ v.pending := List.mem_append_right _ (hq ▸ List.mem_cons_self)
  subst hw
  have hstore := congrArg (fun heap => Function.update heap i (some (krefGet x))) hheap
  have hready : (krefGet x).Ready := h.ready i x hx
  refine h.of_store hechoes hstore (Advances.of_heap (advances_of_count (x := x) rfl rfl rfl rfl) hx) hready hpending
    hserial hlog (fun c' handle he => ?_) ?_ ?_
  · rcases allocated_dspAnswer he with he | ⟨rfl, rfl, hop, hne⟩
    · exact Or.inl he
    · exact Or.inr ⟨hop, hne, .coming _ (List.mem_append_right _ List.mem_cons_self) rfl rfl⟩
  · intro cb hcb c' hp hop
    rcases List.mem_append.mp hcb with hcb | hcb
    · exact h.own cb hcb c' hp hop
    · cases List.mem_singleton.mp hcb
      cases Option.some.inj hp
      obtain ⟨-, -, -, hs⟩ := creating_slot hv h hc hop hport
      exact Option.some.inj (hslot.symm.trans hs)
  · intro c' handle _ _ cb hcb hp hs
    exact .coming cb (List.mem_append_left _ hcb) hp hs

end

theorem reply_accounted {v : Service} (hv : Inv v.table) (h : Accounted v) (status : BitVec 32)
    (srcPort : BitVec 16) : Accounted (dspReply status srcPort v) := by
  have hechoes := reply_echoes hv h.echoes status srcPort
  have hpending := reply_pending status srcPort v
  cases hq : v.unanswered with
  | nil =>
      rw [dspReply, hq]
      exact h
  | cons c rest =>
      rw [dspReply_cons hq] at hechoes hpending ⊢
      obtain ⟨hsessions, hheap, -, hcallbacks, -⟩ := dspAnswer_kept c status srcPort v
      have hfound := lookupSession_found (c.reply status srcPort) (some c) (dspAnswer c status srcPort v)
      generalize lookupSession (c.reply status srcPort) (some c) (dspAnswer c status srcPort v) = w
        at hechoes hpending hfound ⊢
      cases hfound with
      | dropped hslot => exact dropped_accounted hv h hq hechoes hpending hslot
      | found path i x hport hslot hx =>
          exact found_accounted hv h hq hport (hsessions ▸ hslot) (hheap ▸ hx) (by rw [hcallbacks]) hechoes hpending

/-- The expected packet, where the session has no handle yet. -/
theorem sessionCallback_create {data : Packet} {s : Session} (hbasic : data.basic = true)
    (hop : data.opcode = s.expectedOpcode) (hh : s.handle = 0) :
    q6voiceSessionCallback data s =
      { s with handle := data.srcPort, result := data.status, expectedOpcode := none } := by
  rw [q6voiceSessionCallback, hbasic, if_neg (by decide), if_neg (not_not.mpr hop), hh]
  exact if_neg (not_not.mpr rfl)

theorem sessionCallback_handle (data : Packet) {s : Session} (hh : s.handle ≠ 0) :
    (q6voiceSessionCallback data s).handle = s.handle := by
  rcases sessionCallback_cases data s with he | ⟨-, hhandle, he⟩
  · rw [he]
  · rw [he]
    exact (hhandle.resolve_left hh).symm

theorem sessionCallback_ready {x : Cell} {data : Packet} {op : Opcode} {c : Command} (h : x.Ready)
    (hop : data.opcode = some op) (hcreate : op = .create → x.owner = .wait c) :
    { x with session := q6voiceSessionCallback data x.session }.Ready := by
  rcases sessionCallback_cases data x.session with he | ⟨hmatch, -, -⟩
  · rw [he]
    exact h
  · have hexpected : x.session.expectedOpcode = some op := hmatch.symm.trans hop
    unfold Cell.Ready at h ⊢
    cases ho : x.owner with
    | allocated =>
        rw [ho] at h
        exact nomatch h.2.symm.trans hexpected
    | send op' =>
        rw [ho] at h
        cases op' with
        | create => exact nomatch h.2.symm.trans hexpected
        | destroy =>
            intro hz
            exact h ((sessionCallback_handle data h).symm.trans hz)
        | command n => trivial
    | transmit hdr =>
        rw [ho] at h
        refine ⟨fun hc => ?_, fun hd => ?_⟩
        · have hsame := hexpected.symm.trans (h.1 hc).1
          exact nomatch ho.symm.trans (hcreate (Option.some.inj hsame))
        · obtain ⟨hport, hne⟩ := h.2 hd
          have hkept := sessionCallback_handle data hne
          exact ⟨hport.trans hkept.symm, fun hz => hne (hkept.symm.trans hz)⟩
    | _ => trivial

section
variable {v : Service} {l r : List Callback} {cb : Callback} {x : Cell} {c : Command}

/-- The reply to a create reaches the session that sent it. -/
theorem callback_creating (h : Accounted v) (hmem : cb ∈ v.callbacks) (hx : v.heap cb.session = some x)
    (hp : cb.pending = some c) (hop : c.opcode = .create) : cb.session = c.session ∧ x.Creating c := by
  have hown := h.own cb hmem c hp hop
  have hc : c ∈ v.pending := List.mem_append_left _ (List.mem_filterMap.mpr ⟨cb, hmem, hp⟩)
  obtain ⟨z, hz, hcreating⟩ := h.creating c hc hop
  rw [← hown, hx] at hz
  cases hz
  exact ⟨hown, hcreating⟩

/-- There it becomes the handle. -/
theorem Cell.Creating.keeps {data : Packet} (h : x.Creating c) (hop : c.opcode = .create) (hbasic : data.basic = true)
    (hdata : data.opcode = some c.opcode) :
    { x with session := q6voiceSessionCallback data x.session }.Keeps c data.srcPort := by
  have hmatch : data.opcode = x.session.expectedOpcode := by rw [hdata, hop, h.expected]
  rw [sessionCallback_create hbasic hmatch h.handle]
  refine ⟨rfl, ?_, h.port⟩
  rw [h.owner]
  intro hdestroy
  cases hop.symm.trans hdestroy

/-- No other reply ends the wait for one to a create. -/
theorem callback_advances {w : Service} (hop : cb.data.opcode = some c.opcode)
    (hcreating : c.opcode = .create → x.Creating c) (hnot : c ∉ w.pending) :
    Advances w cb.session x { x with session := q6voiceSessionCallback cb.data x.session } := by
  refine ⟨(sessionCallback_kept cb.data x.session).1, fun c' hc' _ hwait => ?_, fun hk hne =>
    Or.inl ⟨sessionCallback_handle cb.data hne, hk⟩⟩
  rcases sessionCallback_cases cb.data x.session with he | ⟨hmatch, -, -⟩
  · rw [he]
    exact hwait
  · have hcreate : some c.opcode = some .create := hop.symm.trans (hmatch.trans hwait.expected)
    have howner := (hcreating (Option.some.inj hcreate)).owner
    rw [hwait.owner, Owner.wait.injEq] at howner
    exact absurd (howner ▸ hc') hnot

/-- The callbacks that have yet to run, around the one that just has. -/
theorem mem_around {cb' : Callback} (hcb : v.callbacks = l ++ cb :: r) (h : cb' ∈ v.callbacks) :
    cb' = cb ∨ cb' ∈ l ∨ cb' ∈ r := by
  rw [hcb] at h
  rcases List.mem_append.mp h with h | h
  · exact .inr (.inl h)
  · exact (List.mem_cons.mp h).imp id .inr

theorem callback_accounted {w : Service} (h : Accounted v) (hcb : v.callbacks = l ++ cb :: r)
    (hh : cb.handled = false) (hx : v.heap cb.session = some x)
    (hw : w = { v.store cb.session { x with session := q6voiceSessionCallback cb.data x.session } with
      callbacks := l ++ { cb with handled := true } :: r })
    (hechoes : Echoes w) (hpending : w.pending.Sublist v.pending) : Accounted w := by
  have hmem : cb ∈ v.callbacks := hcb ▸ List.mem_append_right _ List.mem_cons_self
  obtain ⟨c, -, ha, hd, -⟩ := h.echoes cb hmem
  have hp : cb.pending = some c := by
    rw [Callback.pending, hh]
    exact ha
  have hop : cb.data.opcode = some c.opcode := by rw [hd]; rfl
  have hnot := not_pending_of_handled hcb hp h.nodup
  subst hw
  refine h.of_store hechoes rfl
    (Advances.of_heap (callback_advances hop (fun hcreate => (callback_creating h hmem hx hp hcreate).2) hnot) hx)
    (sessionCallback_ready (h.ready cb.session x hx) hop fun hcreate =>
      (callback_creating h hmem hx hp hcreate).2.owner)
    hpending rfl (List.Subset.refl _) (fun _ _ he => Or.inl he) ?_ ?_
  · intro cb' hcb' c' hp' hop'
    rcases List.mem_append.mp hcb' with hcb' | hcb'
    · exact h.own cb' (hcb ▸ List.mem_append_left _ hcb') c' hp' hop'
    · rcases List.mem_cons.mp hcb' with rfl | hcb'
      · cases hp'
      · exact h.own cb' (hcb ▸ List.mem_append_right _ (List.mem_cons_of_mem _ hcb')) c' hp' hop'
  · intro c' handle _ hop' cb' hcb' hp' hs
    obtain rfl | hcb' | hcb' := mem_around hcb hcb'
    · cases Option.some.inj (hp.symm.trans hp')
      obtain ⟨hown, hwait⟩ := callback_creating h hmem hx hp hop'
      have hbasic : cb'.data.basic = true := by rw [hd]; rfl
      refine .kept _ ?_ (hs ▸ hwait.keeps hop' hbasic hop)
      rw [← hown]
      exact store_self v _ _
    · exact .coming cb' (List.mem_append_left _ hcb') hp' hs
    · exact .coming cb' (List.mem_append_right _ (List.mem_cons_of_mem _ hcb')) hp' hs

theorem finished_accounted {w : Service} (h : Accounted v) (hcb : v.callbacks = l ++ cb :: r)
    (hh : cb.handled = true) (hx : v.heap cb.session = some x)
    (hw : w = { v.store cb.session (krefPut x) with callbacks := l ++ r })
    (hechoes : Echoes w) (hpending : w.pending.Sublist v.pending) : Accounted w := by
  subst hw
  have hready : (krefPut x).Ready := h.ready cb.session x hx
  refine h.of_store hechoes rfl (Advances.of_heap (advances_of_count (x := x) rfl rfl rfl rfl) hx) hready hpending rfl
    (List.Subset.refl _) (fun _ _ he => Or.inl he) ?_ ?_
  · intro cb' hcb'
    apply h.own cb'
    rw [hcb]
    rcases List.mem_append.mp hcb' with hcb' | hcb'
    · exact List.mem_append_left _ hcb'
    · exact List.mem_append_right _ (List.mem_cons_of_mem _ hcb')
  · intro c' handle _ _ cb' hcb' hp hs
    obtain rfl | hcb' | hcb' := mem_around hcb hcb'
    · rw [Callback.pending, hh] at hp
      cases hp
    · exact .coming cb' (List.mem_append_left _ hcb') hp hs
    · exact .coming cb' (List.mem_append_right _ hcb') hp hs

end

theorem handled_accounted {v w : Service} (h : Accounted v) (hechoes : Echoes w) (hw : Handled v w) :
    Accounted w := by
  have hpending := handled_pending hw
  cases hw with
  | stays => exact h
  | handled l r cb x hcb hh hx => exact callback_accounted h hcb hh hx rfl hechoes hpending
  | finished l r cb x hcb hh hx => exact finished_accounted h hcb hh hx rfl hechoes hpending

theorem step_accounted {v : Service} (hv : Inv v.table) (h : Accounted v) {a : DspAction} (hloss : NoLoss v a) :
    Accounted (DspAction.step v a) := by
  obtain ⟨a, ha⟩ := a
  have hechoes := step_echoes hv h.echoes ha
  change Accounted (step v a)
  cases a with
  | create path =>
      have hadv : ∀ x, v.heap v.next = some x →
          Advances (allocSession path v) v.next x ⟨⟨1, path, 0, none, 0⟩, .allocated, 0⟩ := by
        intro x hx
        rw [heap_unallocated hv le_rfl] at hx
        cases hx
      exact h.of_store hechoes rfl hadv ⟨rfl, rfl⟩ (List.Sublist.refl _) rfl (List.Subset.refl _)
        (fun _ _ he => Or.inl he) h.own fun _ _ _ _ cb hcb hp hs => .coming cb hcb hp hs
  | own i ch =>
      rw [step] at hechoes ⊢
      cases hx : v.heap i with
      | none => exact h
      | some x =>
          rw [hx] at hechoes
          refine own_accounted h hx hechoes (fun c hch ho hop => ?_) (fun hdr ret hch ho hop => ?_)
            (ownerStep_moved ch v i x)
          · exact hloss.create i x c (congrArg (Action.own i) hch) hx ho hop
          · exact hloss.destroy i x hdr ret (congrArg (Action.own i) hch) hx ho hop
  | reply status srcPort => exact reply_accounted hv h status srcPort
  | packet data => exact ha.elim
  | handle k => exact handled_accounted h hechoes (handlePacket_handled k v)
  | finish k => exact handled_accounted h hechoes (finishCallback_handled k v)

theorem Accounted.noneLeaked {v : Service} (hv : Inv v.table) (h : Accounted v) : NoneLeaked v := by
  intro hq c handle he
  obtain ⟨-, -, hacc⟩ := h.handles c handle he
  cases hacc with
  | coming cb hcb hp hs =>
      rw [hq.callbacks] at hcb
      cases hcb
  | kept x hx hk =>
      exact Or.inl ⟨x, hx, ((counted_of_inv hv).slot _ _).mpr ⟨x, hx, rfl, hk.owner.resident⟩, hk.handle⟩
  | destroyed hd => exact Or.inr hd

/-- In every run where each create gets its reply in time and every destroy can be sent. -/
theorem handles_none_leaked (as : List DspAction) (h : Always DspAction.step NoLoss q6voiceCommonProbe as) :
    NoneLeaked (run DspAction.step q6voiceCommonProbe as) := by
  have hinv := run_invariant (I := fun v : Service => Inv v.table ∧ Accounted v)
    (fun v a hv hloss => ⟨step_inv hv.1 a.1, step_accounted hv.1 hv.2 hloss⟩)
    ⟨q6voiceCommonProbe_inv, q6voiceCommonProbe_accounted⟩ h
  exact hinv.2.noneLeaked hinv.1

theorem sends_of_next {v : Service} (hv : Inv v.table) (hnext : v.next = 1)
    (h : ∀ x, v.heap 0 = some x → x.owner.sending = false) (i : ℕ) (x : Cell) (hx : v.heap i = some x) :
    x.owner.sending = false := by
  cases i with
  | zero => exact h x hx
  | succ i =>
      have hi : v.next ≤ i + 1 := by
        rw [hnext]
        exact Nat.le_add_left 1 i
      rw [heap_unallocated hv hi] at hx
      cases hx

theorem noLoss_of_ne {v : Service} {a : DspAction} (ht : ∀ i, a.1 ≠ .own i .timeout)
    (hs : ∀ i ret, a.1 ≠ .own i (.sendFails ret)) : NoLoss v a :=
  ⟨fun i _ _ ha => absurd ha (ht i), fun i _ _ ret ha => absurd ha (hs i ret)⟩

theorem createSession_keeps_handle :
    (run DspAction.step q6voiceCommonProbe createSession).Registered 0 5 ∨
      Destroyed (run DspAction.step q6voiceCommonProbe createSession).log 0 5 := by
  refine handles_none_leaked createSession ?_ ⟨?_, rfl, rfl⟩ ⟨⟨.create, 0, 0, 0⟩, 0, 0⟩ 5 (by decide)
  · refine ⟨?_, ?_, ?_, ?_, ?_, ?_, ?_, ?_, ?_, ?_, trivial⟩ <;> exact noLoss_of_ne nofun nofun
  · refine sends_of_next (run_inv createSession) (by decide) fun x hx => ?_
    cases hx
    rfl

/-- The create times out and the session is released before the reply comes. -/
def abandon : List DspAction :=
  ⟨.create .voice, trivial⟩ :: proceed 3 ++ ⟨.own 0 .timeout, trivial⟩ :: proceed 5 ++ [⟨.reply 0 5, trivial⟩]

/-- The handle in the late reply belongs to nobody and is never destroyed. -/
theorem abandon_leaks_handle : ¬ ∀ as : List DspAction, NoneLeaked (run DspAction.step q6voiceCommonProbe as) := by
  intro h
  have hlog : (run DspAction.step q6voiceCommonProbe abandon).log =
      [.sent ⟨⟨.create, 0, 0, 0⟩, 0, 0⟩, .returned ⟨⟨.create, 0, 0, 0⟩, 0, 0⟩ (-ETIMEDOUT),
        .allocated ⟨⟨.create, 0, 0, 0⟩, 0, 0⟩ 5, .arrived ⟨⟨.create, 0, 0, 0⟩, 0, 0⟩ 0] := by
    decide
  have hquiescent : Quiescent (run DspAction.step q6voiceCommonProbe abandon) := by
    refine ⟨?_, rfl, rfl⟩
    refine sends_of_next (run_inv abandon) (by decide) fun x hx => ?_
    cases hx
    rfl
  rcases h abandon hquiescent ⟨⟨.create, 0, 0, 0⟩, 0, 0⟩ 5 (by rw [hlog]; decide) with ⟨x, hx, -, hh⟩ | ⟨d, hd, hop, -⟩
  · cases hx
    exact absurd hh (by decide)
  · rw [hlog] at hd
    have hd : d = ⟨⟨.create, 0, 0, 0⟩, 0, 0⟩ := by simpa using hd
    rw [hd] at hop
    cases hop

end Sirius.Q6common
