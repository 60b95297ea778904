import Sirius.Wcd9320.Controls

/-!
# Saving and restoring the controls

What the get functions report is written back to a codec that has just been registered. A mux gets
its own item back. A switch reports its port's bit, and as it always puts the port on the list of the
same mixer, the bit says all there is to know.
-/
namespace Sirius.Wcd9320
open ListHead

def controls : List Control := (List.finRange 7).map .rxMux ++ (List.finRange 10).map .txSwitch

/-- The control with the value its get function reports. -/
def save (wcd : Codec) : Control → Setting
  | .rxMux n => .rxMux n (slimRxMuxGet wcd (rxPort n))
  | .txSwitch n => .txSwitch n (slimTxMixerGet wcd (txPort n))

/-- Settings made one after the other. -/
def setAll (widget : Fin 10 → CapMixer) (wcd : Codec) (settings : List Setting) : Option Codec :=
  putAll wcd (settings.map (Setting.write widget))

def restore (widget : Fin 10 → CapMixer) (wcd : Codec) (order : List Control) : Option Codec :=
  setAll widget registered (order.map (save wcd))

def SamePorts (wcd wcd' : Codec) (d : Dai) : Prop :=
  ∃ xs ys, Reads wcd.links (.dai d) xs ∧ Reads wcd'.links (.dai d) ys ∧ ∀ x, x ∈ xs ↔ x ∈ ys

/-- The list of the interface has the port on it. -/
def Holds (wcd : Codec) (d : Dai) (p : TxPort) : Prop := ∃ xs, Reads wcd.links (.dai d) xs ∧ .tx p ∈ xs

section
variable {widget : Fin 10 → CapMixer} {wcd wcd' : Codec} {L L' : Dai → List Node}

theorem Routed.holds_iff (h : Routed wcd L) (d : Dai) (p : TxPort) : Holds wcd d p ↔ .tx p ∈ L d := by
  constructor
  · rintro ⟨xs, hreads, hmem⟩
    rwa [(h.linked.reads_iff d).mp hreads] at hmem
  · exact fun hmem => ⟨L d, (h.linked.reads_iff d).mpr rfl, hmem⟩

theorem Routed.samePorts (h : Routed wcd L) (h' : Routed wcd' L') {d : Dai} (hsame : ∀ x, x ∈ L d ↔ x ∈ L' d) :
    SamePorts wcd wcd' d :=
  ⟨L d, L' d, (h.linked.reads_iff d).mpr rfl, (h'.linked.reads_iff d).mpr rfl, hsame⟩

/-- A TX port is on no list but that of the mixer its switch is written through. -/
def Homed (widget : Fin 10 → CapMixer) (L : Dai → List Node) : Prop :=
  ∀ n d, .tx (txPort n) ∈ L d → d = (widget n).dai

theorem Homed.put (h : Homed widget L) {s : Setting} (hw : Written wcd L (s.write widget) wcd' L') :
    Homed widget L' := by
  intro m d hmem
  cases s with
  | rxMux n item => exact h m d ((MuxWritten.tx hw _ d).mp hmem)
  | txSwitch n enable =>
      by_cases hoff : enable = 0
      · exact h m d ((SwitchWritten.off hw hoff _ d).mp hmem).1
      · rcases (SwitchWritten.on hw hoff _ d).mp hmem with hmem | ⟨-, hport, rfl⟩
        · exact h m d hmem
        · rw [txPort_inj.mp hport]

theorem Homed.setAll (h : Homed widget L) (hrouted : Routed wcd L) (hreach : InReach wcd L) (settings : List Setting) :
    ∃ wcd' L', setAll widget wcd settings = some wcd' ∧ Routed wcd' L' ∧ InReach wcd' L' ∧ Homed widget L' := by
  induction settings generalizing wcd L with
  | nil => exact ⟨wcd, L, rfl, hrouted, hreach, h⟩
  | cons s settings ih =>
      obtain ⟨wcd₁, L₁, hput, hwritten⟩ := hrouted.put (s.write widget)
      obtain ⟨wcd', L', hputs, hrest⟩ := ih (h.put hwritten) hwritten.routed (hreach.put hwritten)
      refine ⟨wcd', L', ?_, hrest⟩
      rw [Wcd9320.setAll, List.map_cons, putAll, List.foldlM_cons, hput]
      exact hputs

/-- A port that is set is with its mixer, and nowhere else. -/
theorem Homed.mem_iff (h : Homed widget L) (hrouted : Routed wcd L) (n : Fin 10) (d : Dai) :
    .tx (txPort n) ∈ L d ↔ TxSet wcd (txPort n) ∧ d = (widget n).dai := by
  constructor
  · exact fun hmem => ⟨(hrouted.tx _ _ hmem).2, h n d hmem⟩
  · rintro ⟨hset, rfl⟩
    obtain ⟨e, he⟩ := hrouted.txLinked _ hset
    exact h n e he ▸ he

theorem slimTxMixerGet_ne_zero (wcd : Codec) (p : TxPort) : slimTxMixerGet wcd p ≠ 0 ↔ TxSet wcd p := by
  unfold slimTxMixerGet TxSet
  split_ifs with hset
  · exact iff_of_true (by decide) hset
  · exact iff_of_false (fun h => h rfl) hset

/-- The controls written so far have their saved values, the other switches are off. -/
structure Restored (widget : Fin 10 → CapMixer) (wcd : Codec) (done : List Control) (wcd' : Codec)
    (L' : Dai → List Node) : Prop where
  routed : Routed wcd' L'
  reach : InReach wcd' L'
  homed : Homed widget L'
  rx : ∀ n, .rxMux n ∈ done → wcd'.rxPortValue (rxPort n) = wcd.rxPortValue (rxPort n)
  tx : ∀ n, TxSet wcd' (txPort n) ↔ TxSet wcd (txPort n) ∧ .txSwitch n ∈ done

theorem Restored.registered (widget : Fin 10 → CapMixer) (wcd : Codec) :
    Restored widget wcd [] registered fun _ => [] := by
  refine ⟨probed_routed, registered_inReach, fun _ _ h => absurd h List.not_mem_nil, nofun, fun n => ?_⟩
  refine iff_of_false (fun hset => ?_) fun h => absurd h.2 List.not_mem_nil
  obtain ⟨k, hk⟩ := (probed_routed.txSet_iff _).mp hset
  exact List.not_mem_nil hk

theorem Restored.rxMux {done : List Control} (h : Restored widget wcd done wcd' L') {n : Fin 7} {wcd₁ : Codec}
    {L₁ : Dai → List Node} (hw : Written wcd' L' ((save wcd (.rxMux n)).write widget) wcd₁ L₁) :
    Restored widget wcd (done ++ [.rxMux n]) wcd₁ L₁ := by
  refine ⟨hw.routed, h.reach.put hw, h.homed.put hw, fun m hm => ?_, fun m => ?_⟩
  · rw [MuxWritten.rxPortValue hw]
    by_cases hmn : m = n
    · rw [hmn, Function.update_self, slimRxMuxGet]
    · rw [List.mem_append, List.mem_singleton, Control.rxMux.injEq, or_iff_left hmn] at hm
      rw [Function.update_of_ne (mt rxPort_inj.mp hmn), h.rx m hm]
  · have hsame : TxSet wcd₁ (txPort m) ↔ TxSet wcd' (txPort m) := by
      unfold TxSet
      rw [MuxWritten.txPortValue hw]
    rw [hsame, h.tx, List.mem_append, List.mem_singleton, or_iff_left nofun]

/-- The switch just written has its saved value, whatever it had before. -/
theorem Restored.txSet_written {done : List Control} (h : Restored widget wcd done wcd' L') {n : Fin 10}
    {wcd₁ : Codec} {L₁ : Dai → List Node} (hw : Written wcd' L' ((save wcd (.txSwitch n)).write widget) wcd₁ L₁) :
    TxSet wcd₁ (txPort n) ↔ TxSet wcd (txPort n) := by
  rw [hw.routed.txSet_iff]
  by_cases hset : TxSet wcd (txPort n)
  · refine iff_of_true ⟨widget n, ?_⟩ hset
    rw [SwitchWritten.on hw ((slimTxMixerGet_ne_zero _ _).mpr hset), h.homed.mem_iff h.routed]
    by_cases hold : TxSet wcd' (txPort n)
    · exact Or.inl ⟨hold, rfl⟩
    · exact Or.inr ⟨hold, rfl, rfl⟩
  · refine iff_of_false (fun hmem => ?_) hset
    obtain ⟨k, hk⟩ := hmem
    have hoff : slimTxMixerGet wcd (txPort n) = 0 := not_not.mp (mt (slimTxMixerGet_ne_zero _ _).mp hset)
    exact ((SwitchWritten.off hw hoff _ _).mp hk).2 rfl

/-- The other switches keep their values. -/
theorem Written.txSet_of_ne {n m : Fin 10} {k : CapMixer} {enable : ℤ} (hrouted : Routed wcd L)
    (hw : Written wcd L (.txSwitch k n enable) wcd' L') (hm : m ≠ n) :
    TxSet wcd' (txPort m) ↔ TxSet wcd (txPort m) := by
  have hport : txPort m ≠ txPort n := mt txPort_inj.mp hm
  rw [hw.routed.txSet_iff, hrouted.txSet_iff]
  refine exists_congr fun j => ?_
  by_cases hoff : enable = 0
  · rw [SwitchWritten.off hw hoff, and_iff_left hport]
  · rw [SwitchWritten.on hw hoff, or_iff_left fun hx => hport hx.2.1]

theorem Restored.txSwitch {done : List Control} (h : Restored widget wcd done wcd' L') {n : Fin 10}
    {wcd₁ : Codec} {L₁ : Dai → List Node} (hw : Written wcd' L' ((save wcd (.txSwitch n)).write widget) wcd₁ L₁) :
    Restored widget wcd (done ++ [.txSwitch n]) wcd₁ L₁ := by
  refine ⟨hw.routed, h.reach.put hw, h.homed.put hw, fun m hm => ?_, fun m => ?_⟩
  · rw [List.mem_append, List.mem_singleton, or_iff_left nofun] at hm
    rw [SwitchWritten.rxPortValue hw, h.rx m hm]
  · rw [List.mem_append, List.mem_singleton, Control.txSwitch.injEq]
    by_cases hm : m = n
    · rw [hm, h.txSet_written hw, or_iff_right_of_imp fun _ => rfl, and_iff_left rfl]
    · rw [Written.txSet_of_ne h.routed hw hm, h.tx, or_iff_left hm]

theorem Restored.put {done : List Control} (h : Restored widget wcd done wcd' L') (c : Control) :
    ∃ wcd₁ L₁, put wcd' ((save wcd c).write widget) = some wcd₁ ∧ Restored widget wcd (done ++ [c]) wcd₁ L₁ := by
  obtain ⟨wcd₁, L₁, hput, hwritten⟩ := h.routed.put ((save wcd c).write widget)
  refine ⟨wcd₁, L₁, hput, ?_⟩
  cases c with
  | rxMux n => exact h.rxMux hwritten
  | txSwitch n => exact h.txSwitch hwritten

theorem Restored.setAll {done : List Control} (h : Restored widget wcd done wcd' L') (rest : List Control) :
    ∃ wcd₁ L₁, setAll widget wcd' (rest.map (save wcd)) = some wcd₁ ∧
      Restored widget wcd (done ++ rest) wcd₁ L₁ := by
  induction rest generalizing done wcd' L' with
  | nil => exact ⟨wcd', L', rfl, by rwa [List.append_nil]⟩
  | cons c rest ih =>
      obtain ⟨wcd₁, L₁, hput, hdone⟩ := h.put c
      obtain ⟨wcd₂, L₂, hputs, hrest⟩ := ih hdone
      refine ⟨wcd₂, L₂, ?_, by rwa [List.append_assoc] at hrest⟩
      rw [Wcd9320.setAll, List.map_cons, List.map_cons, putAll, List.foldlM_cons, hput]
      exact hputs

theorem mem_controls (c : Control) : c ∈ controls := by
  cases c with
  | rxMux n => exact List.mem_append_left _ (List.mem_map_of_mem (List.mem_finRange n))
  | txSwitch n => exact List.mem_append_right _ (List.mem_map_of_mem (List.mem_finRange n))

theorem Restored.rxPortValue {order : List Control} (hreach : InReach wcd L)
    (h' : Restored widget wcd order wcd' L') (hall : controls ⊆ order) (p : RxPort) :
    wcd'.rxPortValue p = wcd.rxPortValue p := by
  by_cases hp : ∃ n, p = rxPort n
  · obtain ⟨n, rfl⟩ := hp
    exact h'.rx n (hall (mem_controls _))
  · have hp := not_exists.mp hp
    rw [h'.reach.rx p hp, hreach.rx p hp]

theorem Restored.samePorts {order : List Control} (h : Routed wcd L) (hreach : InReach wcd L)
    (hhomed : Homed widget L) (h' : Restored widget wcd order wcd' L') (hall : controls ⊆ order) (d : Dai) :
    SamePorts wcd wcd' d := by
  have htx : ∀ n, .tx (txPort n) ∈ L d ↔ .tx (txPort n) ∈ L' d := by
    intro n
    rw [hhomed.mem_iff h, h'.homed.mem_iff h'.routed, h'.tx, and_iff_left (hall (mem_controls _))]
  refine h.samePorts h'.routed fun x => ?_
  cases x with
  | dai e => exact iff_of_false (h.no_head d e) (h'.routed.no_head d e)
  | rx p => rw [h.rx, h'.routed.rx, h'.rxPortValue hreach hall]
  | tx p =>
      constructor
      · intro hmem
        obtain ⟨n, rfl⟩ := hreach.tx p d hmem
        exact (htx n).mp hmem
      · intro hmem
        obtain ⟨n, rfl⟩ := h'.reach.tx p d hmem
        exact (htx n).mpr hmem

end

/-- Whatever has been set, saving every control and restoring them in any order, once or more often,
gives every interface its ports back. -/
theorem restore_samePorts (widget : Fin 10 → CapMixer) (settings : List Setting) {order : List Control}
    (hall : controls ⊆ order) :
    ∃ wcd wcd', setAll widget registered settings = some wcd ∧ restore widget wcd order = some wcd' ∧
      ∀ d, SamePorts wcd wcd' d := by
  have hempty : Homed widget fun _ => [] := fun _ _ h => absurd h List.not_mem_nil
  obtain ⟨wcd, L, hset, hrouted, hreach, hhomed⟩ := hempty.setAll probed_routed registered_inReach settings
  obtain ⟨wcd', L', hrestore, hrestored⟩ := (Restored.registered widget wcd).setAll order
  exact ⟨wcd, wcd', hset, hrestore, hrestored.samePorts hrouted hreach hhomed hall⟩

/-- Three ports recorded by the first interface, one of them given up again, and a mux on each of two
interfaces and one with a refused item, restored from the last control to the first. -/
theorem restore_samePorts_backwards :
    ∃ wcd wcd', setAll (fun _ => .aif1Cap) registered [.txSwitch 6 1, .txSwitch 0 1, .rxMux 0 1, .txSwitch 9 1,
        .rxMux 1 2, .txSwitch 0 0, .rxMux 6 9] = some wcd ∧
      restore (fun _ => .aif1Cap) wcd controls.reverse = some wcd' ∧ ∀ d, SamePorts wcd wcd' d :=
  restore_samePorts _ _ (List.subset_reverse.mpr (List.Subset.refl controls))

end Sirius.Wcd9320
