import Sirius.Lib.Runs
import Sirius.Touch.Contact

/-!
# The frames of the touchscreen: process_report

A touch report becomes a frame of the input core: the contacts one after another, an empty one for each finger that has
been lifted, and the end of the frame. A button that changes has a frame of its own. A user of the device sees the
contacts of the last frame that has any and the buttons as last reported.
-/
namespace Sirius.Touch
open Runs

@[simp] def MXM_RPT_ID_EXT_TOUCH_INFO : BitVec 16 := 0x0802
@[simp] def MXM_TOUCH_COUNT_MAX : ℕ := 10

/-- A report as `process_report` reads it: `struct max1187x_touch_report_header` and the contacts behind it. -/
structure TouchReport where
  header : BitVec 16
  reportId : BitVec 16
  touchCount : BitVec 4
  button : Fin 4 → Bool
  framecounter : BitVec 16
  contacts : ℕ → Contact

/-- `struct data` as far as touch reports go. -/
structure Fingers where
  framecounter : BitVec 16
  listFingerIds : BitVec 16
  currFingerIds : BitVec 16
  button : Fin 4 → Bool

inductive InputEvent
  | abs (code : AbsCode) (value : ℤ)
  | key (i : Fin 4) (value : Bool)
  | mtSync
  | sync
  deriving DecidableEq, Repr

section
variable (pdata : Pdata) (users : ℕ)

/-- One of the four parts of `report_buttons`. -/
def reportButton (r : TouchReport) (s : Fingers × List InputEvent) (i : Fin 4) : Fingers × List InputEvent :=
  let (ts, events) := s
  if r.button i ≠ ts.button i then
    ({ ts with button := Function.update ts.button i (r.button i) }, events ++ [.key i (r.button i), .sync])
  else (ts, events)

def reportButtons (ts : Fingers) (r : TouchReport) : Fingers × List InputEvent :=
  if users = 0 then (ts, []) else (List.finRange 4).foldl (reportButton r) (ts, [])

/-- `report_down` in the loop; a glove that is ignored reports nothing. -/
def reportDownAt (r : TouchReport) (s : Fingers × List InputEvent) (i : ℕ) : Fingers × List InputEvent :=
  let (ts, events) := s
  let (values, curr) := reportDown pdata (r.contacts i) users ts.currFingerIds
  ({ ts with currFingerIds := curr },
    events ++ if values = [] then [] else values.map (fun v => .abs v.1 v.2) ++ [.mtSync])

def idbit (id : ℕ) : BitVec 16 := ((1 <<< id : ℕ) : BitVec 16)

/-- `report_up` in the loop, of a finger that is not down. -/
def reportUpAt (s : Fingers × List InputEvent) (i : ℕ) : Fingers × List InputEvent :=
  let (ts, events) := s
  if ts.currFingerIds.getLsbD i = false then
    if ts.listFingerIds.getLsbD i = false then (ts, events)
    else
      ({ ts with listFingerIds := ts.listFingerIds &&& ~~~idbit i }, events ++ if 0 < users then [.mtSync] else [])
  else (ts, events)

def invalidateAllFingers (ts : Fingers) : Fingers × List InputEvent :=
  ({ ts with listFingerIds := 0 }, if 0 < users then [.mtSync, .sync] else [])

/-- `process_report`, without what a status report does. -/
def processTouchReport (ts : Fingers) (r : TouchReport) : Fingers × List InputEvent :=
  if BYTEH r.header ≠ MXM_ONE_PACKET_RPT then (ts, [])
  else if r.reportId ≠ MXM_RPT_ID_EXT_TOUCH_INFO then (ts, [])
  else if ts.framecounter = r.framecounter then (ts, [])
  else
    let ts := { ts with framecounter := r.framecounter }
    let (ts, buttons) := reportButtons users ts r
    if r.touchCount.toNat > MXM_TOUCH_COUNT_MAX then (ts, buttons)
    else if r.touchCount = 0 then
      let (ts, lifted) := invalidateAllFingers users ts
      (ts, buttons ++ lifted)
    else
      let ts := { ts with currFingerIds := 0 }
      let (ts, down) := (List.range r.touchCount.toNat).foldl (reportDownAt pdata users r) (ts, [])
      let (ts, up) := (List.range MXM_TOUCH_COUNT_MAX).foldl (reportUpAt users) (ts, [])
      ({ ts with listFingerIds := ts.currFingerIds }, buttons ++ down ++ up ++ if users ≠ 0 then [.sync] else [])

end

/-- A report is processed or the chip is reset, with the users of the device and the settings of that time. -/
inductive TouchAction
  | report (pdata : Pdata) (users : ℕ) (r : TouchReport)
  | reset (users : ℕ)

def touchStep (ts : Fingers) : TouchAction → Fingers × List InputEvent
  | .report pdata users r => processTouchReport pdata users ts r
  | .reset users => invalidateAllFingers users ts

/-- As probe leaves it. -/
def noFingers : Fingers := ⟨0, 0, 0, fun _ => false⟩

/-- The buttons of a frame, and its contacts, of which a lifted one is empty. -/
structure Frame where
  keys : List (Fin 4 × Bool)
  contacts : List (List (AbsCode × ℤ))
  deriving DecidableEq, Repr

/-- The frames of some events, with the frame and the contact that are being put together. -/
def framesFrom (frame : Frame) (contact : List (AbsCode × ℤ)) : List InputEvent → List Frame
  | [] => []
  | .abs code value :: es => framesFrom frame (contact ++ [(code, value)]) es
  | .key i value :: es => framesFrom { frame with keys := frame.keys ++ [(i, value)] } contact es
  | .mtSync :: es => framesFrom { frame with contacts := frame.contacts ++ [contact] } [] es
  | .sync :: es => frame :: framesFrom ⟨[], []⟩ [] es

def frames (es : List InputEvent) : List Frame := framesFrom ⟨[], []⟩ [] es

/-- What a touchscreen is about: the last frame counter, the fingers that are down, and the buttons as its users have
them. -/
structure Panel where
  framecounter : BitVec 16
  down : List ℕ
  button : Fin 4 → Bool

/-- A glove counts only where gloves do. -/
def Counts (pdata : Pdata) (e : Contact) : Prop := e.toolType = MXM_TOOL_GLOVE → pdata.gloveEnabled ≠ 0

instance (pdata : Pdata) (e : Contact) : Decidable (Counts pdata e) := inferInstanceAs (Decidable (_ → _))

def counted (pdata : Pdata) (r : TouchReport) : List Contact :=
  ((List.range r.touchCount.toNat).map r.contacts).filter (Counts pdata ·)

/-- What a contact says: a pen is one where pens are told from fingers, and a glove presses harder than any finger. -/
def said (pdata : Pdata) (e : Contact) : List (AbsCode × ℤ) :=
  absEvents pdata e (if e.toolType = MXM_TOOL_GLOVE then pressure e.z + 182 else pressure e.z)
    (if e.toolType = MXM_TOOL_PEN ∧ pdata.reportPenAsFinger = 0 then MT_TOOL_PEN else MT_TOOL_FINGER)

/-- A touch report that is not a repetition of the one before. -/
def Fresh (p : Panel) (r : TouchReport) : Prop :=
  BYTEH r.header = MXM_ONE_PACKET_RPT ∧ r.reportId = MXM_RPT_ID_EXT_TOUCH_INFO ∧ p.framecounter ≠ r.framecounter

instance (p : Panel) (r : TouchReport) : Decidable (Fresh p r) := inferInstanceAs (Decidable (_ ∧ _ ∧ _))

/-- The fingers of the panel that are not among those of a report. -/
def lifted (pdata : Pdata) (p : Panel) (r : TouchReport) : List ℕ :=
  (List.range MXM_TOUCH_COUNT_MAX).filter fun i => i ∈ p.down ∧ i ∉ (counted pdata r).map (·.fingerId.toNat)

def Panel.step (p : Panel) : TouchAction → Panel
  | .report pdata users r =>
      if Fresh p r then
        { framecounter := r.framecounter
          down := if r.touchCount.toNat > MXM_TOUCH_COUNT_MAX then p.down else (counted pdata r).map (·.fingerId.toNat)
          button := if users = 0 then p.button else r.button }
      else p
  | .reset _ => { p with down := [] }

/-- The frames of a step: one for each button that changes, then one with the contacts and the lifted fingers below the
tenth. Without a contact there is a single empty one, whatever was down, and so there is at a reset. -/
def Panel.frames (p : Panel) : TouchAction → List Frame
  | .report pdata users r =>
      if Fresh p r ∧ users ≠ 0 then
        ((List.finRange 4).filter fun i => r.button i ≠ p.button i).map (fun i => ⟨[(i, r.button i)], []⟩) ++
          if r.touchCount.toNat > MXM_TOUCH_COUNT_MAX then []
          else if r.touchCount = 0 then [⟨[], [[]]⟩]
          else
            [⟨[], (counted pdata r).map (said pdata) ++ (lifted pdata p r).map fun _ => []⟩]
      else []
  | .reset users => if users ≠ 0 then [⟨[], [[]]⟩] else []

theorem framesFrom_keys (is : List (Fin 4)) (f : Fin 4 → Bool) (es : List InputEvent) :
    framesFrom ⟨[], []⟩ [] (is.flatMap (fun i => [.key i (f i), .sync]) ++ es) =
      is.map (fun i => ⟨[(i, f i)], []⟩) ++ framesFrom ⟨[], []⟩ [] es := by
  induction is with
  | nil => rfl
  | cons i is ih => exact congrArg (Frame.mk [(i, f i)] [] :: ·) ih

theorem framesFrom_values (frame : Frame) (contact values : List (AbsCode × ℤ)) (es : List InputEvent) :
    framesFrom frame contact (values.map (fun v => .abs v.1 v.2) ++ es) = framesFrom frame (contact ++ values) es := by
  induction values generalizing contact with
  | nil => rw [List.append_nil]; rfl
  | cons v values ih =>
      refine (ih (contact ++ [v])).trans ?_
      rw [List.append_assoc, List.singleton_append]

def contactEvents (contacts : List (List (AbsCode × ℤ))) : List InputEvent :=
  contacts.flatMap fun values => values.map (fun v => .abs v.1 v.2) ++ [.mtSync]

theorem framesFrom_contacts (frame : Frame) (contacts : List (List (AbsCode × ℤ))) (es : List InputEvent) :
    framesFrom frame [] (contactEvents contacts ++ es) =
      framesFrom { frame with contacts := frame.contacts ++ contacts } [] es := by
  induction contacts generalizing frame with
  | nil => rw [List.append_nil]; rfl
  | cons values contacts ih =>
      rw [contactEvents, List.flatMap_cons, List.append_assoc, List.append_assoc, framesFrom_values]
      refine (ih { frame with contacts := frame.contacts ++ [values] }).trans ?_
      rw [List.append_assoc, List.singleton_append]

section
variable {pdata : Pdata} {users : ℕ}

theorem reportButtons_fold (r : TouchReport) {is : List (Fin 4)} (hnodup : is.Nodup) (ts : Fingers)
    (events : List InputEvent) :
    is.foldl (reportButton r) (ts, events) =
      ({ ts with button := fun i => if i ∈ is then r.button i else ts.button i },
        events ++ (is.filter fun i => r.button i ≠ ts.button i).flatMap fun i => [.key i (r.button i), .sync]) := by
  induction is generalizing ts events with
  | nil => simp
  | cons i is ih =>
      obtain ⟨hi, hnodup⟩ := List.nodup_cons.mp hnodup
      have hne {j : Fin 4} (hj : j ∈ is) : j ≠ i := fun heq => hi (heq ▸ hj)
      rw [List.foldl_cons]
      by_cases hchanged : r.button i ≠ ts.button i
      · have hstep : reportButton r (ts, events) i =
            ({ ts with button := Function.update ts.button i (r.button i) }, events ++ [.key i (r.button i), .sync]) :=
          if_pos hchanged
        have hfilter : (is.filter fun j => r.button j ≠ Function.update ts.button i (r.button i) j) =
            is.filter fun j => r.button j ≠ ts.button j :=
          List.filter_congr fun j hj => by rw [Function.update_of_ne (hne hj)]
        rw [hstep, ih hnodup, hfilter, List.filter_cons_of_pos (by exact decide_eq_true hchanged), List.flatMap_cons,
          List.append_assoc]
        refine Prod.ext (congrArg (Fingers.mk _ _ _) (funext fun j => ?_)) rfl
        by_cases hj : j = i
        · subst hj
          exact (if_neg hi).trans ((Function.update_self ..).trans (if_pos List.mem_cons_self).symm)
        · simp only [List.mem_cons, hj, false_or, Function.update_of_ne hj]
      · have hstep : reportButton r (ts, events) i = (ts, events) := if_neg hchanged
        rw [hstep, ih hnodup, List.filter_cons_of_neg (by simpa using hchanged)]
        refine Prod.ext (congrArg (Fingers.mk _ _ _) (funext fun j => ?_)) rfl
        by_cases hj : j = i
        · subst hj
          rw [if_neg hi, if_pos List.mem_cons_self, not_not.mp hchanged]
        · simp only [List.mem_cons, hj, false_or]

theorem reportDown_eq (e : Contact) (curr : BitVec 16) :
    reportDown pdata e users curr =
      if Counts pdata e then (if 0 < users then said pdata e else [], curr ||| idbit e.fingerId.toNat)
      else ([], curr) := by
  unfold said reportDown
  dsimp only
  by_cases hpen : e.toolType = MXM_TOOL_PEN
  · have hglove : ¬e.toolType = MXM_TOOL_GLOVE := by rw [hpen]; decide
    rw [if_pos hpen, if_pos (show Counts pdata e from fun h => absurd h hglove), if_neg hglove]
    by_cases hfinger : pdata.reportPenAsFinger = 0
    · have hkept : e.toolType = MXM_TOOL_PEN ∧ pdata.reportPenAsFinger = 0 := ⟨hpen, hfinger⟩
      rw [if_pos hkept, if_neg (not_not.mpr hfinger)]
      rfl
    · rw [if_neg (mt And.right hfinger), if_pos hfinger]
      rfl
  · rw [if_neg hpen, if_neg (mt And.left hpen)]
    by_cases hglove : e.toolType = MXM_TOOL_GLOVE
    · by_cases henabled : pdata.gloveEnabled ≠ 0
      · rw [if_pos hglove, if_pos henabled, if_pos (show Counts pdata e from fun _ => henabled), if_pos hglove]
        rfl
      · rw [if_pos hglove, if_neg henabled, if_neg fun h => henabled (h hglove)]
    · rw [if_neg hglove, if_neg hglove, if_pos (show Counts pdata e from fun h => absurd h hglove)]
      rfl

theorem said_ne_nil (e : Contact) : said pdata e ≠ [] := by simp [said, absEvents]

/-- The bits of the fingers of some contacts, with those of `curr`. -/
def idbits (curr : BitVec 16) (contacts : List Contact) : BitVec 16 :=
  contacts.foldl (fun curr e => curr ||| idbit e.fingerId.toNat) curr

theorem reportDown_fold (r : TouchReport) (is : List ℕ) (ts : Fingers) (events : List InputEvent) :
    is.foldl (reportDownAt pdata users r) (ts, events) =
      ({ ts with currFingerIds := idbits ts.currFingerIds ((is.map r.contacts).filter (Counts pdata ·)) },
        events ++ if 0 < users then contactEvents (((is.map r.contacts).filter (Counts pdata ·)).map (said pdata))
          else []) := by
  induction is generalizing ts events with
  | nil => simp [contactEvents, idbits]
  | cons i is ih =>
      rw [List.foldl_cons, reportDownAt]
      dsimp only
      rw [reportDown_eq, List.map_cons]
      by_cases hcounts : Counts pdata (r.contacts i)
      · rw [if_pos hcounts, ih, List.filter_cons_of_pos (by exact decide_eq_true hcounts)]
        refine Prod.ext rfl ?_
        by_cases husers : 0 < users
        · simp only [if_pos husers, if_neg (said_ne_nil _), List.map_cons, contactEvents, List.flatMap_cons,
            List.append_assoc]
        · simp only [if_neg husers, if_true, List.append_nil]
      · rw [if_neg hcounts, ih, List.filter_cons_of_neg (by simpa using hcounts)]
        exact Prod.ext rfl (congrArg (· ++ _) (List.append_nil _))

theorem getLsbD_idbit {n : ℕ} (hn : n < 16) (i : ℕ) : (idbit n).getLsbD i = decide (i = n) := by
  rw [idbit, BitVec.natCast_eq_ofNat, BitVec.getLsbD_ofNat, Nat.one_shiftLeft, Nat.testBit_two_pow]
  by_cases heq : i = n
  · subst heq
    simp [hn]
  · simp [heq, Ne.symm heq]

theorem getLsbD_idbits (contacts : List Contact) (curr : BitVec 16) (i : ℕ) :
    (idbits curr contacts).getLsbD i =
      (curr.getLsbD i || decide (i ∈ contacts.map (·.fingerId.toNat))) := by
  induction contacts generalizing curr with
  | nil => simp [idbits]
  | cons e contacts ih =>
      have hid := e.fingerId.isLt
      rw [idbits, List.foldl_cons, ← idbits, ih, BitVec.getLsbD_or, getLsbD_idbit hid, List.map_cons, Bool.or_assoc]
      refine congrArg _ ?_
      simp [List.mem_cons]

/-- The loop over the fingers that are not down: each that was is lifted. -/
theorem reportUp_fold {is : List ℕ} (hnodup : is.Nodup) (hlt : ∀ i ∈ is, i < 16) (ts : Fingers)
    (events : List InputEvent) :
    ∃ list, is.foldl (reportUpAt users) (ts, events) =
      ({ ts with listFingerIds := list },
        events ++ if 0 < users then
          (is.filter fun i => ts.listFingerIds.getLsbD i ∧ ts.currFingerIds.getLsbD i = false).map fun _ => .mtSync
        else []) := by
  induction is generalizing ts events with
  | nil => exact ⟨ts.listFingerIds, by simp⟩
  | cons i is ih =>
      obtain ⟨hi, hnodup⟩ := List.nodup_cons.mp hnodup
      have hltrest : ∀ j ∈ is, j < 16 := fun j hj => hlt j (List.mem_cons_of_mem i hj)
      rw [List.foldl_cons]
      by_cases hlifted : ts.listFingerIds.getLsbD i = true ∧ ts.currFingerIds.getLsbD i = false
      · have hstep : reportUpAt users (ts, events) i =
            ({ ts with listFingerIds := ts.listFingerIds &&& ~~~idbit i },
              events ++ if 0 < users then [.mtSync] else []) :=
          (if_pos hlifted.2).trans (if_neg (by rw [hlifted.1]; decide))
        have hrest {j : ℕ} (hj : j ∈ is) :
            (ts.listFingerIds &&& ~~~idbit i).getLsbD j = ts.listFingerIds.getLsbD j := by
          have hne : j ≠ i := fun heq => hi (heq ▸ hj)
          rw [BitVec.getLsbD_and, BitVec.getLsbD_not, getLsbD_idbit (hlt i List.mem_cons_self)]
          simp [hne, hltrest j hj]
        obtain ⟨list, hlist⟩ := ih hnodup hltrest { ts with listFingerIds := ts.listFingerIds &&& ~~~idbit i }
          (events ++ if 0 < users then [.mtSync] else [])
        refine ⟨list, ?_⟩
        rw [hstep, hlist, List.filter_cons_of_pos (by exact decide_eq_true hlifted)]
        have hfilter : (is.filter fun j =>
              (ts.listFingerIds &&& ~~~idbit i).getLsbD j ∧ ts.currFingerIds.getLsbD j = false) =
            is.filter fun j => ts.listFingerIds.getLsbD j ∧ ts.currFingerIds.getLsbD j = false :=
          List.filter_congr fun j hj => by rw [hrest hj]
        refine Prod.ext rfl ?_
        rw [hfilter, List.append_assoc]
        by_cases husers : 0 < users
        · simp only [if_pos husers, List.map_cons, List.singleton_append]
        · simp only [if_neg husers, List.append_nil]
      · have hstep : reportUpAt users (ts, events) i = (ts, events) := by
          unfold reportUpAt
          grind
        obtain ⟨list, hlist⟩ := ih hnodup hltrest ts events
        exact ⟨list, by rw [hstep, hlist, List.filter_cons_of_neg (by simpa using hlifted)]⟩

end

/-- The words of the code have the fingers of the panel. -/
structure Shows (ts : Fingers) (p : Panel) : Prop where
  framecounter : ts.framecounter = p.framecounter
  button : ts.button = p.button
  down : ∀ i, ts.listFingerIds.getLsbD i = decide (i ∈ p.down)

section
variable {pdata : Pdata} {users : ℕ} {ts : Fingers} {p : Panel} {r : TouchReport}

theorem reportButtons_shows (h : Shows ts p) :
    reportButtons users ts r =
      ({ ts with button := if users = 0 then p.button else r.button },
        if users = 0 then []
        else ((List.finRange 4).filter fun i => r.button i ≠ p.button i).flatMap fun i =>
          [.key i (r.button i), .sync]) := by
  unfold reportButtons
  by_cases husers : users = 0
  · rw [if_pos husers, if_pos husers, if_pos husers, ← h.button]
  · rw [if_neg husers, if_neg husers, if_neg husers, reportButtons_fold r (List.nodup_finRange 4) ts [], ← h.button]
    refine Prod.ext (congrArg (Fingers.mk _ _ _) (funext fun i => if_pos ?_)) rfl
    exact List.mem_finRange i

theorem fresh_iff (h : Shows ts p) :
    Fresh p r ↔ BYTEH r.header = MXM_ONE_PACKET_RPT ∧ r.reportId = MXM_RPT_ID_EXT_TOUCH_INFO ∧
      ts.framecounter ≠ r.framecounter := by
  rw [Fresh, h.framecounter]

theorem processTouchReport_stale (h : Shows ts p) (hstale : ¬Fresh p r) :
    processTouchReport pdata users ts r = (ts, []) := by
  rw [fresh_iff h] at hstale
  unfold processTouchReport
  grind

theorem contactEvents_lifted (contacts : List (List (AbsCode × ℤ))) (is : List ℕ) :
    contactEvents (contacts ++ is.map fun _ => []) = contactEvents contacts ++ is.map fun _ => .mtSync := by
  rw [contactEvents, List.flatMap_append, ← contactEvents, List.flatMap_map]
  refine congrArg (contactEvents contacts ++ ·) ?_
  induction is with
  | nil => rfl
  | cons i is ih => exact congrArg (InputEvent.mtSync :: ·) ih

theorem contacts_shows (h : Shows ts p) :
    let down := (List.range r.touchCount.toNat).foldl (reportDownAt pdata users r) ({ ts with currFingerIds := 0 }, [])
    let up := (List.range MXM_TOUCH_COUNT_MAX).foldl (reportUpAt users) (down.1, [])
    (∀ i, up.1.currFingerIds.getLsbD i = decide (i ∈ (counted pdata r).map (·.fingerId.toNat))) ∧
      up.1.framecounter = ts.framecounter ∧ up.1.button = ts.button ∧
      down.2 ++ up.2 = if 0 < users then
        contactEvents ((counted pdata r).map (said pdata) ++ (lifted pdata p r).map fun _ => []) else [] := by
  dsimp only
  rw [reportDown_fold]
  have hids (i : ℕ) : (idbits 0 (counted pdata r)).getLsbD i =
      decide (i ∈ (counted pdata r).map (·.fingerId.toNat)) := by
    have hzero : (0 : BitVec 16).getLsbD i = false := BitVec.getLsbD_zero
    rw [getLsbD_idbits, hzero, Bool.false_or]
  obtain ⟨list, hup⟩ := @reportUp_fold users (List.range MXM_TOUCH_COUNT_MAX) List.nodup_range
    (fun i hi => Nat.lt_of_lt_of_le (List.mem_range.mp hi) (by decide))
    { ts with currFingerIds := idbits 0 (counted pdata r) } []
  rw [counted] at hup hids
  rw [hup]
  refine ⟨hids, rfl, rfl, ?_⟩
  have hlifted : ((List.range MXM_TOUCH_COUNT_MAX).filter fun i => ts.listFingerIds.getLsbD i ∧
      (idbits 0 (counted pdata r)).getLsbD i = false) = lifted pdata p r := by
    refine List.filter_congr fun i _ => ?_
    rw [h.down, counted, hids, ← counted]
    simp
  rw [counted] at hlifted
  dsimp only
  rw [hlifted, List.nil_append, List.nil_append, contactEvents_lifted, ← counted]
  by_cases husers : 0 < users
  · rw [if_pos husers, if_pos husers, if_pos husers]
  · rw [if_neg husers, if_neg husers, if_neg husers]
    rfl

theorem processTouchReport_fresh (h : Shows ts p) (hfresh : Fresh p r) :
    processTouchReport pdata users ts r =
      let ts := { ts with framecounter := r.framecounter, button := if users = 0 then p.button else r.button }
      let buttons := if users = 0 then []
        else ((List.finRange 4).filter fun i => r.button i ≠ p.button i).flatMap fun i => [.key i (r.button i), .sync]
      if r.touchCount.toNat > MXM_TOUCH_COUNT_MAX then (ts, buttons)
      else if r.touchCount = 0 then
        ((invalidateAllFingers users ts).1, buttons ++ (invalidateAllFingers users ts).2)
      else
        let down := (List.range r.touchCount.toNat).foldl (reportDownAt pdata users r)
          ({ ts with currFingerIds := 0 }, [])
        let up := (List.range MXM_TOUCH_COUNT_MAX).foldl (reportUpAt users) (down.1, [])
        ({ up.1 with listFingerIds := up.1.currFingerIds },
          buttons ++ down.2 ++ up.2 ++ if users ≠ 0 then [.sync] else []) := by
  obtain ⟨hheader, hid, hcounter⟩ := (fresh_iff h).mp hfresh
  have h' : Shows { ts with framecounter := r.framecounter } { p with framecounter := r.framecounter } :=
    ⟨rfl, h.button, h.down⟩
  rw [processTouchReport, if_neg (not_not.mpr hheader), if_neg (not_not.mpr hid), if_neg hcounter]
  simp only [reportButtons_shows h']

theorem frames_buttons (es : List InputEvent) :
    frames ((if users = 0 then []
        else ((List.finRange 4).filter fun i => r.button i ≠ p.button i).flatMap fun i =>
          [.key i (r.button i), .sync]) ++ es) =
      (if users = 0 then []
        else ((List.finRange 4).filter fun i => r.button i ≠ p.button i).map fun i =>
          ⟨[(i, r.button i)], []⟩) ++ frames es := by
  by_cases husers : users = 0
  · rw [if_pos husers, if_pos husers]
    rfl
  · rw [if_neg husers, if_neg husers]
    exact framesFrom_keys ..

theorem panel_frames_fresh (hfresh : Fresh p r) :
    p.frames (.report pdata users r) =
      (if users = 0 then []
        else ((List.finRange 4).filter fun i => r.button i ≠ p.button i).map fun i => ⟨[(i, r.button i)], []⟩) ++
      if users = 0 then []
      else if r.touchCount.toNat > MXM_TOUCH_COUNT_MAX then []
      else if r.touchCount = 0 then [⟨[], [[]]⟩]
      else [⟨[], (counted pdata r).map (said pdata) ++ (lifted pdata p r).map fun _ => []⟩] := by
  rw [Panel.frames]
  by_cases husers : users = 0
  · rw [if_neg fun h => h.2 husers, if_pos husers, if_pos husers]
    rfl
  · rw [if_pos ⟨hfresh, husers⟩, if_neg husers, if_neg husers]

/-- A frame with one empty contact, which is what a panel without fingers sends. -/
theorem frames_invalidate (ts : Fingers) :
    frames (invalidateAllFingers users ts).2 = if users = 0 then [] else [⟨[], [[]]⟩] := by
  rw [invalidateAllFingers]
  by_cases husers : users = 0
  · rw [if_neg (Nat.not_lt.mpr husers.le), if_pos husers]
    rfl
  · rw [if_pos (Nat.pos_of_ne_zero husers), if_neg husers]
    rfl

theorem frames_contacts (contacts : List (List (AbsCode × ℤ))) :
    frames ((if 0 < users then contactEvents contacts else []) ++ if users ≠ 0 then [.sync] else []) =
      if users = 0 then [] else [⟨[], contacts⟩] := by
  by_cases husers : users = 0
  · rw [if_neg (Nat.not_lt.mpr husers.le), if_neg (not_not.mpr husers), if_pos husers]
    rfl
  · rw [if_pos (Nat.pos_of_ne_zero husers), if_pos husers, if_neg husers]
    exact framesFrom_contacts ⟨[], []⟩ contacts [.sync]

theorem step_shows (h : Shows ts p) (a : TouchAction) :
    Shows (touchStep ts a).1 (p.step a) ∧ frames (touchStep ts a).2 = p.frames a := by
  cases a with
  | reset users =>
      refine ⟨⟨h.framecounter, h.button, fun i => BitVec.getLsbD_zero⟩, ?_⟩
      rw [touchStep, frames_invalidate, Panel.frames, ite_not]
  | report pdata users r =>
      rw [touchStep, Panel.step]
      by_cases hfresh : Fresh p r
      · rw [processTouchReport_fresh h hfresh, if_pos hfresh]
        have hbuttons := @frames_buttons users p r
        rw [panel_frames_fresh hfresh]
        dsimp only
        by_cases hcount : r.touchCount.toNat > MXM_TOUCH_COUNT_MAX
        · rw [if_pos hcount, if_pos hcount, if_pos hcount, ite_self]
          refine ⟨⟨rfl, rfl, h.down⟩, ?_⟩
          rw [List.append_nil, ← List.append_nil (ite _ _ _), hbuttons]
          exact List.append_nil _
        · rw [if_neg hcount, if_neg hcount, if_neg hcount]
          by_cases hzero : r.touchCount = 0
          · rw [if_pos hzero, if_pos hzero]
            have hnone : counted pdata r = [] := by rw [counted, hzero]; rfl
            refine ⟨⟨rfl, rfl, fun i => ?_⟩, ?_⟩
            · rw [hnone]
              exact BitVec.getLsbD_zero
            · rw [hbuttons, frames_invalidate]
          · rw [if_neg hzero, if_neg hzero]
            have h' : Shows
                { ts with framecounter := r.framecounter, button := if users = 0 then p.button else r.button }
                { p with framecounter := r.framecounter, button := if users = 0 then p.button else r.button } :=
              ⟨rfl, rfl, h.down⟩
            obtain ⟨hcurr, hcounter, hbutton, hevents⟩ := @contacts_shows pdata users _ _ r h'
            refine ⟨⟨hcounter, hbutton, hcurr⟩, ?_⟩
            rw [List.append_assoc, List.append_assoc, ← List.append_assoc _ _ (ite _ _ _), hevents, hbuttons,
              frames_contacts]
            rfl
      · rw [processTouchReport_stale h hfresh, if_neg hfresh, Panel.frames,
          if_neg fun hboth => hfresh hboth.1]
        exact ⟨h, rfl⟩

end

/-- In any run the frames that come out are those of the panel, and its fingers are the ones kept. -/
theorem run_shows (acts : List TouchAction) :
    outputs (fun ts a => (touchStep ts a).1) (fun ts a => frames (touchStep ts a).2) noFingers acts =
        outputs Panel.step Panel.frames ⟨0, [], fun _ => false⟩ acts ∧
      Shows (run (fun ts a => (touchStep ts a).1) noFingers acts) (run Panel.step ⟨0, [], fun _ => false⟩ acts) := by
  have hstart : Shows noFingers ⟨0, [], fun _ => false⟩ := ⟨rfl, rfl, fun _ => BitVec.getLsbD_zero⟩
  constructor
  · exact outputs_eq_of_simulation (R := Shows) (fun _ _ a h => (step_shows h a).2)
      (fun _ _ a h => (step_shows h a).1) hstart acts
  · exact run_simulation (R := Shows) (fun _ _ a h => (step_shows h a).1) hstart acts

end Sirius.Touch
