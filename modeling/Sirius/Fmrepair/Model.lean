import Mathlib.Data.List.Sort
import Mathlib.Data.Fin.VecNotation
import Mathlib.Data.BitVec
import Sirius.Lib.Rounding
import Sirius.Lib.RingBuffer

/-!
# The FM capture repair plugin, drivers/audio/fmrepair/pcm_fmrepair.c

The signal path of the plugin, one definition for each of its functions.
Samples are 16-bit words, frame counters are unbounded integers (an `int64_t`
does not wrap in the life of a stream) and a `double` is a rational that every
operation rounds with an arbitrary `Rounding`. The area pointers of the external
plugin interface are left out: `fmTransfer` maps a block of frames to a block.
-/
namespace Sirius.Fmrepair
open Rounded RingBuffer

@[simp] def RING : ℕ := 4096
@[simp] def DELAY : ℤ := 192
@[simp] def WIN : ℕ := 15
@[simp] def HALF : ℕ := WIN / 2
@[simp] def CLUSTER : ℤ := 48
@[simp] def MIN_OUTLIERS : ℕ := 3
@[simp] def STRONG : ℕ := 6
@[simp] def MAX_BURST : ℤ := 120
@[simp] def MARGIN : ℤ := 6
@[simp] def P_INIT : ℤ := 1152
@[simp] def P_MIN : ℤ := 1050
@[simp] def P_MAX : ℤ := 1260
@[simp] def PHASE_TOL : ℤ := 150
@[simp] def PRED_HALF : ℤ := 30
@[simp] def MAX_BLANKS : ℕ := 16
@[simp] def T_FLIP : ℤ := 6000
@[simp] def T_JUMP : ℤ := 20000

instance : NeZero RING := ⟨by decide⟩

abbrev Sample := BitVec 16
abbrev Frame := Fin 2 → Sample

structure Blank where
  a : ℤ
  b : ℤ
  deriving DecidableEq, Repr

/-- Which of its two call sites called `add_blank`, with what that site knew. -/
inductive Origin
  | burst (count : ℕ)
  | predicted (locked : Bool)
  deriving DecidableEq, Repr

/-- One call of `add_blank`: the window it stored and the counters at that moment. -/
structure Scheduled where
  window : Blank
  nOut : ℤ
  nblanks : ℕ
  origin : Origin
  deriving DecidableEq, Repr

/-- `fm_t`. The flag `open` of the source is `isOpen`; `nblanks` is the length of
`blanks`. The last field is a ghost: no function reads it. -/
structure Fm where
  ring : Fin RING → Frame
  nIn : ℤ
  nOut : ℤ
  outlier : Fin RING → Bool
  nCls : ℤ
  isOpen : Bool
  first : ℤ
  last : ℤ
  count : ℕ
  locked : Bool
  period : ℚ
  cLast : ℤ
  misses : ℕ
  blanks : List Blank
  scheduled : List Scheduled

def frame (fm : Fm) (n : ℤ) : Frame := read fm.ring n

/-- The test of one channel: distance from the median of the window, with the sign
bit as it is and flipped, and distance from the two neighbours. -/
def classifyChannel (fr : ℤ → Frame) (n : ℤ) (ch : Fin 2) : Bool :=
  let w := (List.range WIN).map fun k : ℕ => (fr (n - HALF + k) ch).toInt
  let x := fr n ch
  let base := (w.insertionSort (· ≤ ·)).getD HALF 0
  let dev := |x.toInt - base|
  let cand := (x ^^^ 0x8000#16).toInt
  let prev := (fr (n - 1) ch).toInt
  let next := (fr (n + 1) ch).toInt
  if dev > T_JUMP then true
  else if dev > T_FLIP ∧ |cand - base| * 3 < dev then true
  else decide (|2 * x.toInt - prev - next| > 2 * T_JUMP)

/-- The left channel of a frame. -/
abbrev LEFT : Fin 2 := 0

/-- The right one. -/
abbrev RIGHT : Fin 2 := 1

def classify (fm : Fm) (n : ℤ) : Bool :=
  classifyChannel (frame fm) n 0 || classifyChannel (frame fm) n 1

def addBlank (fm : Fm) (a b : ℤ) (origin : Origin) : Fm :=
  let a := if a < 1 then 1 else a
  let blanks := if fm.blanks.length = MAX_BLANKS then fm.blanks.tail else fm.blanks
  { fm with
    blanks := blanks ++ [⟨a, b⟩]
    scheduled := fm.scheduled ++ [⟨⟨a, b⟩, fm.nOut, fm.blanks.length, origin⟩] }

section
variable (R : Rounding)

/-- `period += gain * (target - period)` in rounded arithmetic. -/
def pull (gain target period : ℚ) : ℚ :=
  R.fl (period + R.fl (R.fl gain * R.fl (target - period)))

/-- `c_last + (int64_t)(period + 0.5)` -/
def pred (fm : Fm) : ℤ := fm.cLast + truncate (R.fl (fm.period + 1 / 2))

/-- The period after a burst on phase, `d` frames after the last one. -/
def onPhasePeriod (d period : ℚ) : ℚ :=
  if (P_MIN : ℚ) < d ∧ d < (P_MAX : ℚ) then pull R (15 / 100) d period else period

/-- The period after a strong burst off phase; the second branch divides `d` by the
number of periods it spans. -/
def offPhasePeriod (d period : ℚ) : ℚ :=
  if (P_MIN : ℚ) < d ∧ d < (P_MAX : ℚ) then pull R (15 / 100) d period
  else if d > 3 / 2 * (P_MIN : ℚ) then
    pull R (5 / 100) (R.fl (d / R.fl (truncate (R.fl (R.fl (d / period) + 1 / 2))))) period
  else period

def centre (fm : Fm) : ℤ := (fm.first + fm.last).tdiv 2

/-- Off the tracked phase by more than the tolerance. -/
def offPhase (fm : Fm) : Bool :=
  let off := centre fm - pred R fm
  decide (off < -PHASE_TOL ∨ off > PHASE_TOL)

def acceptBurst (fm : Fm) : Fm :=
  addBlank { fm with cLast := centre fm, misses := 0 } (fm.first - MARGIN) (fm.last + MARGIN)
    (.burst fm.count)

def closeBurst (fm : Fm) : Fm :=
  let fm := { fm with isOpen := false }
  let d := R.fl (centre fm - fm.cLast : ℤ)
  if fm.locked then
    if offPhase R fm then
      if fm.count ≥ STRONG then acceptBurst { fm with period := offPhasePeriod R d fm.period }
      else fm
    else acceptBurst { fm with period := onPhasePeriod R d fm.period }
  else if fm.cLast ≠ 0 ∧ (P_MIN : ℚ) < d ∧ d < (P_MAX : ℚ) then
    acceptBurst { fm with locked := true, period := d }
  else acceptBurst fm

def noteOutlier (fm : Fm) (n : ℤ) (outlier : Bool) : Fm :=
  if outlier then
    if fm.isOpen then { fm with last := n, count := fm.count + 1 }
    else { fm with isOpen := true, first := n, last := n, count := 1 }
  else fm

def closeDue (fm : Fm) (n : ℤ) : Bool :=
  fm.isOpen && decide (n - fm.last > CLUSTER ∨ n - fm.first > MAX_BURST)

def closeIfDue (fm : Fm) (n : ℤ) : Fm :=
  if closeDue fm n then
    if fm.count ≥ MIN_OUTLIERS then closeBurst R fm else { fm with isOpen := false }
  else fm

/-- A predicted burst that never showed is blanked anyway and counts as a miss. -/
def predictMissed (fm : Fm) (n : ℤ) : Fm :=
  if fm.locked && !fm.isOpen then
    let p := pred R fm
    if n > p + PHASE_TOL then
      let fm := addBlank fm (p - PRED_HALF) (p + PRED_HALF) (.predicted fm.locked)
      { fm with cLast := p, misses := fm.misses + 1,
                locked := if fm.misses + 1 ≥ 3 then false else fm.locked }
    else fm
  else fm

def track (fm : Fm) (n : ℤ) (outlier : Bool) : Fm :=
  predictMissed R (closeIfDue R (noteOutlier fm n outlier) n) n

/-- The sample of one channel at `m` on the line from frame `a - 1` to frame `b + 1`. -/
def interpolate (pa pb : Sample) (w : Blank) (m : ℤ) : Sample :=
  let t := R.fl ((m - (w.a - 1) : ℤ) / (w.b + 2 - w.a : ℤ))
  BitVec.ofInt 16 (truncate
    (R.fl (R.fl (pa.toInt + R.fl ((pb.toInt - pa.toInt : ℤ) * t)) + 1 / 2)))

def dropExpired (blanks : List Blank) (m : ℤ) : List Blank :=
  blanks.dropWhile fun w => decide (w.b < m)

/-- The window `emit` interpolates frame `m` in, if any. -/
def emitWindow (fm : Fm) (m : ℤ) : Option Blank :=
  (dropExpired fm.blanks m).find? fun w => decide (m ≥ w.a ∧ m ≤ w.b)

def emit (fm : Fm) (m : ℤ) : Fm × Frame :=
  let out := match emitWindow fm m with
    | some w => fun ch => interpolate R (frame fm (w.a - 1) ch) (frame fm (w.b + 1) ch) w m
    | none => frame fm m
  ({ fm with blanks := dropExpired fm.blanks m }, out)

/-- The condition of the inner loop of `fm_transfer`. -/
def classifyReady (fm : Fm) : Bool := decide (fm.nCls + HALF + 1 < fm.nIn)

/-- The flag the inner loop computes for the next frame to classify. -/
def nextFlag (fm : Fm) : Bool := if fm.nCls > HALF then classify fm fm.nCls else false

/-- One turn of the inner loop of `fm_transfer`. -/
def classifyNext (fm : Fm) : Fm :=
  let n := fm.nCls
  let o := nextFlag fm
  let fm := track R { fm with outlier := write fm.outlier n o } n o
  { fm with nCls := fm.nCls + 1 }

/-- The inner loop. Every turn advances `nCls` towards `nIn`, so their distance is
fuel enough. -/
def classifyPending : ℕ → Fm → Fm
  | 0, fm => fm
  | k + 1, fm => if classifyReady fm then classifyPending k (classifyNext R fm) else fm

def receive (fm : Fm) (f : Frame) : Fm :=
  { fm with ring := write fm.ring fm.nIn f, nIn := fm.nIn + 1 }

/-- What `fm_transfer` delivers once the inner loop is done. -/
def deliver (fm : Fm) : Fm × Frame :=
  if fm.nIn > DELAY then
    let r := emit R fm fm.nOut
    ({ r.1 with nOut := r.1.nOut + 1 }, r.2)
  else (fm, fun _ => 0)

/-- The body of the outer loop of `fm_transfer`. -/
def transferFrame (fm : Fm) (f : Frame) : Fm × Frame :=
  let fm := receive fm f
  deliver R (classifyPending R (fm.nIn - fm.nCls).toNat fm)

def fmTransfer : Fm → List Frame → Fm × List Frame
  | fm, [] => (fm, [])
  | fm, f :: fs =>
      let r := transferFrame R fm f
      let rest := fmTransfer r.1 fs
      (rest.1, r.2 :: rest.2)

/-- Successive calls of `fm_transfer`. -/
def fmTransfers : Fm → List (List Frame) → Fm × List (List Frame)
  | fm, [] => (fm, [])
  | fm, block :: blocks =>
      let r := fmTransfer R fm block
      let rest := fmTransfers r.1 blocks
      (rest.1, r.2 :: rest.2)

end

/-- The plugin state as `calloc` hands it over. -/
def fmCalloc : Fm where
  ring := fun _ _ => 0
  nIn := 0
  nOut := 0
  outlier := fun _ => false
  nCls := 0
  isOpen := false
  first := 0
  last := 0
  count := 0
  locked := false
  period := 0
  cLast := 0
  misses := 0
  blanks := []
  scheduled := []

/-- `fm_init` leaves `first`, `last` and `count` as the previous stream had them. -/
def fmInit (fm : Fm) : Fm :=
  { fm with
    ring := fun _ _ => 0
    outlier := fun _ => false
    nIn := 0
    nOut := 0
    nCls := 0
    isOpen := false
    locked := false
    period := P_INIT
    cLast := 0
    misses := 0
    blanks := []
    scheduled := [] }

end Sirius.Fmrepair
