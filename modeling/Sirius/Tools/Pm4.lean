import Mathlib.Data.Nat.Bitwise
import Sirius.Lib.Framed
import Sirius.Lib.PyText

/-!
# The command stream of a hang, tools/ib-at-hang.py

The packets of a stream of words, the register writes they carry and the indirect buffers they call. The tables of
packet names come from files outside the repository.
-/
namespace Sirius.Pm4
open Framed PyText

/-- A packet's type with what `packets` yields for it. -/
inductive Op
  | type3 (op : ℕ)
  | type0 (reg : ℕ) (one : Bool)
  | type2
  | type1 (h : ℕ)
  deriving DecidableEq, Repr

structure Packet where
  i : ℕ
  op : Op
  p : List ℕ
  deriving DecidableEq, Repr

def packetsFrom : (fuel i : ℕ) → List ℕ → List Packet
  | _, _, [] => []
  | 0, _, _ => []
  | fuel + 1, i, h :: rest =>
      let t := h >>> 30
      if t = 3 then
        let n := ((h >>> 16) &&& 0x3fff) + 1
        ⟨i, .type3 ((h >>> 8) &&& 0x7f), rest.take n⟩ :: packetsFrom fuel (i + (1 + n)) (rest.drop n)
      else if t = 0 then
        let n := ((h >>> 16) &&& 0x3fff) + 1
        ⟨i, .type0 (h &&& 0x7fff) (h &&& 0x8000 ≠ 0), rest.take n⟩ :: packetsFrom fuel (i + (1 + n)) (rest.drop n)
      else if t = 2 then
        ⟨i, .type2, []⟩ :: packetsFrom fuel (i + 1) rest
      else
        ⟨i, .type1 h, rest.take 2⟩ :: packetsFrom fuel (i + 3) (rest.drop 2)

def packets (words : List ℕ) : List Packet := packetsFrom words.length 0 words

def headerOp (h : ℕ) : Op :=
  if h >>> 30 = 3 then .type3 ((h >>> 8) &&& 0x7f)
  else if h >>> 30 = 0 then .type0 (h &&& 0x7fff) (h &&& 0x8000 ≠ 0)
  else if h >>> 30 = 2 then .type2
  else .type1 h

def headerCount (h : ℕ) : ℕ :=
  if h >>> 30 = 3 then ((h >>> 16) &&& 0x3fff) + 1
  else if h >>> 30 = 0 then ((h >>> 16) &&& 0x3fff) + 1
  else if h >>> 30 = 2 then 0
  else 2

def toPacket (f : Frame ℕ) : Packet := ⟨f.i, headerOp f.head, f.payload⟩

/-- `packets` cuts the stream as the headers say. -/
theorem packetsFrom_eq (fuel i : ℕ) (words : List ℕ) :
    packetsFrom fuel i words = (framesFrom headerCount fuel i words).map toPacket := by
  induction fuel generalizing i words with
  | zero => cases words <;> rfl
  | succ fuel ih =>
      cases words with
      | nil => rfl
      | cons h rest =>
          simp only [packetsFrom, framesFrom, List.map_cons, toPacket, headerOp, headerCount]
          split
          · rw [ih, Nat.add_assoc]
          · split
            · rw [ih, Nat.add_assoc]
            · split
              · rw [ih, List.take_zero, List.drop_zero, Nat.add_zero]
              · rw [ih]

theorem packets_eq (words : List ℕ) : packets words = (frames headerCount words).map toPacket :=
  packetsFrom_eq ..

/-- The header of a packet with `n` words of payload. -/
def Op.header (op : Op) (n : ℕ) : ℕ :=
  match op with
  | .type3 op => 3 * 2 ^ 30 + (n - 1) * 2 ^ 16 + op * 2 ^ 8
  | .type0 reg one => (n - 1) * 2 ^ 16 + (if one then 2 ^ 15 else 0) + reg
  | .type2 => 2 * 2 ^ 30
  | .type1 h => h

/-- A packet that has a header, and the payload it says. -/
def Sendable : Op × List ℕ → Prop
  | (.type3 op, p) => op < 2 ^ 7 ∧ 0 < p.length ∧ p.length ≤ 2 ^ 14
  | (.type0 reg _, p) => reg < 2 ^ 15 ∧ 0 < p.length ∧ p.length ≤ 2 ^ 14
  | (.type2, p) => p = []
  | (.type1 h, p) => h >>> 30 = 1 ∧ p.length = 2

def encode (qs : List (Op × List ℕ)) : List ℕ := join (qs.map fun q => (q.1.header q.2.length, q.2))

theorem shiftRight_and (h a k : ℕ) : (h >>> a) &&& (2 ^ k - 1) = h / 2 ^ a % 2 ^ k := by
  rw [Nat.shiftRight_eq_div_pow, Nat.and_two_pow_sub_one_eq_mod]

theorem and_bit_ne_zero (h k : ℕ) : (h &&& 2 ^ k ≠ 0) ↔ h / 2 ^ k % 2 = 1 := by
  rw [Nat.land_comm, Nat.two_pow_and, Nat.testBit_eq_decide_div_mod_eq]
  by_cases hbit : h / 2 ^ k % 2 = 1 <;> simp [hbit]

theorem header_spec {q : Op × List ℕ} (hq : Sendable q) :
    headerOp (q.1.header q.2.length) = q.1 ∧ headerCount (q.1.header q.2.length) = q.2.length := by
  obtain ⟨op, p⟩ := q
  cases op with
  | type3 op =>
      obtain ⟨hop, hpos, hlen⟩ := hq
      have hn := shiftRight_and (3 * 2 ^ 30 + (p.length - 1) * 2 ^ 16 + op * 2 ^ 8) 16 14
      have ho := shiftRight_and (3 * 2 ^ 30 + (p.length - 1) * 2 ^ 16 + op * 2 ^ 8) 8 7
      have ht : (3 * 2 ^ 30 + (p.length - 1) * 2 ^ 16 + op * 2 ^ 8) >>> 30 = 3 := by
        rw [Nat.shiftRight_eq_div_pow]
        omega
      simp only [Op.header, headerOp, headerCount, ht, if_true]
      refine ⟨congrArg Op.type3 (ho.trans ?_), (congrArg (· + 1) hn).trans ?_⟩ <;> omega
  | type0 reg one =>
      obtain ⟨hreg, hpos, hlen⟩ := hq
      have hbit : (if one then 2 ^ 15 else 0) = 2 ^ 15 * one.toNat := by cases one <;> rfl
      have hone := one.toNat_le
      set h := (p.length - 1) * 2 ^ 16 + 2 ^ 15 * one.toNat + reg with hdef
      have hn := shiftRight_and h 16 14
      have hr : h &&& (2 ^ 15 - 1) = h % 2 ^ 15 := Nat.and_two_pow_sub_one_eq_mod ..
      have hb := and_bit_ne_zero h 15
      have ht : h >>> 30 = 0 := by
        rw [Nat.shiftRight_eq_div_pow]
        omega
      simp only [Op.header, headerOp, headerCount, hbit, ← hdef, ht, if_true]
      refine ⟨congrArg₂ Op.type0 (hr.trans ?_) ?_, (congrArg (· + 1) hn).trans ?_⟩
      · omega
      · have hdiv : h / 2 ^ 15 % 2 = one.toNat := by omega
        rw [hdiv] at hb
        refine Bool.eq_iff_iff.mpr (decide_eq_true_iff.trans (hb.trans ?_))
        cases one <;> decide
      · omega
  | type2 =>
      rw [show p = [] from hq]
      exact ⟨rfl, rfl⟩
  | type1 h =>
      obtain ⟨ht, hlen⟩ := hq
      simp only [Op.header, headerOp, headerCount, ht]
      exact ⟨rfl, hlen.symm⟩

def placed : ℕ → List (Op × List ℕ) → List Packet
  | _, [] => []
  | i, (op, p) :: qs => ⟨i, op, p⟩ :: placed (i + 1 + p.length) qs

theorem place_toPacket {qs : List (Op × List ℕ)} (h : ∀ q ∈ qs, Sendable q) (i : ℕ) :
    (place headerCount i (qs.map fun q => (q.1.header q.2.length, q.2))).map toPacket = placed i qs := by
  induction qs generalizing i with
  | nil => rfl
  | cons q qs ih =>
      obtain ⟨hop, hcount⟩ := header_spec (h q List.mem_cons_self)
      rw [List.map_cons, place, List.map_cons, toPacket, hop, hcount, placed,
        ih fun r hr => h r (List.mem_cons_of_mem q hr)]

/-- Packets that are sent are read back, each where it stands, whatever comes after them. -/
theorem packets_encode_append {qs : List (Op × List ℕ)} (h : ∀ q ∈ qs, Sendable q) (tail : List ℕ) :
    packets (encode qs ++ tail) = placed 0 qs ++ packetsFrom tail.length (encode qs).length tail := by
  have hfull : ∀ r ∈ qs.map fun q => (q.1.header q.2.length, q.2), r.2.length = headerCount r.1 := by
    intro r hr
    obtain ⟨q, hq, rfl⟩ := List.mem_map.mp hr
    exact (header_spec (h q hq)).2.symm
  rw [packets_eq, encode, frames_join_append hfull, List.map_append, place_toPacket h, packetsFrom_eq]

/-- A register write, a call of a buffer, and the first word of a packet that is cut off. -/
theorem packets_encode_append_call :
    packets (encode [(.type0 0x2240 false, [1, 2]), (.type3 0x3f, [0x1000, 64])] ++ [0xc0012200]) =
      placed 0 [(.type0 0x2240 false, [1, 2]), (.type3 0x3f, [0x1000, 64])] ++ packetsFrom 1 6 [0xc0012200] :=
  packets_encode_append (by simp [Sendable]) [0xc0012200]

section
variable (ibOps : ℕ → Bool)

/-- The packet calls the buffer at `target`, with the size that is given. -/
def callSize (target : ℕ) (pk : Packet) : Option ℕ :=
  match pk.op, pk.p with
  | .type3 op, base :: size :: _ => if ibOps op = true ∧ base = target then some size else none
  | _, _ => none

/-- The loop of `find_ib_ref` from some packets on. -/
def findIbRefFrom (target : ℕ) (limit : Option ℤ) : (best : Option (ℕ × ℕ)) → List Packet → Option (ℕ × ℕ)
  | best, [] => best
  | best, pk :: pks =>
      if limit.any (· ≤ (pk.i : ℤ)) then best
      else findIbRefFrom target limit (((callSize ibOps target pk).map (pk.i, ·)).or best) pks

def findIbRef (words : List ℕ) (target : ℕ) (limit : Option ℤ) : Option (ℕ × ℕ) :=
  findIbRefFrom ibOps target limit none (packets words)

end

/-- What `find_ib_ref` takes from a packet: the word it stands at and the size, if it comes before the limit. -/
def ref (ibOps : ℕ → Bool) (target : ℕ) (limit : Option ℤ) (pk : Packet) : Option (ℕ × ℕ) :=
  if limit.any (· ≤ (pk.i : ℤ)) then none else (callSize ibOps target pk).map (pk.i, ·)

section
variable {ibOps : ℕ → Bool} {target : ℕ} {limit : Option ℤ}

theorem ref_after {pk pk' : Packet} (h : limit.any (· ≤ (pk.i : ℤ)) = true) (hi : pk.i < pk'.i) :
    ref ibOps target limit pk' = none := by
  cases limit with
  | none => cases h
  | some l =>
      refine if_pos (decide_eq_true ?_)
      have hl := of_decide_eq_true h
      omega

/-- Stopping at the limit changes nothing, as the packets stand in order. -/
theorem findIbRefFrom_eq {best : Option (ℕ × ℕ)} {pks : List Packet} (h : pks.Pairwise (fun f g => f.i < g.i)) :
    findIbRefFrom ibOps target limit best pks = ((pks.filterMap (ref ibOps target limit)).getLast?).or best := by
  induction pks generalizing best with
  | nil => rfl
  | cons pk pks ih =>
      rw [List.pairwise_cons] at h
      rw [findIbRefFrom, List.filterMap_cons]
      cases hlim : limit.any (· ≤ (pk.i : ℤ)) with
      | true =>
          have hrest : pks.filterMap (ref ibOps target limit) = [] :=
            List.filterMap_eq_nil_iff.mpr fun pk' hpk' => ref_after hlim (h.1 pk' hpk')
          have href : ref ibOps target limit pk = none := if_pos hlim
          simp [href, hrest]
      | false =>
          have href : ref ibOps target limit pk = (callSize ibOps target pk).map (pk.i, ·) :=
            if_neg (Bool.eq_false_iff.mp hlim)
          rw [if_neg Bool.false_ne_true, ih h.2, href]
          cases callSize ibOps target pk with
          | none => rfl
          | some size =>
              rw [Option.map_some, Option.some_or]
              dsimp only
              rw [List.getLast?_cons]
              cases (pks.filterMap (ref ibOps target limit)).getLast? <;> rfl

theorem packets_sorted (words : List ℕ) : (packets words).Pairwise (fun f g => f.i < g.i) := by
  rw [packets_eq, List.pairwise_map]
  exact (tiles_iff.mpr rfl).sorted

/-- The call that is found is the last one of the buffer before the limit. -/
theorem findIbRef_eq_some_iff {words : List ℕ} {r : ℕ × ℕ} :
    findIbRef ibOps words target limit = some r ↔
      ∃ pre pk post, packets words = pre ++ pk :: post ∧ ref ibOps target limit pk = some r ∧
        ∀ pk' ∈ post, ref ibOps target limit pk' = none := by
  rw [findIbRef, findIbRefFrom_eq (packets_sorted words), Option.or_none, List.getLast?_eq_some_iff]
  constructor
  · rintro ⟨ys, hys⟩
    obtain ⟨pre, post, heq, -, hpost⟩ := List.filterMap_eq_append_iff.mp hys
    obtain ⟨skip, pk, rest, rfl, hskip, hpk, hrest⟩ := List.filterMap_eq_cons_iff.mp hpost
    exact ⟨pre ++ skip, pk, rest, by rw [heq, List.append_assoc], hpk, List.filterMap_eq_nil_iff.mp hrest⟩
  · rintro ⟨pre, pk, post, heq, hpk, hpost⟩
    refine ⟨pre.filterMap (ref ibOps target limit), ?_⟩
    rw [heq, List.filterMap_append, List.filterMap_cons_some hpk, List.filterMap_eq_nil_iff.mpr hpost]

theorem findIbRef_eq_none_iff {words : List ℕ} :
    findIbRef ibOps words target limit = none ↔ ∀ pk ∈ packets words, ref ibOps target limit pk = none := by
  rw [findIbRef, findIbRefFrom_eq (packets_sorted words), Option.or_none, List.getLast?_eq_none_iff,
    List.filterMap_eq_nil_iff]

end

abbrev Regs := ℕ → Option ℕ

/-- `for k, v in enumerate(p): state[r if one else r + k] = v`, from `k` on. -/
def writeRegs (reg : ℕ) (one : Bool) : (k : ℕ) → List ℕ → Regs → Regs
  | _, [], state => state
  | k, v :: p, state => writeRegs reg one (k + 1) p (Function.update state (if one then reg else reg + k) (some v))

/-- What a packet does to the registers. -/
def Packet.apply (state : Regs) (pk : Packet) : Regs :=
  match pk.op with
  | .type0 reg one => writeRegs reg one 0 pk.p state
  | _ => state

/-- `bos`: the address and size of a buffer, and its words where the dump has them. -/
structure Bo where
  iova : ℕ
  size : ℕ
  data : Option (List ℕ)
  deriving DecidableEq, Repr

def boOf (bos : List Bo) (addr : ℕ) : Option Bo :=
  let hits := bos.filter fun b => b.iova ≤ addr ∧ addr < b.iova + b.size
  let withdata := hits.filter fun b => b.data.isSome
  if withdata ≠ [] then withdata.head? else hits.head?

def read (bos : List Bo) (addr n : ℕ) : Option (List ℕ) := do
  let b ← boOf bos addr
  let data ← b.data
  let seg := (data.drop ((addr - b.iova) / 4)).take n
  return seg ++ List.replicate (n - seg.length) 0

/-- `ops.get(op, '').startswith(v)` of a packet. -/
def Packet.named (ops : ℕ → Str) (v : Str) (pk : Packet) : Bool :=
  match pk.op with
  | .type3 op => v.isPrefixOf (ops op)
  | _ => false

def CP_DRAW : Str := "CP_DRAW".toList
def CP_DRAW_INDX : Str := "CP_DRAW_INDX".toList

/-- The buffer that is looked at, the word the front end stopped at, and the packets that ran before it. -/
structure View where
  words : List ℕ
  stop : ℤ
  before : List Packet
  deriving DecidableEq, Repr

def View.state (v : View) : Regs := v.before.foldl Packet.apply fun _ => none

/-- The main part up to the choice of the buffer; `none` where it exits. -/
def view (ibOps : ℕ → Bool) (bos : List Bo) (ring : List ℕ) (ringWptr ib1 ib1sz ib2 ib2sz : ℕ) : Option View := do
  let r1 ← findIbRef ibOps ring ib1 (some ringWptr)
  let L1 := r1.2
  let w1 ← read bos ib1 L1
  let stop1 : ℤ := L1 - ib1sz
  if w1 = [] then none
  else match findIbRef ibOps w1 ib2 (some (stop1 + 1)) with
    | some r2 => do
        let L2 := r2.2
        let w2 ← read bos ib2 L2
        if w2 = [] then none else return ⟨w2, L2 - ib2sz, (packets w1).takeWhile fun pk => pk.i < r2.1⟩
    | none => return ⟨w1, stop1, []⟩

/-- `max([n for n, (i, *_) in enumerate(pk) if i < max(stop, 1)] or [0])` -/
def stopPacket (stop : ℤ) (pks : List Packet) : ℕ :=
  (pks.zipIdx.filterMap fun q => if (q.1.i : ℤ) < max stop 1 then some q.2 else none).foldl max 0

/-- The window around the packet `k` from packet `n` on: the draws that `check_draw` is given, with their registers. -/
def windowFrom (ops : ℕ → Str) (window k : ℕ) : (n : ℕ) → Regs → List Packet → List (Packet × Regs)
  | _, _, [] => []
  | n, state, pk :: pks =>
      if n < k - window then windowFrom ops window k (n + 1) (pk.apply state) pks
      else if n > k + 8 then []
      else
        let state := pk.apply state
        if pk.named ops CP_DRAW_INDX then (pk, state) :: windowFrom ops window k (n + 1) state pks
        else windowFrom ops window k (n + 1) state pks

/-- The table of all draws: the packets it has a line for, with the registers it looks at. -/
def allDraws (ops : ℕ → Str) : Regs → List Packet → List (Packet × Regs)
  | _, [] => []
  | st, pk :: pks =>
      if pk.named ops CP_DRAW ∧ pk.p.length ≥ 3 then (pk, st) :: allDraws ops st pks
      else allDraws ops (pk.apply st) pks

/-- The last packet of a stream that calls the buffer at `target` before the limit. -/
structure LastCall (ibOps : ℕ → Bool) (words : List ℕ) (target : ℕ) (limit : ℤ) (pre : List Packet) (size : ℕ) :
    Prop where
  split : ∃ pk post, packets words = pre ++ pk :: post ∧ (pk.i : ℤ) < limit ∧ callSize ibOps target pk = some size ∧
    ∀ pk' ∈ post, (pk'.i : ℤ) < limit → callSize ibOps target pk' = none

theorem ref_eq_some_iff {ibOps : ℕ → Bool} {target : ℕ} {limit : ℤ} {pk : Packet} {r : ℕ × ℕ} :
    ref ibOps target (some limit) pk = some r ↔
      (pk.i : ℤ) < limit ∧ pk.i = r.1 ∧ callSize ibOps target pk = some r.2 := by
  rw [ref, Option.any_some]
  by_cases hlim : limit ≤ pk.i
  · simp [hlim, not_lt.mpr hlim]
  · rw [decide_eq_false hlim, if_neg Bool.false_ne_true]
    cases callSize ibOps target pk <;> simp [not_le.mp hlim, Prod.ext_iff]

theorem ref_eq_none_iff {ibOps : ℕ → Bool} {target : ℕ} {limit : ℤ} {pk : Packet} :
    ref ibOps target (some limit) pk = none ↔ ((pk.i : ℤ) < limit → callSize ibOps target pk = none) := by
  rw [ref, Option.any_some]
  by_cases hlim : limit ≤ pk.i
  · simp [hlim, not_lt.mpr hlim]
  · simp [hlim, not_le.mp hlim]

theorem takeWhile_before {words : List ℕ} {pre post : List Packet} {pk : Packet}
    (h : packets words = pre ++ pk :: post) : (packets words).takeWhile (fun q => q.i < pk.i) = pre := by
  have hsorted := packets_sorted words
  rw [h, List.pairwise_append] at hsorted
  rw [h, List.takeWhile_append_of_pos fun q hq => decide_eq_true (hsorted.2.2 q hq pk List.mem_cons_self),
    List.takeWhile_cons_of_neg (by simp), List.append_nil]

theorem lastCall_of_findIbRef {ibOps : ℕ → Bool} {words : List ℕ} {target : ℕ} {limit : ℤ} {r : ℕ × ℕ}
    (h : findIbRef ibOps words target (some limit) = some r) :
    LastCall ibOps words target limit ((packets words).takeWhile fun pk => pk.i < r.1) r.2 := by
  obtain ⟨pre, pk, post, heq, hpk, hpost⟩ := findIbRef_eq_some_iff.mp h
  obtain ⟨hlim, hi, hsize⟩ := ref_eq_some_iff.mp hpk
  rw [← hi, takeWhile_before heq]
  exact ⟨pk, post, heq, hlim, hsize, fun pk' hpk' => ref_eq_none_iff.mp (hpost pk' hpk')⟩

/-- What is shown is the second buffer as called last by the first before its stop, or else the first buffer as called
last by the ring before its write pointer. -/
theorem view_spec {ibOps : ℕ → Bool} {bos : List Bo} {ring : List ℕ} {ringWptr ib1 ib1sz ib2 ib2sz : ℕ} {v : View}
    (h : view ibOps bos ring ringWptr ib1 ib1sz ib2 ib2sz = some v) :
    ∃ pre L1 w1, LastCall ibOps ring ib1 ringWptr pre L1 ∧ read bos ib1 L1 = some w1 ∧
      ((∃ L2, LastCall ibOps w1 ib2 ((L1 : ℤ) - ib1sz + 1) v.before L2 ∧ read bos ib2 L2 = some v.words ∧
          v.stop = (L2 : ℤ) - ib2sz) ∨
        (∀ pk ∈ packets w1, (pk.i : ℤ) ≤ (L1 : ℤ) - ib1sz → callSize ibOps ib2 pk = none) ∧
          v = ⟨w1, (L1 : ℤ) - ib1sz, []⟩) := by
  unfold view at h
  obtain ⟨r1, hr1, h⟩ := Option.bind_eq_some_iff.mp h
  obtain ⟨w1, hw1, h⟩ := Option.bind_eq_some_iff.mp h
  refine ⟨_, r1.2, w1, lastCall_of_findIbRef hr1, hw1, ?_⟩
  dsimp only at h
  split at h
  · cases h
  · split at h
    · obtain ⟨w2, hw2, h⟩ := Option.bind_eq_some_iff.mp h
      split at h
      · cases h
      · cases h
        exact .inl ⟨_, lastCall_of_findIbRef ‹_›, hw2, rfl⟩
    · cases h
      refine .inr ⟨fun pk hpk hlim => ?_, rfl⟩
      exact ref_eq_none_iff.mp (findIbRef_eq_none_iff.mp ‹_› pk hpk) (by omega)

/-- The ring calls one buffer, which calls another after two register writes. -/
theorem view_spec_two :
    ∃ pre L1 w1, LastCall (· = 0x3f) [0xc0013f00, 0x1000, 7] 0x1000 3 pre L1 ∧
      read [⟨0x1000, 28, some [0x10000, 1, 2, 0xc0013f00, 0x2000, 1, 0]⟩, ⟨0x2000, 4, some [0x80000000]⟩] 0x1000 L1 =
        some w1 ∧
      ((∃ L2, LastCall (· = 0x3f) w1 0x2000 ((L1 : ℤ) - (0 : ℕ) + 1) [⟨0, .type0 0 false, [1, 2]⟩] L2 ∧
          read [⟨0x1000, 28, some [0x10000, 1, 2, 0xc0013f00, 0x2000, 1, 0]⟩, ⟨0x2000, 4, some [0x80000000]⟩]
            0x2000 L2 = some [0x80000000] ∧ (1 : ℤ) = (L2 : ℤ) - (0 : ℕ)) ∨
        (∀ pk ∈ packets w1, (pk.i : ℤ) ≤ (L1 : ℤ) - (0 : ℕ) → callSize (· = 0x3f) 0x2000 pk = none) ∧
          (⟨[0x80000000], 1, [⟨0, .type0 0 false, [1, 2]⟩]⟩ : View) = ⟨w1, (L1 : ℤ) - (0 : ℕ), []⟩) :=
  view_spec (v := ⟨[0x80000000], 1, [⟨0, .type0 0 false, [1, 2]⟩]⟩) (by decide +kernel)

def Packet.writes (pk : Packet) : List (ℕ × ℕ) :=
  match pk.op with
  | .type0 reg one => pk.p.zipIdx.map fun q => (if one then reg else reg + q.2, q.1)
  | _ => []

def lastWrite (pks : List Packet) (r : ℕ) : Option ℕ :=
  (((pks.flatMap Packet.writes).filter fun q => q.1 = r).getLast?).map Prod.snd

def setReg (state : Regs) (q : ℕ × ℕ) : Regs := Function.update state q.1 (some q.2)

theorem writeRegs_eq (reg : ℕ) (one : Bool) (k : ℕ) (p : List ℕ) (state : Regs) :
    writeRegs reg one k p state =
      ((p.zipIdx k).map fun q => (if one then reg else reg + q.2, q.1)).foldl setReg state := by
  induction p generalizing k state with
  | nil => rfl
  | cons v p ih => exact ih (k + 1) _

theorem Packet.apply_eq (state : Regs) (pk : Packet) : pk.apply state = pk.writes.foldl setReg state := by
  unfold Packet.apply Packet.writes
  split
  · exact writeRegs_eq ..
  · rfl

theorem foldl_setReg (ws : List (ℕ × ℕ)) (state : Regs) (r : ℕ) :
    ws.foldl setReg state r = (((ws.filter fun q => q.1 = r).getLast?).map Prod.snd).or (state r) := by
  induction ws generalizing state with
  | nil => rfl
  | cons q ws ih =>
      rw [List.foldl_cons, ih, setReg]
      by_cases hq : q.1 = r
      · subst hq
        rw [Function.update_self, List.filter_cons_of_pos (by simp), List.getLast?_cons]
        cases (ws.filter fun q' => q'.1 = q.1).getLast? <;> rfl
      · rw [Function.update_of_ne (Ne.symm hq), List.filter_cons_of_neg (by simpa using hq)]

theorem foldl_apply (pks : List Packet) : (pks.foldl Packet.apply fun _ => none) = lastWrite pks := by
  funext r
  have happly : (fun (state : Regs) pk => Packet.apply state pk) = fun state pk => pk.writes.foldl setReg state :=
    funext₂ Packet.apply_eq
  rw [show (Packet.apply : Regs → Packet → Regs) = _ from happly, ← List.foldl_flatMap, foldl_setReg, Option.or_none,
    lastWrite]

theorem named_draw {ops : ℕ → Str} {pk : Packet} (h : pk.named ops CP_DRAW_INDX = true) :
    pk.named ops CP_DRAW = true := by
  unfold Packet.named at h ⊢
  split at h
  · have hstarts : CP_DRAW <+: CP_DRAW_INDX := by decide
    exact List.isPrefixOf_iff_prefix.mpr (hstarts.trans (List.isPrefixOf_iff_prefix.mp h))
  · cases h

theorem apply_of_named {ops : ℕ → Str} {v : Str} {pk : Packet} (h : pk.named ops v = true) (state : Regs) :
    pk.apply state = state := by
  unfold Packet.named at h
  unfold Packet.apply
  split at h
  · rw [‹pk.op = _›]
  · cases h

/-- The packet with its place, and the registers as last written before it: by the packets before the buffer and by
those of the buffer. -/
def View.inForce (v : View) (q : Packet × ℕ) : Packet × Regs :=
  (q.1, lastWrite (v.before ++ (packets v.words).take q.2))

theorem foldl_apply_snoc (done : List Packet) (pk : Packet) (state : Regs) :
    (done ++ [pk]).foldl Packet.apply state = pk.apply (done.foldl Packet.apply state) := by
  rw [List.foldl_append]
  rfl

section
variable (ops : ℕ → Str) (before : List Packet)

/-- The packet has a line in the table. -/
def InTable (q : Packet × ℕ) : Prop := q.1.named ops CP_DRAW ∧ 3 ≤ q.1.p.length

instance : DecidablePred (InTable ops) := fun _ => inferInstanceAs (Decidable (_ ∧ _))

/-- The packet at this place is shown in the window around the packet `k`, and is a draw. -/
def InWindow (window k : ℕ) (q : Packet × ℕ) : Prop :=
  k - window ≤ q.2 ∧ q.2 ≤ k + 8 ∧ q.1.named ops CP_DRAW_INDX

instance (window k : ℕ) : DecidablePred (InWindow ops window k) := fun _ => inferInstanceAs (Decidable (_ ∧ _ ∧ _))

/-- The table from some packet on. -/
theorem allDraws_eq (pre pks : List Packet) :
    allDraws ops ((before ++ pre).foldl Packet.apply fun _ => none) pks =
      ((pks.zipIdx pre.length).filter fun q => InTable ops q).map
        fun q => (q.1, lastWrite (before ++ (pre ++ pks).take q.2)) := by
  induction pks generalizing pre with
  | nil => rfl
  | cons pk pks ih =>
      have hrest := ih (pre ++ [pk])
      rw [← List.append_assoc, foldl_apply_snoc, List.append_assoc pre, List.length_append, List.length_singleton,
        List.singleton_append] at hrest
      rw [List.zipIdx_cons, allDraws]
      by_cases hdraw : pk.named ops CP_DRAW ∧ pk.p.length ≥ 3
      · rw [apply_of_named hdraw.1] at hrest
        have hin : InTable ops (pk, pre.length) := hdraw
        rw [if_pos hdraw, hrest, List.filter_cons, if_pos (decide_eq_true hin), List.map_cons, List.take_left,
          foldl_apply]
      · have hout : ¬InTable ops (pk, pre.length) := hdraw
        rw [if_neg hdraw, hrest, List.filter_cons, if_neg (mt of_decide_eq_true hout)]

/-- Behind the window nothing is shown. -/
theorem filter_behind {window k n : ℕ} (hn : k + 8 < n) (pks : List Packet) :
    (pks.zipIdx n).filter (fun q => InWindow ops window k q) = [] := by
  refine List.filter_eq_nil_iff.mpr fun q hq h => ?_
  have hle := (of_decide_eq_true h).2.1
  have hge := List.le_snd_of_mem_zipIdx hq
  omega

/-- The window from some packet on. -/
theorem windowFrom_eq (window k : ℕ) (pre pks : List Packet) :
    windowFrom ops window k pre.length ((before ++ pre).foldl Packet.apply fun _ => none) pks =
      ((pks.zipIdx pre.length).filter fun q => InWindow ops window k q).map
        fun q => (q.1, lastWrite (before ++ (pre ++ pks).take q.2)) := by
  induction pks generalizing pre with
  | nil => rfl
  | cons pk pks ih =>
      have hrest := ih (pre ++ [pk])
      rw [← List.append_assoc, foldl_apply_snoc, List.append_assoc pre, List.length_append, List.length_singleton,
        List.singleton_append] at hrest
      rw [windowFrom]
      split
      · rename_i hearly
        have hout : ¬InWindow ops window k (pk, pre.length) := fun hin => absurd hin.1 (not_le.mpr hearly)
        rw [hrest, List.zipIdx_cons, List.filter_cons, if_neg (mt of_decide_eq_true hout)]
      · split
        · rename_i hlate
          rw [filter_behind ops hlate, List.map_nil]
        · dsimp only
          split
          · rename_i hdraw
            have hin : InWindow ops window k (pk, pre.length) := ⟨not_lt.mp ‹_›, not_lt.mp ‹_›, hdraw⟩
            rw [hrest, List.zipIdx_cons, List.filter_cons, if_pos (decide_eq_true hin), List.map_cons, List.take_left,
              apply_of_named hdraw, foldl_apply]
          · rename_i hdraw
            have hout : ¬InWindow ops window k (pk, pre.length) := fun hin => hdraw hin.2.2
            rw [hrest, List.zipIdx_cons, List.filter_cons, if_neg (mt of_decide_eq_true hout)]

end

end Sirius.Pm4
