import Mathlib.Data.List.Basic
import Mathlib.Logic.Function.Basic

/-!
# Fields of a register file

A register is written under a mask: the bits of the mask take the new value and the others keep theirs. A field
is a run of bits of one register. What is written to it is read back, and a write that shares no bit with it
leaves it alone.
-/
namespace Fields

variable {w : ℕ}

/-- A register, the bits of it that are written and what they get. -/
structure MaskVal (w : ℕ) where
  reg : ℕ
  mask : BitVec w
  val : BitVec w
  deriving DecidableEq, Repr

def maskWrite (regs : ℕ → BitVec w) (r : MaskVal w) : ℕ → BitVec w :=
  Function.update regs r.reg ((regs r.reg &&& ~~~r.mask) ||| (r.val &&& r.mask))

/-- The bits of `mask` in the register, from bit `shift` on; none of them is beyond its end. -/
structure Field (w : ℕ) where
  reg : ℕ
  shift : ℕ
  mask : BitVec w
  fits : (mask <<< shift) >>> shift = mask

def Field.bits (f : Field w) : BitVec w := f.mask <<< f.shift

def Field.get (f : Field w) (regs : ℕ → BitVec w) : BitVec w := (regs f.reg >>> f.shift) &&& f.mask

@[simp]
theorem Field.get_zero (f : Field w) : (f.get fun _ => 0#w) = 0#w := by
  rw [Field.get, BitVec.zero_ushiftRight, BitVec.zero_and]

/-- The write that sets the field. -/
def Field.row (f : Field w) (val : BitVec w) : MaskVal w := ⟨f.reg, f.bits, val <<< f.shift⟩

/-- The write has no bit of the field. -/
def Field.Apart (f : Field w) (r : MaskVal w) : Prop := f.reg = r.reg → f.bits &&& r.mask = 0

instance (f : Field w) (r : MaskVal w) : Decidable (f.Apart r) := inferInstanceAs (Decidable (_ → _))

section
variable {f : Field w} {r : MaskVal w} {regs : ℕ → BitVec w}

theorem maskWrite_of_ne {reg : ℕ} (h : reg ≠ r.reg) : maskWrite regs r reg = regs reg := Function.update_of_ne h ..

theorem Field.row_of_shift_zero (h : f.shift = 0) (val : BitVec w) : f.row val = ⟨f.reg, f.mask, val⟩ := by
  rw [Field.row, Field.bits, h, BitVec.shiftLeft_zero, BitVec.shiftLeft_zero]

theorem Field.getLsbD_bits {i : ℕ} : f.bits.getLsbD (f.shift + i) = f.mask.getLsbD i := by
  have h := congrArg (BitVec.getLsbD · i) f.fits
  rwa [BitVec.getLsbD_ushiftRight] at h

/-- A bit of the field after a write to its register. -/
theorem Field.getLsbD_maskWrite (h : f.reg = r.reg) {i : ℕ} (hmask : f.mask.getLsbD i = true) :
    (f.get (maskWrite regs r)).getLsbD i =
      bif r.mask.getLsbD (f.shift + i) then r.val.getLsbD (f.shift + i) else (regs f.reg).getLsbD (f.shift + i) := by
  have hlt : f.shift + i < w := BitVec.lt_of_getLsbD (f.getLsbD_bits.trans hmask)
  rw [Field.get, maskWrite, h, Function.update_self, BitVec.getLsbD_and, hmask, Bool.and_true,
    BitVec.getLsbD_ushiftRight, BitVec.getLsbD_or, BitVec.getLsbD_and, BitVec.getLsbD_and, BitVec.getLsbD_not]
  cases r.mask.getLsbD (f.shift + i) <;> simp [hlt]

theorem Field.getLsbD_get (i : ℕ) :
    (f.get regs).getLsbD i = ((regs f.reg).getLsbD (f.shift + i) && f.mask.getLsbD i) := by
  rw [Field.get, BitVec.getLsbD_and, BitVec.getLsbD_ushiftRight]

/-- A write of the whole field. -/
theorem Field.get_of_within (h : f.reg = r.reg) (hbits : f.bits &&& r.mask = f.bits) :
    f.get (maskWrite regs r) = (r.val >>> f.shift) &&& f.mask := by
  refine BitVec.eq_of_getLsbD_eq fun i _ => ?_
  rw [BitVec.getLsbD_and, BitVec.getLsbD_ushiftRight]
  cases hmask : f.mask.getLsbD i with
  | false => rw [f.getLsbD_get, hmask, Bool.and_false, Bool.and_false]
  | true =>
      have hbit : r.mask.getLsbD (f.shift + i) = true := by
        have hbit := congrArg (BitVec.getLsbD · (f.shift + i)) hbits
        rwa [BitVec.getLsbD_and, f.getLsbD_bits, hmask, Bool.true_and] at hbit
      rw [getLsbD_maskWrite h hmask, hbit, cond_true, Bool.and_true]

theorem Field.get_row (val : BitVec w) : f.get (maskWrite regs (f.row val)) = val &&& f.mask := by
  refine (get_of_within rfl (BitVec.and_self)).trans (BitVec.eq_of_getLsbD_eq fun i _ => ?_)
  rw [BitVec.getLsbD_and, BitVec.getLsbD_and, BitVec.getLsbD_ushiftRight]
  cases hmask : f.mask.getLsbD i with
  | false => rw [Bool.and_false, Bool.and_false]
  | true =>
      have hlt : f.shift + i < w := BitVec.lt_of_getLsbD (f.getLsbD_bits.trans hmask)
      rw [Field.row, BitVec.getLsbD_shiftLeft, decide_eq_true hlt, decide_eq_false (by omega), Nat.add_sub_cancel_left]
      rfl

theorem Field.get_of_apart (h : f.Apart r) : f.get (maskWrite regs r) = f.get regs := by
  by_cases hreg : f.reg = r.reg
  · refine BitVec.eq_of_getLsbD_eq fun i _ => ?_
    cases hmask : f.mask.getLsbD i with
    | false => rw [f.getLsbD_get, f.getLsbD_get, hmask, Bool.and_false, Bool.and_false]
    | true =>
        have hbit : (f.bits &&& r.mask).getLsbD (f.shift + i) = false := by
          rw [h hreg]
          exact BitVec.getLsbD_zero
        rw [BitVec.getLsbD_and, f.getLsbD_bits, hmask, Bool.true_and] at hbit
        rw [getLsbD_maskWrite hreg hmask, hbit, cond_false, f.getLsbD_get, hmask, Bool.and_true]
  · rw [Field.get, Field.get, maskWrite_of_ne hreg]

/-- What is written to another field does not matter. -/
theorem Field.get_row_of_apart {g : Field w} (h : f.Apart (g.row 0)) (val : BitVec w) :
    f.get (maskWrite regs (g.row val)) = f.get regs :=
  get_of_apart (r := g.row val) h

def writeAll (regs : ℕ → BitVec w) (rows : List (MaskVal w)) : ℕ → BitVec w := rows.foldl maskWrite regs

theorem writeAll_append (as bs : List (MaskVal w)) : writeAll regs (as ++ bs) = writeAll (writeAll regs as) bs :=
  List.foldl_append

/-- A table none of whose rows has a bit of the field. -/
theorem Field.get_writeAll {rows : List (MaskVal w)} (h : ∀ r ∈ rows, f.Apart r) :
    f.get (writeAll regs rows) = f.get regs := by
  induction rows generalizing regs with
  | nil => rfl
  | cons r rows ih =>
      rw [writeAll, List.foldl_cons]
      exact (ih fun r' hr' => h r' (List.mem_cons_of_mem r hr')).trans (get_of_apart (h r List.mem_cons_self))

/-- The last row of a table that writes the whole field. -/
theorem Field.get_writeAll_last {as bs : List (MaskVal w)} (h : f.reg = r.reg) (hbits : f.bits &&& r.mask = f.bits)
    (hbs : ∀ r' ∈ bs, f.Apart r') : f.get (writeAll regs (as ++ r :: bs)) = (r.val >>> f.shift) &&& f.mask := by
  rw [writeAll_append]
  exact (get_writeAll hbs).trans (get_of_within h hbits)

variable {ι : Type*} [DecidableEq ι] {F : ι → Field w}

/-- One field of a family that share no bit. -/
theorem get_row_family (hF : ∀ i j, i ≠ j → (F i).Apart ((F j).row 0)) (val : BitVec w) (i j : ι) :
    (F i).get (maskWrite regs ((F j).row val)) = if i = j then val &&& (F i).mask else (F i).get regs := by
  by_cases hij : i = j
  · subst hij
    rw [if_pos rfl, Field.get_row]
  · rw [if_neg hij, Field.get_row_of_apart (hF i j hij)]

/-- The rows that write these values to these fields. -/
def rowsOf (F : ι → Field w) (ws : List (ι × BitVec w)) : List (MaskVal w) := ws.map fun r => (F r.1).row r.2

/-- What a field holds after some writes. -/
def lastWritten (F : ι → Field w) (i : ι) (ws : List (ι × BitVec w)) (old : BitVec w) : BitVec w :=
  ws.foldl (fun v r => if i = r.1 then r.2 &&& (F i).mask else v) old

/-- Values written to some of them, one after the other. -/
theorem get_writeAll_family (hF : ∀ i j, i ≠ j → (F i).Apart ((F j).row 0)) (ws : List (ι × BitVec w)) (i : ι) :
    (F i).get (writeAll regs (rowsOf F ws)) = lastWritten F i ws ((F i).get regs) := by
  induction ws generalizing regs with
  | nil => rfl
  | cons r ws ih =>
      rw [rowsOf, List.map_cons, writeAll, List.foldl_cons, lastWritten, List.foldl_cons, ← get_row_family hF]
      exact ih

theorem lastWritten_of_ne {ws : List (ι × BitVec w)} {i : ι} (h : ∀ r ∈ ws, i ≠ r.1) (old : BitVec w) :
    lastWritten F i ws old = old := by
  induction ws with
  | nil => rfl
  | cons r ws ih =>
      obtain ⟨hr, hws⟩ := List.forall_mem_cons.mp h
      rw [lastWritten, List.foldl_cons, if_neg hr]
      exact ih hws

/-- What was there before does not matter to a field that is written. -/
theorem lastWritten_of_mem {ws : List (ι × BitVec w)} {i : ι} (h : i ∈ ws.map Prod.fst) (old old' : BitVec w) :
    lastWritten F i ws old = lastWritten F i ws old' := by
  induction ws generalizing old old' with
  | nil => exact absurd h List.not_mem_nil
  | cons r ws ih =>
      rw [lastWritten, lastWritten, List.foldl_cons, List.foldl_cons]
      by_cases hr : i = r.1
      · rw [if_pos hr, if_pos hr]
      · rw [if_neg hr, if_neg hr]
        exact ih ((List.mem_cons.mp h).resolve_left hr) old old'

/-- The same value written to some of them. -/
theorem get_writeAll_rows {val : BitVec w} (hF : ∀ i j, i ≠ j → (F i).Apart ((F j).row 0)) (is : List ι) (i : ι) :
    (F i).get (writeAll regs (is.map fun j => (F j).row val)) =
      if i ∈ is then val &&& (F i).mask else (F i).get regs := by
  induction is generalizing regs with
  | nil => rfl
  | cons j is ih =>
      rw [List.map_cons, writeAll, List.foldl_cons]
      refine ih.trans ?_
      rw [get_row_family hF]
      by_cases hij : i = j
      · rw [if_pos hij, ite_self, if_pos (hij ▸ List.mem_cons_self)]
      · simp only [List.mem_cons, hij, false_or, if_false]

end
end Fields
