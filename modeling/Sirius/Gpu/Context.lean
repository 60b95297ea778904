import Mathlib.Data.Nat.Notation
import Sirius.Lib.Runs

/-!
# The context the GPU has loaded

`a3xx_submit` runs a submit's restore buffer only if another context was submitted before, by a number
the driver keeps. A reset takes the loaded context away; the patched `a3xx_hw_init` forgets the number
with it.
-/
namespace Sirius.Gpu
open Runs

inductive SubmitCmd
  | buf (iova : ℕ)
  | ibTargetBuf (iova : ℕ)
  | ctxRestoreBuf (iova : ℕ)
  deriving DecidableEq, Repr

def SubmitCmd.isRestore : SubmitCmd → Bool
  | .ctxRestoreBuf _ => true
  | _ => false

structure MsmGemSubmit where
  seqno : ℕ
  cmds : List SubmitCmd
  seqno_ne_zero : seqno ≠ 0
  restores : ∃ cmd ∈ cmds, cmd.isRestore = true

/-- The number of the ring, and the context whose state the hardware holds. -/
structure A3xx where
  curCtxSeqno : ℕ
  loaded : Option ℕ
  deriving DecidableEq, Repr

/-- What the buffers of a submit of the context `ctx` run with, and what they leave loaded; `ctx_restore`
says whether its restore buffers are run. -/
def execute (ctx_restore : Bool) (ctx : ℕ) : List SubmitCmd → Option ℕ → List (ℕ × Option ℕ) × Option ℕ
  | [], loaded => ([], loaded)
  | .ibTargetBuf _ :: cmds, loaded => execute ctx_restore ctx cmds loaded
  | .ctxRestoreBuf _ :: cmds, loaded =>
    if ctx_restore then execute ctx_restore ctx cmds (some ctx) else execute ctx_restore ctx cmds loaded
  | .buf iova :: cmds, loaded =>
    let rest := execute ctx_restore ctx cmds loaded
    ((iova, loaded) :: rest.1, rest.2)

namespace A3xx

/-- `a3xx_submit`: the restore buffer is ignored if there has not been a context switch. -/
def submit (gpu : A3xx) (submit : MsmGemSubmit) : List (ℕ × Option ℕ) × Option ℕ :=
  execute (gpu.curCtxSeqno ≠ submit.seqno) submit.seqno submit.cmds gpu.loaded

/-- The number that the patch clears for the one ring of the device. -/
def hwInit (gpu : A3xx) : A3xx := { gpu with curCtxSeqno := 0 }

end A3xx

inductive GpuOp
  | submit (submit : MsmGemSubmit)
  | reset

/-- The submitting context is recorded behind `a3xx_submit`. -/
def gpuStep (gpu : A3xx) : GpuOp → A3xx
  | .submit submit => { curCtxSeqno := submit.seqno, loaded := (gpu.submit submit).2 }
  | .reset => A3xx.hwInit { gpu with loaded := none }

def gpuOutput (gpu : A3xx) : GpuOp → List (ℕ × Option ℕ)
  | .submit submit => (gpu.submit submit).1
  | .reset => []

/-- Every restore buffer is run. -/
def plainStep (loaded : Option ℕ) : GpuOp → Option ℕ
  | .submit submit => (execute true submit.seqno submit.cmds loaded).2
  | .reset => none

def plainOutput (loaded : Option ℕ) : GpuOp → List (ℕ × Option ℕ)
  | .submit submit => (execute true submit.seqno submit.cmds loaded).1
  | .reset => []

/-- Both hold the same context, which is the one of the number where there is a number. -/
def SameLoaded (gpu : A3xx) (loaded : Option ℕ) : Prop :=
  gpu.loaded = loaded ∧ (gpu.curCtxSeqno ≠ 0 → gpu.loaded = some gpu.curCtxSeqno)

theorem execute_loaded (ctx_restore : Bool) (ctx : ℕ) (cmds : List SubmitCmd) :
    execute ctx_restore ctx cmds (some ctx) = execute true ctx cmds (some ctx) ∧
      (execute true ctx cmds (some ctx)).2 = some ctx := by
  induction cmds with
  | nil => exact ⟨rfl, rfl⟩
  | cons cmd cmds ih =>
      obtain ⟨hsame, hloaded⟩ := ih
      cases cmd with
      | ibTargetBuf iova => exact ⟨hsame, hloaded⟩
      | ctxRestoreBuf iova =>
          refine ⟨?_, hloaded⟩
          simp only [execute, hsame, ite_self]
      | buf iova =>
          refine ⟨?_, hloaded⟩
          simp only [execute, hsame]

theorem execute_restores (ctx : ℕ) {cmds : List SubmitCmd} (h : ∃ cmd ∈ cmds, cmd.isRestore = true)
    (loaded : Option ℕ) : (execute true ctx cmds loaded).2 = some ctx := by
  induction cmds generalizing loaded with
  | nil =>
      obtain ⟨cmd, hcmd, _⟩ := h
      cases hcmd
  | cons cmd cmds ih =>
      cases cmd with
      | ctxRestoreBuf iova => exact (execute_loaded true ctx cmds).2
      | ibTargetBuf iova => exact ih (by simpa [SubmitCmd.isRestore] using h) loaded
      | buf iova => exact ih (by simpa [SubmitCmd.isRestore] using h) loaded

theorem SameLoaded.submit_eq {gpu : A3xx} {loaded : Option ℕ} (h : SameLoaded gpu loaded)
    (submit : MsmGemSubmit) : gpu.submit submit = execute true submit.seqno submit.cmds loaded := by
  obtain ⟨rfl, hcur⟩ := h
  unfold A3xx.submit
  by_cases hswitch : gpu.curCtxSeqno = submit.seqno
  · have hloaded : gpu.loaded = some submit.seqno := by
      rw [hcur (hswitch ▸ submit.seqno_ne_zero), hswitch]
    rw [hloaded]
    exact (execute_loaded _ _ _).1
  · simp only [ne_eq, hswitch, not_false_eq_true, decide_true]

theorem SameLoaded.step {gpu : A3xx} {loaded : Option ℕ} (h : SameLoaded gpu loaded) (op : GpuOp) :
    SameLoaded (gpuStep gpu op) (plainStep loaded op) := by
  cases op with
  | submit submit =>
      have heq := h.submit_eq submit
      refine ⟨congrArg Prod.snd heq, fun _ => ?_⟩
      exact (congrArg Prod.snd heq).trans (execute_restores _ submit.restores _)
  | reset => exact ⟨rfl, fun hne => absurd rfl hne⟩

theorem SameLoaded.output_eq {gpu : A3xx} {loaded : Option ℕ} (h : SameLoaded gpu loaded) (op : GpuOp) :
    gpuOutput gpu op = plainOutput loaded op := by
  cases op with
  | submit submit => exact congrArg Prod.fst (h.submit_eq submit)
  | reset => rfl

theorem SameLoaded.boot : SameLoaded ⟨0, none⟩ none := ⟨rfl, fun hne => absurd rfl hne⟩

/-- Over every sequence of submits and resets, each submit's buffers run with the same loaded context as
in the execution that always runs the restore buffer. -/
theorem skipped_restore_invisible (ops : List GpuOp) :
    outputs gpuStep gpuOutput ⟨0, none⟩ ops = outputs plainStep plainOutput none ops := by
  refine outputs_eq_of_simulation ?_ ?_ SameLoaded.boot ops
  · intro gpu loaded op h
    exact SameLoaded.output_eq h op
  · intro gpu loaded op h
    exact SameLoaded.step h op

def smallSubmit (seqno : ℕ) (h : seqno ≠ 0) : MsmGemSubmit where
  seqno := seqno
  cmds := [.ctxRestoreBuf 0x1000, .buf seqno]
  seqno_ne_zero := h
  restores := ⟨_, List.mem_cons_self, rfl⟩

/-- Two contexts, the first twice in a row, and the second again after a reset. -/
theorem skipped_restore_invisible_two :
    outputs gpuStep gpuOutput ⟨0, none⟩ [.submit (smallSubmit 1 (by decide)), .submit (smallSubmit 1 (by decide)),
        .submit (smallSubmit 2 (by decide)), .reset, .submit (smallSubmit 2 (by decide))] =
      [[(1, some 1)], [(1, some 1)], [(2, some 2)], [], [(2, some 2)]] :=
  (skipped_restore_invisible _).trans (by decide)

end Sirius.Gpu
