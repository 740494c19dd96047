/-
Deleting inputs from the history of a machine that answers every input. The
inputs come marked: `true` is kept, `false` deleted. Where each deleted input
leaves the state it meets as it was, the deletion shows neither in what the
kept inputs are answered nor in the state at the end.
-/
import GateNode.Lib.Since

namespace Purge

variable {σ α β : Type}

/-- The state the inputs leave, whatever their marks. -/
def state (step : σ → α → σ) (s : σ) (inputs : List (Bool × α)) : σ :=
  (inputs.map Prod.snd).foldl step s

/-- The answers to the inputs, each with the mark of its input. -/
def answers (step : σ → α → σ) (out : σ → α → β) : σ → List (Bool × α) → List (Bool × β)
  | _, [] => []
  | s, (kept, a) :: inputs => (kept, out s a) :: answers step out (step s a) inputs

/-- The inputs that are kept. -/
def kept {γ : Type} (inputs : List (Bool × γ)) : List (Bool × γ) := inputs.filter Prod.fst

/-- An input behind `before`, if it is deleted, leaves the state as it was. -/
def Idle (step : σ → α → σ) (s : σ) (before : List (Bool × α)) (input : Bool × α) : Prop :=
  input.1 = false → step (state step s before) input.2 = state step s before

variable {step : σ → α → σ} {out : σ → α → β} {s : σ} {before inputs : List (Bool × α)} {input : Bool × α} {a : α}

@[simp] theorem kept_nil : kept ([] : List (Bool × α)) = [] := rfl
@[simp] theorem kept_cons_true : kept ((true, a) :: inputs) = (true, a) :: kept inputs := rfl
@[simp] theorem kept_cons_false : kept ((false, a) :: inputs) = kept inputs := rfl

@[simp] theorem state_snoc : state step s (before ++ [input]) = step (state step s before) input.2 := by
  simp [state]

theorem state_kept (h : History.Always (Idle step s) before inputs) :
    state step (state step s before) (kept inputs) = state step (state step s before) inputs := by
  induction inputs generalizing before with
  | nil => rfl
  | cons input inputs ih =>
    obtain ⟨hi, h⟩ := History.always_cons.mp h
    have ih := ih h
    rw [state_snoc] at ih
    obtain ⟨_ | _, a⟩ := input
    · have hi : step (state step s before) a = state step s before := hi rfl
      rw [hi] at ih
      show state step (state step s before) (kept inputs) = state step (step (state step s before) a) inputs
      rw [hi, ih]
    · exact ih

theorem answers_kept (h : History.Always (Idle step s) before inputs) :
    kept (answers step out (state step s before) inputs) =
      answers step out (state step s before) (kept inputs) := by
  induction inputs generalizing before with
  | nil => rfl
  | cons input inputs ih =>
    obtain ⟨hi, h⟩ := History.always_cons.mp h
    have ih := ih h
    rw [state_snoc] at ih
    obtain ⟨_ | _, a⟩ := input
    · have hi : step (state step s before) a = state step s before := hi rfl
      rw [hi] at ih
      show kept (answers step out (step (state step s before) a) inputs) = _
      rw [hi, ih]
      rfl
    · exact congrArg ((true, out (state step s before) a) :: ·) ih

end Purge
