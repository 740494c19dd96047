/-
A part of a larger system: each step of the whole is some run of the part,
most often of no step or of one. A run of the whole is then a run of the
part.
-/
import GateNode.Lib.Lts

namespace Lts

variable {σ τ ℓ μ : Type} {step : σ → ℓ → Option σ} {partStep : τ → μ → Option τ} {labels : σ → ℓ → List μ}
  {s t : σ} {ls : List ℓ}

/-- The part rule: what the steps of the whole are to the part, one after the other, is a run of the part. -/
theorem exec_part (part : σ → τ) (h : exec step s ls = some t)
    (hs : ∀ t l u, step t l = some u → exec partStep (part t) (labels t l) = some (part u)) :
    exec partStep (part s) (collect step labels s ls) = some (part t) := by
  refine exec_history (I := fun ls t => exec partStep (part s) (collect step labels s ls) = some (part t)) h rfl ?_
  intro ls t l u ht ih hl
  rw [collect_snoc ht, exec_append, ih]
  exact hs t l u hl

end Lts
