/-
Runs that come to an end, and runs that need not. A number that falls with
every step a run may take bounds the run; where it falls by as much as the
step puts out, it bounds what the run puts out, and where it also rises by
what the step takes in, the two balance. A run that ends where it began can
be taken as often as one likes.
-/
import GateNode.Lib.Lts

namespace Lts

variable {σ ℓ α : Type} {step : σ → ℓ → Option σ} {G : σ → ℓ → Prop} {f g : σ → ℓ → List α} {s t : σ} {ls : List ℓ}
  {I : σ → Prop}

/-- The rank rule: what the steps put out is paid for by the rank. -/
theorem length_collect_add_rank_le (rank : σ → Nat) (h : exec step s ls = some t) (hg : Along step G s ls) (h0 : I s)
    (hs : ∀ t l u, I t → G t l → step t l = some u → I u ∧ (f t l).length + rank u ≤ rank t) :
    I t ∧ (collect step f s ls).length + rank t ≤ rank s := by
  refine exec_history (I := fun ls t => Along step G s ls →
    I t ∧ (collect step f s ls).length + rank t ≤ rank s) h (fun _ => ⟨h0, by simp⟩) ?_ hg
  intro ls t l u ht ih hl ha
  obtain ⟨ha, hl'⟩ := (along_snoc ht).mp ha
  obtain ⟨hi, hle⟩ := ih ha
  obtain ⟨hi', hle'⟩ := hs t l u hi hl' hl
  refine ⟨hi', ?_⟩
  rw [collect_snoc ht, List.length_append]
  omega

/-- A run has at most as many steps as its rank has to fall. -/
theorem length_add_rank_le (rank : σ → Nat) (h : exec step s ls = some t) (hg : Along step G s ls) (h0 : I s)
    (hs : ∀ t l u, I t → G t l → step t l = some u → I u ∧ rank u < rank t) :
    I t ∧ ls.length + rank t ≤ rank s := by
  refine exec_history (I := fun ls t => Along step G s ls → I t ∧ ls.length + rank t ≤ rank s) h
    (fun _ => ⟨h0, by simp⟩) ?_ hg
  intro ls t l u ht ih hl ha
  obtain ⟨ha, hl'⟩ := (along_snoc ht).mp ha
  obtain ⟨hi, hle⟩ := ih ha
  obtain ⟨hi', hlt⟩ := hs t l u hi hl' hl
  refine ⟨hi', ?_⟩
  rw [List.length_append, List.length_singleton]
  omega

/-- The balance rule: what was taken in is held, or was put out. -/
theorem balance (held : σ → Nat) (h : exec step s ls = some t) (hg : Along step G s ls) (h0 : I s)
    (hs : ∀ t l u, I t → G t l → step t l = some u → I u ∧ held u + (f t l).length = held t + (g t l).length) :
    I t ∧ held t + (collect step f s ls).length = held s + (collect step g s ls).length := by
  refine exec_history (I := fun ls t => Along step G s ls →
    I t ∧ held t + (collect step f s ls).length = held s + (collect step g s ls).length) h (fun _ => ⟨h0, by simp⟩) ?_ hg
  intro ls t l u ht ih hl ha
  obtain ⟨ha, hl'⟩ := (along_snoc ht).mp ha
  obtain ⟨hi, heq⟩ := ih ha
  obtain ⟨hi', heq'⟩ := hs t l u hi hl' hl
  refine ⟨hi', ?_⟩
  rw [collect_snoc ht, collect_snoc ht, List.length_append, List.length_append]
  omega

/-- A run from a state back to it, any number of times over. -/
theorem exec_flatten_replicate (h : exec step s ls = some s) (n : Nat) :
    exec step s (List.replicate n ls).flatten = some s := by
  induction n with
  | zero => rfl
  | succ n ih => rw [List.replicate_succ, List.flatten_cons, exec_append, h, Option.bind_some, ih]

/-- It puts out the same every time. -/
theorem length_collect_flatten_replicate (h : exec step s ls = some s) (n : Nat) :
    (collect step f s (List.replicate n ls).flatten).length = n * (collect step f s ls).length := by
  induction n with
  | zero => simp
  | succ n ih =>
    rw [List.replicate_succ, List.flatten_cons, collect_append h, List.length_append, ih, Nat.succ_mul, Nat.add_comm]

end Lts
