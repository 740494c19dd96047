/-
Numbers drawn at random, counted. An outcome that fixes each draw by itself
is as rare as the draws together; a list of outcomes is at most as frequent as
all of them one after the other.
-/
import Mathlib.Algebra.Order.BigOperators.Group.Finset
import Mathlib.Data.Set.Card
import Mathlib.SetTheory.Cardinal.Finite

namespace Draws

variable {α β Ω ρ : Type}

/-- The numbers below `b` that leave the remainder `v`. -/
theorem ncard_mod_le (b : ℕ) {r : ℕ} (v : ℕ) : {a : Fin b | a.val % r = v}.ncard ≤ b / r + 1 := by
  have hinj : Function.Injective fun a : {a : Fin b | a.val % r = v} =>
      (⟨a.1.val / r, Nat.lt_succ_of_le (Nat.div_le_div_right a.1.isLt.le)⟩ : Fin (b / r + 1)) := by
    intro x y hxy
    have hdiv : x.1.val / r = y.1.val / r := congrArg Fin.val hxy
    have hmod : x.1.val % r = y.1.val % r := x.2.trans y.2.symm
    refine Subtype.ext (Fin.ext ?_)
    rw [← Nat.div_add_mod x.1.val r, ← Nat.div_add_mod y.1.val r, hdiv, hmod]
  calc {a : Fin b | a.val % r = v}.ncard = Nat.card {a : Fin b | a.val % r = v} := rfl
    _ ≤ Nat.card (Fin (b / r + 1)) := Nat.card_le_card_of_injective _ hinj
    _ = b / r + 1 := Nat.card_eq_fintype_card.trans (Fintype.card_fin _)

/-- The product rule, for an outcome that fixes every draw. -/
theorem ncard_pointwise_le [Finite α] {n k : ℕ} (f : α → β) (hk : ∀ b, {a | f a = b}.ncard ≤ k) (bs : Fin n → β) :
    {d : Fin n → α | ∀ i, f (d i) = bs i}.ncard ≤ k ^ n := by
  calc {d : Fin n → α | ∀ i, f (d i) = bs i}.ncard = Nat.card {d : Fin n → α // ∀ i, f (d i) = bs i} := rfl
    _ = Nat.card (∀ i, {a // f a = bs i}) :=
      Nat.card_congr (Equiv.subtypePiEquivPi (β := fun _ => α) (p := fun i a => f a = bs i))
    _ = ∏ i, Nat.card {a // f a = bs i} := Nat.card_pi
    _ ≤ k ^ (Finset.univ : Finset (Fin n)).card := Finset.prod_le_pow_card _ _ _ fun i _ => hk (bs i)
    _ = k ^ n := by rw [Finset.card_univ, Fintype.card_fin]

/-- The sum rule, over a list of outcomes. -/
theorem ncard_exists_le [Finite Ω] {k : ℕ} (rs : List ρ) (P : ρ → Ω → Prop) (h : ∀ r ∈ rs, {d | P r d}.ncard ≤ k) :
    {d | ∃ r ∈ rs, P r d}.ncard ≤ rs.length * k := by
  induction rs with
  | nil => simp
  | cons r rs ih =>
    have hsplit : {d | ∃ r' ∈ r :: rs, P r' d} = {d | P r d} ∪ {d | ∃ r' ∈ rs, P r' d} := by
      ext d
      simp
    rw [hsplit]
    calc ({d | P r d} ∪ {d | ∃ r' ∈ rs, P r' d}).ncard
        ≤ {d | P r d}.ncard + {d | ∃ r' ∈ rs, P r' d}.ncard := Set.ncard_union_le _ _
      _ ≤ k + rs.length * k :=
        Nat.add_le_add (h r List.mem_cons_self) (ih fun r' hr' => h r' (List.mem_cons_of_mem _ hr'))
      _ = (r :: rs).length * k := by rw [List.length_cons, Nat.succ_mul, Nat.add_comm]

end Draws
