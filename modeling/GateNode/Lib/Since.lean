/-
"Since" and "always" over finite histories: something happened, and ever
since then something else has held; or it holds of every entry. Both are
judged of an entry together with the history before it, so they may speak of
the state the entry meets.
-/
import Mathlib.Data.List.Induction

namespace History

variable {ℓ : Type}

/-- An entry satisfied `P` in its turn, and every one after it `Q`. -/
def Since (P Q : List ℓ → ℓ → Prop) (ls : List ℓ) : Prop :=
  ∃ pre l post, ls = pre ++ l :: post ∧ P pre l ∧ ∀ p m q, post = p ++ m :: q → Q (pre ++ l :: p) m

variable {P Q : List ℓ → ℓ → Prop} {ls : List ℓ} {m : ℓ}

theorem not_since_nil : ¬ Since P Q [] := by
  rintro ⟨pre, l, post, h, -⟩
  exact List.append_ne_nil_of_right_ne_nil pre (List.cons_ne_nil l post) h.symm

theorem since_snoc : Since P Q (ls ++ [m]) ↔ P ls m ∨ Since P Q ls ∧ Q ls m := by
  constructor
  · rintro ⟨pre, l, post, h, hP, hQ⟩
    rcases List.eq_nil_or_concat post with rfl | ⟨post, m', rfl⟩
    · obtain ⟨rfl, he⟩ := List.append_inj' h rfl
      cases he
      exact .inl hP
    · have h : ls ++ [m] = (pre ++ l :: post) ++ [m'] := by rw [h, List.concat_eq_append]; simp
      obtain ⟨rfl, he⟩ := List.append_inj' h rfl
      cases he
      refine .inr ⟨⟨pre, l, post, rfl, hP, fun p k q hk => hQ p k (q ++ [m]) ?_⟩, hQ post m [] ?_⟩
      · rw [hk, List.concat_eq_append, List.append_assoc, List.cons_append]
      · exact List.concat_eq_append
  · rintro (hP | ⟨⟨pre, l, post, rfl, hP, hQ⟩, hm⟩)
    · refine ⟨ls, m, [], rfl, hP, fun p k q h => ?_⟩
      exact absurd h.symm (List.append_ne_nil_of_right_ne_nil p (List.cons_ne_nil k q))
    · refine ⟨pre, l, post ++ [m], by simp, hP, fun p k q h => ?_⟩
      rcases List.eq_nil_or_concat q with rfl | ⟨q, k', rfl⟩
      · obtain ⟨rfl, he⟩ := List.append_inj' h rfl
        cases he
        exact hm
      · have h : post ++ [m] = (p ++ k :: q) ++ [k'] := by rw [h, List.concat_eq_append]; simp
        obtain ⟨rfl, -⟩ := List.append_inj' h rfl
        exact hQ p k q rfl

/-- **What every entry switches on by `P` and keeps on by `Q` is on exactly since a `P` with `Q`s.** -/
theorem iff_since {A : List ℓ → Prop} (h0 : ¬ A []) (hs : ∀ ls m, A (ls ++ [m]) ↔ P ls m ∨ A ls ∧ Q ls m) :
    A ls ↔ Since P Q ls := by
  induction ls using List.reverseRecOn with
  | nil => exact iff_of_false h0 not_since_nil
  | append_singleton ls m ih => rw [hs, since_snoc, ih]

/-! ## Always -/

/-- Every entry of `ls`, in its turn behind `before`, satisfies `P`. -/
def Always (P : List ℓ → ℓ → Prop) (before ls : List ℓ) : Prop :=
  ∀ pre l post, ls = pre ++ l :: post → P (before ++ pre) l

variable {before : List ℓ} {l : ℓ} {ms : List ℓ}

@[simp] theorem always_nil : Always P before [] := by
  intro pre l post h
  simp at h

@[simp] theorem always_cons : Always P before (l :: ls) ↔ P before l ∧ Always P (before ++ [l]) ls := by
  constructor
  · intro h
    refine ⟨by simpa using h [] l ls rfl, fun pre m post hm => ?_⟩
    have := h (l :: pre) m post (by rw [hm, List.cons_append])
    simpa using this
  · rintro ⟨hl, hls⟩ pre m post h
    cases pre with
    | nil =>
      rw [List.nil_append, List.cons.injEq] at h
      rw [List.append_nil, ← h.1]
      exact hl
    | cons p pre =>
      rw [List.cons_append, List.cons.injEq] at h
      have := hls pre m post h.2
      rw [h.1] at this
      simpa using this

instance Always.decidable [∀ before l, Decidable (P before l)] : ∀ before ls, Decidable (Always P before ls)
  | _, [] => isTrue always_nil
  | before, l :: ls =>
    have := Always.decidable (before ++ [l]) ls
    decidable_of_iff (P before l ∧ Always P (before ++ [l]) ls) always_cons.symm

theorem always_append : Always P before (ls ++ ms) ↔ Always P before ls ∧ Always P (before ++ ls) ms := by
  induction ls generalizing before with
  | nil => simp
  | cons l ls ih => simp [ih, and_assoc]

end History
