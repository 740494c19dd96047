/-
Upgrades on trial. What runs gives way to something better and is kept until
the better one is approved; given up before, that gives way to it again. What
is approved only gets better, whatever is tried in between.
-/
import Mathlib.Order.Defs.Unbundled
import GateNode.Lib.Lts

namespace Rollback

open Lts

variable {α σ ℓ : Type}

/-- What runs, and while it is on trial what it would be given up for. -/
structure Slots (α : Type) where
  current : α
  fallback : Option α := none

/-- What was approved last. -/
def Slots.approved (s : Slots α) : α := s.fallback.getD s.current

/-- A step, and what it approves. -/
inductive Slots.Step (better : α → α → Prop) (s : Slots α) : List α → Slots α → Prop
  | keep : Step better s [] s
  | install (new : α) (hf : s.fallback = none) (hb : better new s.current) : Step better s [] ⟨new, some s.current⟩
  | approve (old : α) (hf : s.fallback = some old) : Step better s [s.current] ⟨s.current, none⟩
  | rollBack (old : α) (hf : s.fallback = some old) : Step better s [] ⟨old, none⟩

/-- Approved were `as`, each better than those before it; what is on trial is better than the last. -/
structure Slots.Rising (better : α → α → Prop) (as : List α) (s : Slots α) : Prop where
  pairwise : as.Pairwise fun old new => better new old
  last : as.getLast? = some s.approved
  trial : ∀ old ∈ s.fallback, better s.current old

variable {better : α → α → Prop} {as bs : List α} {s t : Slots α}

theorem Slots.Rising.step [IsTrans α better] (h : s.Rising better as) (hs : s.Step better bs t) :
    t.Rising better (as ++ bs) := by
  cases hs with
  | keep => rwa [List.append_nil]
  | install new hf hb =>
    rw [List.append_nil]
    refine ⟨h.pairwise, ?_, ?_⟩
    · rw [h.last]
      simp [approved, hf]
    · intro old hold
      obtain rfl := Option.some.inj hold
      exact hb
  | rollBack old hf =>
    rw [List.append_nil]
    refine ⟨h.pairwise, ?_, by simp⟩
    rw [h.last]
    simp [approved, hf]
  | approve old hf =>
    refine ⟨?_, by simp [approved], by simp⟩
    have hlast : as.getLast? = some old := by
      rw [h.last]
      simp [approved, hf]
    obtain ⟨init, rfl⟩ := List.getLast?_eq_some_iff.mp hlast
    rw [List.pairwise_append]
    refine ⟨h.pairwise, List.pairwise_singleton _ _, fun a ha b hb => ?_⟩
    rw [List.mem_singleton.mp hb]
    have hnew : better s.current old := h.trial old hf
    rcases List.mem_append.mp ha with ha | ha
    · have hold : better old a := (List.pairwise_append.mp h.pairwise).2.2 a ha old (List.mem_singleton_self old)
      exact IsTrans.trans _ _ _ hnew hold
    · rw [List.mem_singleton.mp ha]
      exact hnew

/-- The approval rule: over a run of any system whose steps are such steps, what is approved rises. -/
theorem rising_run [IsTrans α better] {step : σ → ℓ → Option σ} {G : σ → ℓ → Prop} {f : σ → ℓ → List α} {I : σ → Prop}
    (slots : σ → Slots α) {s t : σ} {ls : List ℓ} (h : exec step s ls = some t) (hg : Along step G s ls) (h0 : I s)
    (hs0 : (slots s).fallback = none)
    (hs : ∀ t l u, I t → G t l → step t l = some u → I u ∧ (slots t).Step better (f t l) (slots u)) :
    I t ∧ (slots t).Rising better ((slots s).current :: collect step f s ls) := by
  refine exec_history (I := fun ls t => Along step G s ls →
    I t ∧ (slots t).Rising better ((slots s).current :: collect step f s ls)) h (fun _ => ⟨h0, ?_⟩) ?_ hg
  · refine ⟨by simp, ?_, by simp [hs0]⟩
    simp [Slots.approved, hs0]
  · intro ls t l u ht ih hl ha
    obtain ⟨ha, hl'⟩ := (along_snoc ht).mp ha
    obtain ⟨hi, hrising⟩ := ih ha
    obtain ⟨hi', hstep⟩ := hs t l u hi hl' hl
    refine ⟨hi', ?_⟩
    rw [collect_snoc ht, ← List.cons_append]
    exact hrising.step hstep

end Rollback
