/-
Labelled transition systems whose steps compute: `step s l` is the state
after the label `l`, or `none` where `s` does not enable it. All choice
(who moves, what an outside call answers) is in the label, so a run is the
list of its labels.

The rules are inductions on a run from its end: what a whole run keeps is
shown of its last step, with the run so far at hand.
-/
import Mathlib.Data.List.Induction

namespace Lts

variable {σ ℓ α : Type}

/-- The state after the labels of a run, if each was enabled in its turn. -/
def exec (step : σ → ℓ → Option σ) : σ → List ℓ → Option σ
  | s, [] => some s
  | s, l :: ls => (step s l).bind fun t => exec step t ls

/-- Every step of the run from `s`, up to the first label not enabled,
starts in a state where `G` admits its label. -/
def Along (step : σ → ℓ → Option σ) (G : σ → ℓ → Prop) : σ → List ℓ → Prop
  | _, [] => True
  | s, l :: ls => G s l ∧ match step s l with
    | some t => Along step G t ls
    | none => True

/-- What the steps of the run put out, in order. -/
def collect (step : σ → ℓ → Option σ) (f : σ → ℓ → List α) : σ → List ℓ → List α
  | _, [] => []
  | s, l :: ls => f s l ++ match step s l with
    | some t => collect step f t ls
    | none => []

variable {step : σ → ℓ → Option σ} {G : σ → ℓ → Prop} {f : σ → ℓ → List α} {s t u : σ} {l : ℓ}
  {ls ms : List ℓ}

instance Along.decidable [∀ s l, Decidable (G s l)] : ∀ s ls, Decidable (Along step G s ls)
  | _, [] => isTrue trivial
  | s, l :: ls =>
    @instDecidableAnd _ _ _ (match step s l with
      | some t => Along.decidable t ls
      | none => isTrue trivial)

@[simp] theorem exec_nil : exec step s [] = some s := rfl
@[simp] theorem collect_nil : collect step f s [] = [] := rfl

theorem exec_cons_eq_some : exec step s (l :: ls) = some u ↔ ∃ t, step s l = some t ∧ exec step t ls = some u :=
  Option.bind_eq_some_iff

theorem exec_append : exec step s (ls ++ ms) = (exec step s ls).bind fun t => exec step t ms := by
  induction ls generalizing s with
  | nil => rfl
  | cons l ls ih =>
    simp only [List.cons_append, exec]
    cases step s l with
    | none => rfl
    | some t => exact ih

theorem exec_append_eq_some :
    exec step s (ls ++ ms) = some u ↔ ∃ t, exec step s ls = some t ∧ exec step t ms = some u := by
  rw [exec_append, Option.bind_eq_some_iff]

theorem exec_snoc : exec step s (ls ++ [l]) = some u ↔ ∃ t, exec step s ls = some t ∧ step t l = some u := by
  simp [exec_append_eq_some, exec]

/-- A run that leaves nothing ends at a step that does. -/
theorem exec_eq_none (h : exec step s ls = none) :
    ∃ before l after t, ls = before ++ l :: after ∧ exec step s before = some t ∧ step t l = none := by
  induction ls generalizing s with
  | nil => cases h
  | cons l ls ih =>
    cases hstep : step s l with
    | none => exact ⟨[], l, ls, s, rfl, rfl, hstep⟩
    | some t =>
      rw [exec, hstep] at h
      obtain ⟨before, m, after, u, rfl, hu, hm⟩ := ih h
      exact ⟨l :: before, m, after, u, rfl, exec_cons_eq_some.mpr ⟨t, hstep, hu⟩, hm⟩

theorem along_append (h : exec step s ls = some t) :
    Along step G s (ls ++ ms) ↔ Along step G s ls ∧ Along step G t ms := by
  induction ls generalizing s with
  | nil =>
    cases h
    simp [Along]
  | cons m ls ih =>
    obtain ⟨v, hv, h⟩ := exec_cons_eq_some.mp h
    simp only [List.cons_append, Along, hv, ih h, and_assoc]

theorem along_singleton : Along step G s [l] ↔ G s l := by
  rw [Along, and_iff_left_iff_imp]
  intro _
  split <;> trivial

theorem along_snoc (h : exec step s ls = some t) :
    Along step G s (ls ++ [l]) ↔ Along step G s ls ∧ G t l := by
  rw [along_append h, along_singleton]

theorem collect_snoc (h : exec step s ls = some t) :
    collect step f s (ls ++ [l]) = collect step f s ls ++ f t l := by
  induction ls generalizing s with
  | nil =>
    cases h
    simp only [List.nil_append, collect]
    split <;> exact List.append_nil _
  | cons m ls ih =>
    obtain ⟨v, hv, h⟩ := exec_cons_eq_some.mp h
    simp only [List.cons_append, collect, hv, ih h, List.append_assoc]

theorem collect_append (h : exec step s ls = some t) :
    collect step f s (ls ++ ms) = collect step f s ls ++ collect step f t ms := by
  induction ls generalizing s with
  | nil => cases h; rfl
  | cons m ls ih =>
    obtain ⟨v, hv, h⟩ := exec_cons_eq_some.mp h
    simp only [List.cons_append, collect, hv, ih h, List.append_assoc]

/-- A run puts nothing out when none of its steps does. -/
theorem collect_eq_nil : collect step f s ls = [] ↔ Along step (fun s l => f s l = []) s ls := by
  induction ls generalizing s with
  | nil => exact iff_of_true rfl trivial
  | cons l ls ih =>
    rw [collect, Along, List.append_eq_nil_iff]
    refine and_congr_right fun _ => ?_
    cases step s l with
    | none => exact iff_of_true rfl trivial
    | some t => exact ih

/-- What holds of everything a step `G` admits puts out holds of everything the run does. -/
theorem forall_mem_collect {P : α → Prop} (h : Along step G s ls) (hf : ∀ s l, G s l → ∀ a ∈ f s l, P a) :
    ∀ a ∈ collect step f s ls, P a := by
  induction ls generalizing s with
  | nil => nofun
  | cons l ls ih =>
    obtain ⟨hl, h⟩ := h
    rw [collect, List.forall_mem_append]
    refine ⟨hf s l hl, ?_⟩
    cases hstep : step s l with
    | none => nofun
    | some t =>
      rw [hstep] at h
      exact ih h

/-- Whatever a run puts out is put out by one of its steps. -/
theorem collect_split {pre post : List α} {a : α} (h : collect step f s ls = pre ++ a :: post) :
    ∃ done l rest t p q, ls = done ++ l :: rest ∧ exec step s done = some t ∧ f t l = p ++ a :: q ∧
      pre = collect step f s done ++ p := by
  induction ls generalizing s pre with
  | nil => simp at h
  | cons l ls ih =>
    rw [collect] at h
    rcases List.append_eq_append_iff.mp h with ⟨c, rfl, hc⟩ | ⟨c, hl, hc⟩
    · cases hstep : step s l with
      | none => simp [hstep] at hc
      | some t =>
        rw [hstep] at hc
        obtain ⟨done, m, rest, u, p, q, rfl, hu, hm, rfl⟩ := ih hc
        refine ⟨l :: done, m, rest, u, p, q, rfl, exec_cons_eq_some.mpr ⟨t, hstep, hu⟩, hm, ?_⟩
        simp only [collect, hstep, List.append_assoc]
    · cases c with
      | nil =>
        rw [List.append_nil] at hl
        cases hstep : step s l with
        | none => simp [hstep] at hc
        | some t =>
          rw [hstep, List.nil_append] at hc
          obtain ⟨done, m, rest, u, p, q, rfl, hu, hm, hp⟩ := @ih t [] hc.symm
          refine ⟨l :: done, m, rest, u, p, q, rfl, exec_cons_eq_some.mpr ⟨t, hstep, hu⟩, hm, ?_⟩
          simp only [collect, hstep, List.append_assoc, ← hp, List.append_nil, hl]
      | cons b c =>
        rw [List.cons_append, List.cons.injEq] at hc
        obtain ⟨rfl, -⟩ := hc
        exact ⟨[], l, ls, s, pre, c, rfl, rfl, hl, rfl⟩

theorem Along.of_append (h : Along step G s (ls ++ ms)) : Along step G s ls := by
  induction ls generalizing s with
  | nil => trivial
  | cons l ls ih =>
    refine ⟨h.1, ?_⟩
    have h := h.2
    split
    · next t ht => rw [ht] at h; exact ih h
    · trivial

theorem along_of_forall (h : ∀ l ∈ ls, ∀ s, G s l) : Along step G s ls := by
  induction ls generalizing s with
  | nil => trivial
  | cons l ls ih =>
    refine ⟨h l List.mem_cons_self s, ?_⟩
    split
    · exact ih fun m hm => h m (List.mem_cons_of_mem _ hm)
    · trivial

/-- What the steps `G` admits keep may be used to show what else they are. -/
theorem Along.of_invariant {I : σ → Prop} {G' : σ → ℓ → Prop} (h : Along step G s ls) (h0 : I s)
    (hs : ∀ t l u, I t → G t l → step t l = some u → I u) (hg : ∀ t l, I t → G t l → G' t l) :
    Along step G' s ls := by
  induction ls generalizing s with
  | nil => trivial
  | cons l ls ih =>
    obtain ⟨hl, h⟩ := h
    refine ⟨hg s l h0 hl, ?_⟩
    cases hstep : step s l with
    | none => trivial
    | some t =>
      rw [hstep] at h
      exact ih h (hs s l t h0 hl hstep)

theorem along_congr_of_invariant {I : σ → Prop} {G' : σ → ℓ → Prop} (h0 : I s)
    (hs : ∀ t l u, I t → step t l = some u → I u) (hg : ∀ t l, I t → (G t l ↔ G' t l)) :
    Along step G s ls ↔ Along step G' s ls :=
  ⟨fun h => h.of_invariant h0 (fun t l u ht _ => hs t l u ht) fun t l ht => (hg t l ht).mp,
    fun h => h.of_invariant h0 (fun t l u ht _ => hs t l u ht) fun t l ht => (hg t l ht).mpr⟩

theorem along_congr {G' : σ → ℓ → Prop} (hg : ∀ s l, G s l ↔ G' s l) : Along step G s ls ↔ Along step G' s ls :=
  along_congr_of_invariant (I := fun _ => True) trivial (fun _ _ _ _ _ => trivial) fun t l _ => hg t l

/-! ## Run rules -/

/-- The history rule: a relation between the labels so far and the state
reached, kept by every step, holds of every run. -/
theorem exec_history {I : List ℓ → σ → Prop} (h : exec step s ls = some t) (h0 : I [] s)
    (hs : ∀ ls t l u, exec step s ls = some t → I ls t → step t l = some u → I (ls ++ [l]) u) :
    I ls t := by
  induction ls using List.reverseRecOn generalizing t with
  | nil => cases h; exact h0
  | append_singleton ls l ih =>
    obtain ⟨v, hv, hl⟩ := exec_snoc.mp h
    exact hs ls v l t hv (ih hv) hl

/-- The invariant rule for the runs whose steps `G` admits. -/
theorem exec_invariant_along {I : σ → Prop} (h : exec step s ls = some t) (hg : Along step G s ls)
    (h0 : I s) (hs : ∀ t l u, I t → G t l → step t l = some u → I u) : I t := by
  refine exec_history (I := fun ls t => Along step G s ls → I t) h (fun _ => h0) ?_ hg
  intro ls t l u ht ih hl ha
  obtain ⟨ha, hl'⟩ := (along_snoc ht).mp ha
  exact hs t l u (ih ha) hl' hl

/-- The invariant rule: what holds at the start and is kept by every step
holds of every state a run reaches. -/
theorem exec_invariant {I : σ → Prop} (h : exec step s ls = some t) (h0 : I s)
    (hs : ∀ t l u, I t → step t l = some u → I u) : I t :=
  exec_history (I := fun _ t => I t) h h0 fun _ t l u _ ht hl => hs t l u ht hl

/-- The counting rule: where each step puts out as much under `f` as under `g`, so does the run. -/
theorem collect_measure {β : Type} {g : σ → ℓ → List β} (m : List α → Nat) (n : List β → Nat)
    (hm : ∀ as bs, m (as ++ bs) = m as + m bs) (hn : ∀ as bs, n (as ++ bs) = n as + n bs)
    (h : exec step s ls = some t) (h0 : m [] = n []) (hs : ∀ s l, m (f s l) = n (g s l)) :
    m (collect step f s ls) = n (collect step g s ls) := by
  refine exec_history (I := fun ls _ => m (collect step f s ls) = n (collect step g s ls)) h h0 ?_
  intro ls t l u ht ih _
  rw [collect_snoc ht, collect_snoc ht, hm, hn, ih, hs]

/-- The order rule: where each step puts out the front of what is held and adds behind it, what was put out and
what is held are together what was added, in its order. -/
theorem in_order {g : σ → ℓ → List α} (held : σ → List α) (h : exec step s ls = some t) (hg : Along step G s ls)
    (hs : ∀ t l u, G t l → step t l = some u → f t l ++ held u = held t ++ g t l) :
    collect step f s ls ++ held t = held s ++ collect step g s ls := by
  refine exec_history (I := fun ls t => Along step G s ls →
    collect step f s ls ++ held t = held s ++ collect step g s ls) h (fun _ => by simp) ?_ hg
  intro ls t l u ht ih hl ha
  obtain ⟨ha, hl'⟩ := (along_snoc ht).mp ha
  rw [collect_snoc ht, collect_snoc ht, List.append_assoc, hs t l u hl' hl, ← List.append_assoc, ih ha,
    List.append_assoc]

/-- The avoidance rule: a run from outside `B` never enters it exactly when none of its steps is one
that would, and which those are need be known of the states outside it only. -/
theorem along_iff_never {I B : σ → Prop} (h0 : I s) (hb : ¬ B s) (hs : ∀ t l u, I t → step t l = some u → I u)
    (hg : ∀ t l, I t → ¬ B t → (G t l ↔ ∀ u, step t l = some u → ¬ B u)) :
    Along step G s ls ↔ ∀ pre t, pre <+: ls → exec step s pre = some t → ¬ B t := by
  induction ls generalizing s with
  | nil =>
    refine iff_of_true trivial fun pre t hpre ht => ?_
    rw [List.prefix_nil.mp hpre] at ht
    cases ht
    exact hb
  | cons l ls ih =>
    rw [Along, hg s l h0 hb]
    cases hstep : step s l with
    | none =>
      refine iff_of_true ⟨nofun, trivial⟩ fun pre t hpre ht => ?_
      rcases List.prefix_cons_iff.mp hpre with rfl | ⟨pre, rfl, -⟩
      · cases ht
        exact hb
      · rw [exec, hstep] at ht
        cases ht
    | some u =>
      constructor
      · rintro ⟨hu, ha⟩ pre t hpre ht
        rcases List.prefix_cons_iff.mp hpre with rfl | ⟨pre, rfl, hpre'⟩
        · cases ht
          exact hb
        · rw [exec, hstep] at ht
          exact (ih (hs s l u h0 hstep) (hu u rfl)).mp ha pre t hpre' ht
      · intro h
        have hu : ¬ B u := h [l] u (List.prefix_append [l] ls) (by rw [exec, hstep]; rfl)
        refine ⟨fun v hv => by cases hv; exact hu, ?_⟩
        refine (ih (hs s l u h0 hstep) hu).mpr fun pre t hpre ht => ?_
        refine h (l :: pre) t (List.cons_prefix_cons.mpr ⟨rfl, hpre⟩) ?_
        exact exec_cons_eq_some.mpr ⟨u, hstep, ht⟩

end Lts
