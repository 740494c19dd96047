/-
Writes to named places, carried out one after the other. A job writes one
place or none, and what it writes there may be known only when it runs; so
jobs are compared by place: two lists of them leave a place alike when they
do where they write to it.
-/
import Mathlib.Logic.Function.Basic

namespace Writes

variable {O J : Type} [DecidableEq O] {V : O → Type}

/-- What the places hold after a write, to the place it names. -/
def put (d : ∀ o, V o) : Option (Sigma V) → ∀ o, V o
  | none => d
  | some w => Function.update d w.1 w.2

/-- What they hold after the writes of the jobs, in order. -/
def putAll (effect : J → Option (Sigma V)) (d : ∀ o, V o) (js : List J) : ∀ o, V o :=
  js.foldl (fun d j => put d (effect j)) d

/-- A write that is not to `o`. -/
def Misses (o : O) (w : Option (Sigma V)) : Prop := ∀ v, w ≠ some ⟨o, v⟩

variable {effect effect' : J → Option (Sigma V)} {d d' : ∀ o, V o} {js ks : List J} {j : J} {o : O} {v : V o}

@[simp] theorem put_hit : put d (some ⟨o, v⟩) o = v := Function.update_self o v d

theorem put_miss {w : Option (Sigma V)} (h : Misses o w) : put d w o = d o := by
  cases w with
  | none => rfl
  | some w =>
    obtain ⟨p, u⟩ := w
    refine Function.update_of_ne ?_ u d
    intro hp
    subst hp
    exact h u rfl

theorem putAll_cons : putAll effect d (j :: js) = putAll effect (put d (effect j)) js := rfl

theorem putAll_append : putAll effect d (js ++ ks) = putAll effect (putAll effect d js) ks := List.foldl_append

theorem putAll_snoc : putAll effect d (js ++ [j]) = put (putAll effect d js) (effect j) := putAll_append

theorem putAll_miss (h : ∀ j ∈ js, Misses o (effect j)) : putAll effect d js o = d o := by
  induction js generalizing d with
  | nil => rfl
  | cons j js ih =>
    obtain ⟨hj, hjs⟩ := List.forall_mem_cons.mp h
    rw [putAll_cons, ih hjs, put_miss hj]

/-- The jobs that write to `o` all write the same there. -/
theorem putAll_const (h : ∀ j ∈ js, Misses o (effect j) ∨ effect j = some ⟨o, v⟩) (hd : d o = v) :
    putAll effect d js o = v := by
  induction js generalizing d with
  | nil => exact hd
  | cons j js ih =>
    obtain ⟨hj, hjs⟩ := List.forall_mem_cons.mp h
    rw [putAll_cons]
    refine ih hjs ?_
    rcases hj with hj | hj
    · rw [put_miss hj, hd]
    · rw [hj, put_hit]

/-- And one of them does write there. -/
theorem putAll_of_mem (h : ∀ j ∈ js, Misses o (effect j) ∨ effect j = some ⟨o, v⟩) (hj : j ∈ js)
    (he : effect j = some ⟨o, v⟩) : putAll effect d js o = v := by
  obtain ⟨before, after, rfl⟩ := List.append_of_mem hj
  rw [putAll_append, putAll_cons]
  refine putAll_const (fun k hk => h k ?_) ?_
  · exact List.mem_append_right before (List.mem_cons_of_mem j hk)
  · rw [he, put_hit]

theorem putAll_congr (h : ∀ j ∈ js, effect j = effect' j ∨ Misses o (effect j) ∧ Misses o (effect' j))
    (hd : d o = d' o) : putAll effect d js o = putAll effect' d' js o := by
  induction js generalizing d d' with
  | nil => exact hd
  | cons j js ih =>
    obtain ⟨hj, hjs⟩ := List.forall_mem_cons.mp h
    rw [putAll_cons, putAll_cons]
    refine ih hjs ?_
    rcases hj with hj | ⟨hj, hj'⟩
    · rw [← hj]
      by_cases hm : Misses o (effect j)
      · rw [put_miss hm, put_miss hm, hd]
      · obtain ⟨v, hv⟩ := not_forall_not.mp hm
        rw [hv, put_hit, put_hit]
    · rw [put_miss hj, put_miss hj', hd]

end Writes
