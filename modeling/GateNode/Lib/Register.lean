/-
A register that is written and read, each read announced behind a write of
its own; not every write announces one. What is read may skip what was
written and repeat it, but never goes back: a read finds what its own write
left there, or something later.
-/
import Mathlib.Data.List.Pairwise

namespace Register

variable {α : Type}

/-- Written were `ws`, reads were announced behind the writes of the numbers `owns`, and read were `rs` so far. -/
inductive Reads : List α → List Nat → List α → Prop
  | nil : Reads [] [] []
  | write (w : α) {ws rs : List α} {owns : List Nat} (h : Reads ws owns rs) : Reads (ws ++ [w]) owns rs
  | announce {own : Nat} {ws rs : List α} {owns : List Nat} (h : Reads ws owns rs) (hown : own < ws.length) :
      Reads ws (owns ++ [own]) rs
  | read {w : α} {ws rs : List α} {owns : List Nat} (h : Reads (ws ++ [w]) owns rs) (hlt : rs.length < owns.length) :
      Reads (ws ++ [w]) owns (rs ++ [w])

theorem Reads.own_lt {ws rs : List α} {owns : List Nat} (h : Reads ws owns rs) : ∀ own ∈ owns, own < ws.length := by
  induction h with
  | nil => simp
  | write w h ih =>
    intro own hown
    have := ih own hown
    rw [List.length_append]
    omega
  | announce h hown ih => exact List.forall_mem_append.mpr ⟨ih, List.forall_mem_singleton.mpr hown⟩
  | read h hlt ih => exact ih

/-- The reads are of writes in order, none of one before its own. -/
theorem Reads.indices {ws rs : List α} {owns : List Nat} (h : Reads ws owns rs) :
    ∃ idx : List Nat, idx.Pairwise (· ≤ ·) ∧
      (∀ i, ∀ h : i < idx.length, ∃ own, owns[i]? = some own ∧ own ≤ idx[i]) ∧ (∀ k ∈ idx, k < ws.length) ∧
      rs.map some = idx.map fun k => ws[k]? := by
  induction h with
  | nil => exact ⟨[], by simp⟩
  | write w h ih =>
    obtain ⟨idx, hmono, hown, hlt, heq⟩ := ih
    refine ⟨idx, hmono, hown, fun k hk => ?_, ?_⟩
    · have := hlt k hk
      rw [List.length_append]
      omega
    · rw [heq]
      refine List.map_congr_left fun k hk => ?_
      rw [List.getElem?_append_left (hlt k hk)]
  | announce h _ ih =>
    obtain ⟨idx, hmono, hown, hlt, heq⟩ := ih
    refine ⟨idx, hmono, fun i hi => ?_, hlt, heq⟩
    obtain ⟨own, hget, hle⟩ := hown i hi
    refine ⟨own, ?_, hle⟩
    rw [List.getElem?_append_left (List.getElem?_eq_some_iff.mp hget).1, hget]
  | @read w ws rs owns h hlast ih =>
    obtain ⟨idx, hmono, hown, hlt, heq⟩ := ih
    have hlen : idx.length = rs.length := by
      have := congrArg List.length heq
      simpa using this.symm
    refine ⟨idx ++ [ws.length], ?_, fun i hi => ?_, fun k hk => ?_, ?_⟩
    · rw [List.pairwise_append]
      refine ⟨hmono, List.pairwise_singleton _ _, fun k hk j hj => ?_⟩
      have := hlt k hk
      rw [List.length_append, List.length_singleton] at this
      rw [List.mem_singleton.mp hj]
      omega
    · by_cases hi' : i < idx.length
      · rw [List.getElem_append_left hi']
        exact hown i hi'
      · -- The read just made is of the last write.
        rw [List.length_append, List.length_singleton] at hi
        obtain rfl : i = idx.length := by omega
        rw [List.getElem_concat_length rfl]
        have hown := h.own_lt _ (List.getElem_mem (hlen ▸ hlast))
        rw [List.length_append, List.length_singleton] at hown
        exact ⟨_, List.getElem?_eq_getElem (hlen ▸ hlast), by omega⟩
    · rcases List.mem_append.mp hk with hk | hk
      · exact hlt k hk
      · simp [List.mem_singleton.mp hk]
    · rw [List.map_append, List.map_append, heq]
      simp

end Register
