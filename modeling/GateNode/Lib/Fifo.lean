/-
First-in first-out queues of a fixed capacity, as a real-time kernel offers
them. A queue carries the proof that it is never over full, so a place that
holds one needs no invariant for it. A send that finds no room and a receive
that finds nothing answer `none`; whether the caller then waits or gives up
is the caller's.
-/

/-- At most `cap` items, the oldest first. -/
structure Fifo (α : Type) (cap : Nat) where
  items : List α
  bound : items.length ≤ cap
deriving DecidableEq

namespace Fifo

variable {α : Type} {cap : Nat} {q q' : Fifo α cap} {a : α}

@[ext] theorem ext (h : q.items = q'.items) : q = q' := by
  cases q
  cases q'
  cases h
  rfl

def empty : Fifo α cap := ⟨[], Nat.zero_le _⟩

/-- The queue with `a` behind the rest, if there is room. -/
def send (q : Fifo α cap) (a : α) : Option (Fifo α cap) :=
  if h : q.items.length < cap then
    some ⟨q.items ++ [a], by simpa [Nat.succ_le_iff] using h⟩
  else
    none

/-- The oldest item and the queue without it, if there is one. -/
def receive : Fifo α cap → Option (α × Fifo α cap)
  | ⟨[], _⟩ => none
  | ⟨a :: as, h⟩ => some (a, ⟨as, Nat.le_of_succ_le h⟩)

@[simp] theorem items_empty : (empty : Fifo α cap).items = [] := rfl

theorem send_eq_some : q.send a = some q' ↔ q.items.length < cap ∧ q'.items = q.items ++ [a] := by
  unfold send
  split
  · next h => simp [h, Fifo.ext_iff, eq_comm]
  · next h => simp [h]

@[simp] theorem send_eq_none : q.send a = none ↔ cap ≤ q.items.length := by
  unfold send
  split
  · next h => simpa using h
  · next h => simpa using h

theorem receive_eq_some : q.receive = some (a, q') ↔ q.items = a :: q'.items := by
  obtain ⟨items, h⟩ := q
  cases items with
  | nil => simp [receive]
  | cons b bs => simp [receive, Fifo.ext_iff]

@[simp] theorem receive_eq_none : q.receive = none ↔ q.items = [] := by
  obtain ⟨items, h⟩ := q
  cases items <;> simp [receive]

end Fifo
