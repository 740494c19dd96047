/-
The periodic rediscovery in real time. `app_main` makes milliseconds of the
ticks by a product of 32 bits and divides it after it has wrapped, so its
clock goes back from 42949672 to 0 every twelve hours, where the difference
of two readings takes it to wrap at 2^32.
-/
import Mathlib.Algebra.Group.Nat.Defs
import GateNode.Lib.Since
import GateNode.Discovery.System

namespace GateNode.Discovery

open History

/-- The loop of `app_main`, between iterations. -/
structure MainLoop where
  previousTime : UInt32
  /-- The true tick of the last `start_discovery`, or of the loop's entry. No iteration reads it. -/
  lastCall : Nat

/-- `app_main` comes to its loop at true tick `n`. -/
def MainLoop.enter (n : Nat) : MainLoop := ⟨currentTimeMs (.ofNat n), n⟩

/-- The iteration at true tick `n` calls `start_discovery`. -/
def MainLoop.Calls (s : MainLoop) (n : Nat) : Prop :=
  currentTimeMs (.ofNat n) - s.previousTime > rediscoveryPeriodMs

instance (s : MainLoop) (n : Nat) : Decidable (s.Calls n) := by unfold MainLoop.Calls; infer_instance

def MainLoop.iterate (s : MainLoop) (n : Nat) : MainLoop :=
  if s.Calls n then ⟨currentTimeMs (.ofNat n), n⟩ else s

/-- The loop entered at `start`, after iterations at these ticks. -/
def loopAfter (start : Nat) (ticks : List Nat) : MainLoop := ticks.foldl MainLoop.iterate (.enter start)

/-- The iteration at `n` is more than the period behind the last call, a tick being ten milliseconds. -/
def MainLoop.PeriodPassed (s : MainLoop) (n : Nat) : Prop := 1000000 < 10 * (n - s.lastCall)

/-- How often the product has wrapped up to tick `n`. -/
def wraps (n : Nat) : Nat := 1000 * n / 2 ^ 32

/-- What the clock shows at tick `n`. -/
def clock (n : Nat) : Nat := 1000 * n % 2 ^ 32 / 100

/-- The clock tells the time passed at `n` since `m`: the product has not wrapped in between; or it
has, the period is over, and the clock does not stand less than a period above where it stood. -/
def ClockTells (m n : Nat) : Prop :=
  wraps n = wraps m ∨ 1000000 < 10 * (n - m) ∧ ¬ (clock m ≤ clock n ∧ clock n ≤ clock m + 1000000)

variable {s : System} {p : UInt32} {m n : Nat} {start : Nat} {ticks : List Nat}

/-- The loop of the whole system is this one. -/
theorem due_iff (h : s.previousTime = some p) : s.Due (.ofNat n) ↔ MainLoop.Calls ⟨p, m⟩ n := by
  unfold System.Due MainLoop.Calls
  rw [h]
  simp

/-! ## The clock -/

theorem toNat_currentTimeMs (n : Nat) : (currentTimeMs (.ofNat n)).toNat = clock n := by
  unfold currentTimeMs configTickRateHz clock
  rw [UInt32.toNat_div, UInt32.toNat_mul, UInt32.toNat_ofNat']
  show n % 2 ^ 32 * 1000 % 2 ^ 32 / 100 = _
  omega

/-- The difference of two readings is more than the period. -/
theorem reading_differs_iff (m n : Nat) :
    currentTimeMs (.ofNat n) - currentTimeMs (.ofNat m) > rediscoveryPeriodMs ↔
      clock n < clock m ∨ clock m + 1000000 < clock n := by
  have hm : clock m ≤ 42949672 := by
    unfold clock
    omega
  have hn : clock n ≤ 42949672 := by
    unfold clock
    omega
  rw [gt_iff_lt, UInt32.lt_iff_toNat_lt, UInt32.toNat_sub, toNat_currentTimeMs, toNat_currentTimeMs]
  show 1000000 < (2 ^ 32 - clock m + clock n) % 2 ^ 32 ↔ _
  omega

/-- While the product has not wrapped the clock goes by true time. -/
theorem clock_eq (hmn : m ≤ n) (h : wraps n = wraps m) : clock n = clock m + 10 * (n - m) := by
  unfold wraps at h
  unfold clock
  omega

/-- Within one round of the clock a wrap takes it back. -/
theorem clock_lt (hmn : m ≤ n) (h : wraps n ≠ wraps m) (hd : n - m ≤ 2 ^ 32 / 1000) : clock n < clock m := by
  unfold wraps at h
  unfold clock
  omega

theorem clockTells_iff (hmn : m ≤ n) :
    (currentTimeMs (.ofNat n) - currentTimeMs (.ofNat m) > rediscoveryPeriodMs ↔ 1000000 < 10 * (n - m)) ↔
      ClockTells m n := by
  rw [reading_differs_iff, ClockTells]
  by_cases hwraps : wraps n = wraps m
  · have := clock_eq hmn hwraps
    simp only [hwraps, true_or, iff_true]
    omega
  · simp only [hwraps, false_or]
    by_cases hd : 1000000 < 10 * (n - m)
    · simp only [hd, iff_true, true_and]
      omega
    · have := clock_lt hmn hwraps (by omega)
      simp only [hd, iff_false, false_and]
      omega

/-- Within one round only a call too early can go wrong. -/
theorem clockTells_within_round (hmn : m ≤ n) (hd : n - m ≤ 2 ^ 32 / 1000) :
    ClockTells m n ↔ wraps n = wraps m ∨ 1000000 < 10 * (n - m) := by
  unfold ClockTells
  by_cases hwraps : wraps n = wraps m
  · simp [hwraps]
  · have := clock_lt hmn hwraps hd
    have hback : ¬ (clock m ≤ clock n ∧ clock n ≤ clock m + 1000000) := by omega
    simp [hback]

/-! ## Runs of the loop -/

theorem loopAfter_snoc : loopAfter start (ticks ++ [n]) = (loopAfter start ticks).iterate n := by
  rw [loopAfter, List.foldl_append]
  rfl

/-- The time kept is the reading at the last call, which is the entry's or an iteration's. -/
theorem loopAfter_previousTime (start : Nat) (ticks : List Nat) :
    (loopAfter start ticks).previousTime = currentTimeMs (.ofNat (loopAfter start ticks).lastCall) ∧
      (loopAfter start ticks).lastCall ∈ start :: ticks := by
  induction ticks using List.reverseRecOn with
  | nil => exact ⟨rfl, List.mem_cons_self⟩
  | append_singleton ticks n ih =>
    rw [loopAfter_snoc, MainLoop.iterate]
    by_cases hcalls : (loopAfter start ticks).Calls n
    · rw [if_pos hcalls]
      exact ⟨rfl, by simp⟩
    · rw [if_neg hcalls]
      refine ⟨ih.1, ?_⟩
      rw [← List.cons_append]
      exact List.mem_append_left _ ih.2

/-- **The rediscovery keeps its interval** exactly in the runs in which the clock tells the time at every
iteration: a run of the loop of any length, with any delays between its iterations, calls
`start_discovery` in an iteration if and only if the period has passed since the last call. -/
theorem rediscovery_interval_iff (start : Nat) (ticks : List Nat) (h : (start :: ticks).Pairwise (· ≤ ·)) :
    Always (fun pre n => (loopAfter start pre).Calls n ↔ (loopAfter start pre).PeriodPassed n) [] ticks ↔
      Always (fun pre n => ClockTells (loopAfter start pre).lastCall n) [] ticks := by
  refine forall₄_congr fun pre n post hticks => ?_
  rw [List.nil_append]
  obtain ⟨htime, hmem⟩ := loopAfter_previousTime start pre
  have hle : (loopAfter start pre).lastCall ≤ n := by
    rw [hticks, ← List.cons_append, List.pairwise_append] at h
    exact h.2.2 _ hmem n List.mem_cons_self
  have htells := clockTells_iff hle
  rw [← htime] at htells
  exact htells

/-- Two iterations of an early run, at two minutes and at seventeen. -/
theorem rediscovery_interval_iff_early :
    Always (fun pre n => (loopAfter 500 pre).Calls n ↔ (loopAfter 500 pre).PeriodPassed n) [] [12000, 102000] ↔
      Always (fun pre n => ClockTells (loopAfter 500 pre).lastCall n) [] [12000, 102000] :=
  rediscovery_interval_iff 500 [12000, 102000] (by decide)

/-- Twelve hours after boot a discovery is started 200 ms behind the loop's entry. -/
theorem wrap_rediscovers_early :
    (loopAfter 4294960 []).Calls 4294980 ∧ ¬ (loopAfter 4294960 []).PeriodPassed 4294980 := by
  refine ⟨by decide, ?_⟩
  show ¬ 1000000 < 10 * (4294980 - 4294960)
  omega

end GateNode.Discovery
