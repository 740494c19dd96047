/-
The version gate of `ota_service.c`. Releases are numbered by dotted lists of
numbers; the gate compares their characters. It goes by release order as long
as no release outranks a longer number, which 0.1.9 does with 0.1.10.
-/
import GateNode.Lib.Dotted
import GateNode.Ota.Task

namespace GateNode.Ota

open CString
open Dotted

variable {running new : List UInt8} {v w : List Nat}

/-- The gate lets through what comes behind the running version as a string. -/
theorem isFirmwareUpdated_iff : isFirmwareUpdated running new = true ↔ cstr running < cstr new := by
  rw [isFirmwareUpdated, decide_eq_true_iff]
  exact strcmp_pos

/-- **The gate follows release order** exactly when, in the first component in which the two versions
differ, the numbers have equally many digits or the shorter one has the smaller digit where they first
differ. -/
theorem version_gate_iff (running new : List UInt8) (v w : List Nat) (hv : cstr running = dotted v)
    (hw : cstr new = dotted w) :
    (isFirmwareUpdated running new = true ↔ v < w) ↔ FirstDifferenceInOrder v w := by
  rw [isFirmwareUpdated_iff, hv, hw]
  exact dotted_lt_iff_iff

/-- The project's own version and the next one. -/
theorem version_gate_iff_next :
    (isFirmwareUpdated (ofString "0.1.4") (ofString "0.1.5") = true ↔ [0, 1, 4] < [0, 1, 5]) ↔
      FirstDifferenceInOrder [0, 1, 4] [0, 1, 5] :=
  version_gate_iff _ _ _ _ (by decide +kernel) (by decide +kernel)

/-- 0.1.10 is refused over 0.1.9. -/
theorem version_gate_refuses_ten :
    cstr (ofString "0.1.9") = dotted [0, 1, 9] ∧ cstr (ofString "0.1.10") = dotted [0, 1, 10] ∧
      [0, 1, 9] < [0, 1, 10] ∧ isFirmwareUpdated (ofString "0.1.9") (ofString "0.1.10") = false := by
  decide +kernel

/-- While every component is a single digit, the gate follows release order. -/
theorem version_gate_of_lt_ten (hv : cstr running = dotted v) (hw : cstr new = dotted w) (hv10 : ∀ m ∈ v, m < 10)
    (hw10 : ∀ n ∈ w, n < 10) : isFirmwareUpdated running new = true ↔ v < w := by
  rw [isFirmwareUpdated_iff, hv, hw, dotted_lt_iff_iff]
  exact firstDifferenceInOrder_of_lt_ten hv10 hw10

end GateNode.Ota
