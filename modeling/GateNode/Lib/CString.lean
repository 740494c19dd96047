/-
Strings as C has them: bytes in memory up to the first NUL. A buffer is the
list of its bytes; what follows it is taken to be NUL, so that the functions
are total. Two buffers are the same string when `cstr` of them is.
-/
import Mathlib.Data.List.TakeWhile

namespace CString

/-- The string a buffer holds. -/
def cstr (buf : List UInt8) : List UInt8 := buf.takeWhile (· ≠ 0)

/-- The bytes of an ASCII literal, without its NUL. -/
def ofString (s : String) : List UInt8 := s.toList.map fun c => UInt8.ofNat c.toNat

def strlen (buf : List UInt8) : Nat := (cstr buf).length

/-- The difference of the first bytes that differ, the NUL being one of them. -/
def strcmp : List UInt8 → List UInt8 → Int
  | [], [] => 0
  | a :: _, [] => a.toNat
  | [], b :: _ => -b.toNat
  | a :: as, b :: bs =>
    if a ≠ b then
      (a.toNat : Int) - b.toNat
    else if a = 0 then
      0
    else
      strcmp as bs

/-- The `n` bytes `strncpy` writes: the string, cut or filled up with NULs. -/
def strncpy (src : List UInt8) (n : Nat) : List UInt8 :=
  (cstr src).take n ++ List.replicate (n - (cstr src).length) 0

/-- The first place in a list where `needle` begins. -/
def search (needle : List UInt8) : List UInt8 → Option (List UInt8)
  | [] => if needle = [] then some [] else none
  | b :: bs => if needle.isPrefixOf (b :: bs) then some (b :: bs) else search needle bs

def strstr (haystack needle : List UInt8) : Option (List UInt8) := search (cstr needle) (cstr haystack)

theorem cstr_cons (b : UInt8) (bs : List UInt8) : cstr (b :: bs) = if b = 0 then [] else b :: cstr bs := by
  by_cases h : b = 0 <;> simp [cstr, h]

@[simp] theorem cstr_nil : cstr [] = [] := rfl

/-- A list with no NUL in it is its own string. -/
theorem cstr_eq_self {bs : List UInt8} (h : ∀ b ∈ bs, b ≠ 0) : cstr bs = bs :=
  List.takeWhile_eq_self_iff.mpr fun b hb => by simpa using h b hb

theorem ne_zero_of_mem_cstr {bs : List UInt8} {b : UInt8} (h : b ∈ cstr bs) : b ≠ 0 := by
  simpa using List.mem_takeWhile_imp h

@[simp] theorem cstr_cstr (bs : List UInt8) : cstr (cstr bs) = cstr bs :=
  cstr_eq_self fun _ h => ne_zero_of_mem_cstr h

theorem cstr_append {as bs : List UInt8} (h : ∀ b ∈ as, b ≠ 0) : cstr (as ++ bs) = as ++ cstr bs := by
  induction as with
  | nil => rfl
  | cons a as ih =>
    have ha : a ≠ 0 := h a List.mem_cons_self
    rw [List.cons_append, cstr_cons, if_neg ha, ih fun b hb => h b (List.mem_cons_of_mem _ hb)]
    rfl

theorem strcmp_eq_zero {as bs : List UInt8} : strcmp as bs = 0 ↔ cstr as = cstr bs := by
  have zero_iff (a : UInt8) : (a.toNat : Int) = 0 ↔ a = 0 := by
    rw [Int.natCast_eq_zero, ← UInt8.toNat_zero, UInt8.toNat_inj]
  induction as generalizing bs with
  | nil =>
    cases bs with
    | nil => simp [strcmp]
    | cons b bs =>
      rw [strcmp, Int.neg_eq_zero, zero_iff, cstr_cons]
      by_cases hb : b = 0 <;> simp [hb]
  | cons a as ih =>
    cases bs with
    | nil =>
      rw [strcmp, zero_iff, cstr_cons]
      by_cases ha : a = 0 <;> simp [ha]
    | cons b bs =>
      rw [strcmp, cstr_cons, cstr_cons]
      by_cases hab : a = b
      · subst hab
        by_cases ha : a = 0 <;> simp [ha, ih]
      · have hne : (a.toNat : Int) - b.toNat ≠ 0 := by
          intro h
          have : a.toNat = b.toNat := by omega
          exact hab (UInt8.toNat_inj.mp this)
        by_cases ha : a = 0
        · subst ha
          by_cases hb : b = 0
          · exact absurd hb.symm hab
          · simpa [hab, hb] using hne
        · by_cases hb : b = 0
          · subst hb
            simpa [ha] using hne
          · simpa [hab, ha, hb] using hne

/-- `strcmp` is positive when the second string comes first. -/
theorem strcmp_pos {as bs : List UInt8} : 0 < strcmp as bs ↔ cstr bs < cstr as := by
  have pos_iff (a : UInt8) : 0 < (a.toNat : Int) ↔ a ≠ 0 := by
    rw [Ne, ← UInt8.toNat_inj, UInt8.toNat_zero]
    omega
  induction as generalizing bs with
  | nil =>
    cases bs with
    | nil => simp [strcmp]
    | cons b bs =>
      simp [strcmp]
  | cons a as ih =>
    cases bs with
    | nil =>
      rw [strcmp, pos_iff, cstr_cons]
      by_cases ha : a = 0 <;> simp [ha]
    | cons b bs =>
      rw [strcmp, cstr_cons, cstr_cons]
      by_cases hab : a = b
      · subst hab
        by_cases ha : a = 0
        · simp [ha]
        · simpa [ha, List.cons_lt_cons_iff] using ih
      · have hlt : 0 < (a.toNat : Int) - b.toNat ↔ b < a := by
          rw [UInt8.lt_iff_toNat_lt]
          omega
        rw [if_pos hab, hlt]
        by_cases ha : a = 0
        · simp [ha]
        · by_cases hb : b = 0
          · have hpos : 0 < a := UInt8.pos_iff_ne_zero.mpr ha
            simp [ha, hb, hpos]
          · simp [ha, hb, List.cons_lt_cons_iff, Ne.symm hab]

theorem cstr_strncpy {src : List UInt8} {n : Nat} (h : strlen src ≤ n) : cstr (strncpy src n) = cstr src := by
  unfold strncpy
  rw [List.take_of_length_le h, cstr_append fun b hb => ne_zero_of_mem_cstr hb]
  cases n - (cstr src).length with
  | zero => exact List.append_nil _
  | succ k => rw [List.replicate_succ, cstr_cons, if_pos rfl, List.append_nil]

/-- A needle at the front is found there. -/
theorem strstr_append {needle rest : List UInt8} (hn : ∀ b ∈ needle, b ≠ 0) (hne : needle ≠ []) :
    strstr (needle ++ rest) needle = some (needle ++ cstr rest) := by
  unfold strstr
  rw [cstr_eq_self hn, cstr_append hn]
  cases needle with
  | nil => exact absurd rfl hne
  | cons b bs => simp [search]

end CString
