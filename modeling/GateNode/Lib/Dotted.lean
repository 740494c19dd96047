/-
Numbers in decimal and dotted lists of them, as bytes, and how the order of
the bytes relates to that of the numbers. The two agree on numbers with
equally many digits. Otherwise the shorter number is the smaller one, and
its bytes are not when it has the larger digit where the two first differ.
-/
import GateNode.Lib.CString
import Mathlib.Tactic.Tauto

namespace Dotted

open CString

/-- A number without leading zeros. -/
def decimal (n : Nat) : List UInt8 := ofString (toString n)

/-- `'.'`. -/
def dot : UInt8 := 46

/-- The numbers with a dot between each two. -/
def dotted : List Nat → List UInt8
  | [] => []
  | [n] => decimal n
  | m :: n :: ns => decimal m ++ dot :: dotted (n :: ns)

/-- `a` is shorter than `b` and has the larger byte where the two first differ. -/
def Outranks (a b : List UInt8) : Prop :=
  a.length < b.length ∧
    ∃ i, ∃ (hb : i < b.length) (ha : i < a.length), (∀ j, (hj : j < i) → b[j] = a[j]) ∧ b[i] < a[i]

/-- The first numbers in which the two lists differ have equally many digits,
or the shorter one has the smaller digit where the two first differ. -/
def FirstDifferenceInOrder : List Nat → List Nat → Prop
  | m :: ms, n :: ns =>
    if m = n then
      FirstDifferenceInOrder ms ns
    else
      ¬ Outranks (decimal m) (decimal n) ∧ ¬ Outranks (decimal n) (decimal m)
  | _, _ => True

variable {m n : Nat} {v w : List Nat} {as bs xs ys : List UInt8} {b : UInt8}

/-! ## Digits -/

def digit (d : Nat) : UInt8 := UInt8.ofNat (48 + d)

theorem toNat_digit (h : m < 10) : (digit m).toNat = 48 + m := by
  rw [digit, UInt8.toNat_ofNat', Nat.mod_eq_of_lt (by omega)]

theorem ofNat_digitChar (h : m < 10) : UInt8.ofNat m.digitChar.toNat = digit m := by
  rw [Nat.toNat_digitChar_of_lt_ten h, digit]

theorem decimal_eq (n : Nat) :
    decimal n = if n < 10 then [digit n] else decimal (n / 10) ++ [digit (n % 10)] := by
  simp only [decimal, ofString, Nat.toString_eq_repr, Nat.toList_repr]
  rw [Nat.toDigits_eq_if (by decide)]
  by_cases h : n < 10
  · simp [h, ofNat_digitChar h]
  · simp [h, ofNat_digitChar (Nat.mod_lt n (by decide))]

theorem length_decimal_le (h : m ≤ n) : (decimal m).length ≤ (decimal n).length := by
  induction n using Nat.strongRecOn generalizing m with
  | ind n ih =>
    rw [decimal_eq m, decimal_eq n]
    by_cases hm : m < 10
    · by_cases hn : n < 10 <;> simp [hm, hn]
    · have hn : ¬ n < 10 := by omega
      have hdiv : m / 10 ≤ n / 10 := Nat.div_le_div_right h
      simp [hm, hn, ih (n / 10) (by omega) hdiv]

theorem decimal_ne_nil : decimal n ≠ [] := by
  rw [decimal_eq]
  by_cases hn : n < 10 <;> simp [hn]

theorem isDigit_of_mem_decimal (h : b ∈ decimal n) : 48 ≤ b.toNat ∧ b.toNat < 58 := by
  induction n using Nat.strongRecOn with
  | ind n ih =>
    rw [decimal_eq] at h
    by_cases hn : n < 10
    · rw [if_pos hn, List.mem_singleton] at h
      rw [h, toNat_digit hn]
      omega
    · rw [if_neg hn, List.mem_append, List.mem_singleton] at h
      rcases h with h | h
      · exact ih (n / 10) (by omega) h
      · rw [h, toNat_digit (by omega)]
        omega

/-! ## The order of one number -/

theorem append_lt_append_iff (h : as.length = bs.length) :
    as ++ xs < bs ++ ys ↔ as < bs ∨ as = bs ∧ xs < ys := by
  induction as generalizing bs with
  | nil =>
    cases bs with
    | nil => simp
    | cons b bs => simp at h
  | cons a as ih =>
    cases bs with
    | nil => simp at h
    | cons b bs =>
      have := @ih bs (by simpa using h)
      simp only [List.cons_append, List.cons_lt_cons_iff, this, List.cons.injEq]
      tauto

/-- With equally many digits the bytes are in the order of the numbers. -/
theorem decimal_order (h : (decimal m).length = (decimal n).length) :
    (decimal m < decimal n ↔ m < n) ∧ (decimal m = decimal n ↔ m = n) := by
  induction m using Nat.strongRecOn generalizing n with
  | ind m ih =>
    rw [decimal_eq m, decimal_eq n] at h ⊢
    have hpos (k : Nat) : 0 < (decimal k).length := List.length_pos_iff.mpr decimal_ne_nil
    have hmpos := hpos (m / 10)
    have hnpos := hpos (n / 10)
    by_cases hm : m < 10
    · by_cases hn : n < 10
      · simp [hm, hn, List.cons_lt_cons_iff, UInt8.lt_iff_toNat_lt, ← UInt8.toNat_inj, toNat_digit]
      · simp only [hm, hn, ↓reduceIte, List.length_append, List.length_singleton] at h
        omega
    · by_cases hn : n < 10
      · simp only [hm, hn, ↓reduceIte, List.length_append, List.length_singleton] at h
        omega
      · simp only [hm, hn, ↓reduceIte, List.length_append, List.length_singleton] at h ⊢
        have hlen : (decimal (m / 10)).length = (decimal (n / 10)).length := by omega
        obtain ⟨hlt, heq⟩ := ih (m / 10) (by omega) hlen
        have hmd : (digit (m % 10)).toNat = 48 + m % 10 := toNat_digit (Nat.mod_lt m (by decide))
        have hnd : (digit (n % 10)).toNat = 48 + n % 10 := toNat_digit (Nat.mod_lt n (by decide))
        have hlast : [digit (m % 10)] < [digit (n % 10)] ↔ m % 10 < n % 10 := by
          rw [List.cons_lt_cons_iff, UInt8.lt_iff_toNat_lt, hmd, hnd]
          simp
        have hlast' : digit (m % 10) = digit (n % 10) ↔ m % 10 = n % 10 := by
          rw [← UInt8.toNat_inj, hmd, hnd]
          omega
        rw [append_lt_append_iff hlen, hlt, heq, hlast, List.append_singleton_inj, heq, hlast']
        omega

theorem outranks_iff : Outranks as bs ↔ as.length < bs.length ∧ bs < as := by
  refine and_congr_right fun hlen => ?_
  rw [List.lt_iff_exists]
  constructor
  · exact fun h => .inr h
  · rintro (⟨-, h⟩ | h)
    · omega
    · exact h

/-- The bytes of two numbers are in the order of the numbers unless one outranks the other. -/
theorem decimal_lt_iff_iff :
    (decimal m < decimal n ↔ m < n) ↔
      ¬ Outranks (decimal m) (decimal n) ∧ ¬ Outranks (decimal n) (decimal m) := by
  rw [outranks_iff, outranks_iff]
  have hne : (decimal m).length ≠ (decimal n).length → decimal m ≠ decimal n := fun h he => h (by rw [he])
  have hanti (h : decimal m < decimal n) : ¬ decimal n < decimal m := List.lt_asymm h
  have htotal (h : ¬ decimal n < decimal m) : decimal m < decimal n ∨ decimal m = decimal n :=
    List.le_iff_lt_or_eq.mp (List.not_lt.mp h)
  rcases Nat.lt_trichotomy m n with h | h | h
  · have hle := length_decimal_le (Nat.le_of_lt h)
    rcases Nat.lt_or_eq_of_le hle with hlen | hlen
    · have := hne (by omega)
      simp only [h, iff_true, hlen, true_and]
      constructor
      · exact fun hlt => ⟨hanti hlt, fun hc => by omega⟩
      · exact fun hn => (htotal hn.1).resolve_right this
    · simp [hlen, decimal_order hlen]
  · simp [h]
  · have hle := length_decimal_le (Nat.le_of_lt h)
    rcases Nat.lt_or_eq_of_le hle with hlen | hlen
    · have hm : ¬ m < n := by omega
      have hlen' : ¬ (decimal m).length < (decimal n).length := by omega
      simp [hm, hlen, hlen']
    · simp [hlen, decimal_order hlen.symm]

/-! ## The order of a list of numbers -/

/-- What stands behind the first number. -/
def rest : List Nat → List UInt8
  | [] => []
  | n :: ns => dot :: dotted (n :: ns)

theorem dotted_cons (n : Nat) (ns : List Nat) : dotted (n :: ns) = decimal n ++ rest ns := by
  cases ns with
  | nil => simp [dotted, rest]
  | cons m ms => rfl

theorem dotted_eq_nil : dotted v = [] ↔ v = [] := by
  cases v with
  | nil => simp [dotted]
  | cons n ns => simp [dotted_cons, decimal_ne_nil]

theorem eq_dot_of_head_rest (ns : List Nat) : ∀ b ∈ (rest ns).head?, b = dot := by
  cases ns <;> simp [rest]

theorem rest_lt_rest_iff : rest v < rest w ↔ dotted v < dotted w := by
  have hpos (n : Nat) (ns : List Nat) : [] < dotted (n :: ns) := by
    cases h : dotted (n :: ns) with
    | nil => simp [dotted_eq_nil] at h
    | cons b bs => exact List.nil_lt_cons b bs
  cases v with
  | nil =>
    cases w with
    | nil => simp [rest, dotted]
    | cons n ns => exact iff_of_true (List.nil_lt_cons _ _) (hpos n ns)
  | cons m ms =>
    cases w with
    | nil => simp [rest, dotted]
    | cons n ns => exact List.cons_lt_cons_self

/-- A dot, or the end, comes before every digit. -/
theorem append_lt_append_iff_of_ne (has : ∀ a ∈ as, dot < a) (hbs : ∀ b ∈ bs, dot < b)
    (hxs : ∀ x ∈ xs.head?, x = dot) (hys : ∀ y ∈ ys.head?, y = dot) (hne : as ≠ bs) :
    as ++ xs < bs ++ ys ↔ as < bs := by
  induction as generalizing bs with
  | nil =>
    cases bs with
    | nil => exact absurd rfl hne
    | cons b bs =>
      refine iff_of_true ?_ (List.nil_lt_cons b bs)
      cases xs with
      | nil => exact List.nil_lt_cons _ _
      | cons x xs =>
        have hx : x = dot := hxs x rfl
        rw [hx]
        exact List.cons_lt_cons_iff.mpr (.inl (hbs b List.mem_cons_self))
  | cons a as ih =>
    have ha : dot < a := has a List.mem_cons_self
    cases bs with
    | nil =>
      refine iff_of_false (fun h => ?_) (List.not_lt_nil _)
      cases ys with
      | nil => exact List.not_lt_nil _ h
      | cons y ys =>
        have hy : y = dot := hys y rfl
        rw [hy] at h
        rw [List.cons_append, List.nil_append, List.cons_lt_cons_iff, UInt8.lt_iff_toNat_lt,
          ← UInt8.toNat_inj] at h
        rw [UInt8.lt_iff_toNat_lt] at ha
        omega
    | cons b bs =>
      simp only [List.cons_append, List.cons_lt_cons_iff]
      refine or_congr_right (and_congr_right fun hab => ?_)
      rw [List.forall_mem_cons] at has hbs
      exact ih has.2 hbs.2 fun he => hne (by rw [hab, he])

theorem dotted_cons_lt_of_ne (h : m ≠ n) : dotted (m :: v) < dotted (n :: w) ↔ decimal m < decimal n := by
  have hdigit (k : Nat) : ∀ b ∈ decimal k, dot < b := by
    intro b hb
    have := (isDigit_of_mem_decimal hb).1
    rw [UInt8.lt_iff_toNat_lt]
    show 46 < b.toNat
    omega
  rw [dotted_cons, dotted_cons]
  refine append_lt_append_iff_of_ne (hdigit m) (hdigit n) (eq_dot_of_head_rest v) (eq_dot_of_head_rest w) ?_
  intro he
  exact h ((decimal_order (by rw [he])).2.mp he)

theorem dotted_cons_lt : dotted (m :: v) < dotted (m :: w) ↔ dotted v < dotted w := by
  rw [dotted_cons, dotted_cons, append_lt_append_iff rfl, rest_lt_rest_iff]
  simp [List.lt_irrefl]

/-- **The bytes of two lists are in the order of the lists** exactly when the first numbers in which
they differ are. -/
theorem dotted_lt_iff_iff : (dotted v < dotted w ↔ v < w) ↔ FirstDifferenceInOrder v w := by
  induction v generalizing w with
  | nil =>
    cases w with
    | nil => simp [dotted, FirstDifferenceInOrder]
    | cons n ns =>
      have : dotted [] < dotted (n :: ns) := rest_lt_rest_iff.mp (List.nil_lt_cons _ _)
      simp [FirstDifferenceInOrder, this]
  | cons m ms ih =>
    cases w with
    | nil => simp [dotted, FirstDifferenceInOrder]
    | cons n ns =>
      by_cases h : m = n
      · subst h
        simp [FirstDifferenceInOrder, dotted_cons_lt, ih]
      · simp [FirstDifferenceInOrder, h, dotted_cons_lt_of_ne h, List.cons_lt_cons_iff, decimal_lt_iff_iff]

/-- Single digits are equally long. -/
theorem firstDifferenceInOrder_of_lt_ten (hv : ∀ m ∈ v, m < 10) (hw : ∀ n ∈ w, n < 10) :
    FirstDifferenceInOrder v w := by
  induction v generalizing w with
  | nil => trivial
  | cons m ms ih =>
    cases w with
    | nil => trivial
    | cons n ns =>
      rw [List.forall_mem_cons] at hv hw
      have hlen : (decimal m).length = (decimal n).length := by
        rw [decimal_eq m, decimal_eq n, if_pos hv.1, if_pos hw.1]
        rfl
      by_cases h : m = n
      · simpa [FirstDifferenceInOrder, h] using ih hv.2 hw.2
      · simp [FirstDifferenceInOrder, h, outranks_iff, hlen]

end Dotted
