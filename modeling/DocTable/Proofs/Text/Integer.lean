import DocTable.Text.Integer
import Mathlib.Algebra.Group.Nat.Defs

/-!
# Integers as text: reading is the inverse of writing

* `digitsValue_decimalDigits` — the decimal digits of a number denote it.
* `length_decimalDigits_le_iff` — a number below `10 ^ k` takes at most `k` digits.
* `IntegerRange.decimal?_intText` — a signed number of a range is read back from its text.

Digits are produced last one first and read first one first; `decimalDigits_of_ge` turns the first
into the second.
-/

set_option autoImplicit false

namespace DocTable

/-! ## Single digits -/

theorem digitIn?_digitChar_all : ∀ r, r ≤ 36 → ∀ d, d < r → digitIn? r (digitChar d) = some d := by
  decide

theorem digitIn?_digitChar {r d : Nat} (hr : r ≤ 36) (hd : d < r) :
    digitIn? r (digitChar d) = some d :=
  digitIn?_digitChar_all r hr d hd

theorem isDigit_digitChar_all : ∀ d, d < 10 → (digitChar d).isDigit = true := by decide

theorem isDigit_digitChar {d : Nat} (hd : d < 10) : (digitChar d).isDigit = true :=
  isDigit_digitChar_all d hd

theorem digitChar_ascii_all :
    ∀ d, d < 36 → 0 < (digitChar d).toNat ∧ (digitChar d).toNat < 128 := by
  decide

/-! ## Digits of a number -/

theorem digitsOnto_append (radix : Nat) (fuel n : Nat) (tail : List Char) :
    digitsOnto radix fuel n tail = digitsOnto radix fuel n [] ++ tail := by
  induction fuel generalizing n tail with
  | zero => rfl
  | succ fuel ih =>
    simp only [digitsOnto]
    split
    · rfl
    · rw [ih _ (_ :: tail), ih _ [_], List.append_assoc]
      rfl

/-- More fuel than the number itself changes nothing. -/
theorem digitsOnto_fuel {radix : Nat} (hr : 2 ≤ radix) {fuel n : Nat} (h : n < fuel) :
    digitsOnto radix fuel n [] = digitsOnto radix (n + 1) n [] := by
  induction fuel using Nat.strongRecOn generalizing n with
  | _ fuel ih =>
    obtain ⟨fuel, rfl⟩ : ∃ k, fuel = k + 1 := ⟨fuel - 1, by omega⟩
    simp only [digitsOnto]
    split
    · rfl
    · rename_i hn
      have hlt : n / radix < n := Nat.div_lt_self (by omega) (by omega)
      rw [digitsOnto_append, digitsOnto_append radix n]
      rw [ih fuel (by omega) (show n / radix < fuel by omega)]
      rcases Nat.lt_or_ge n (fuel + 1) with hlt' | hge
      · rw [ih n (by omega) hlt]
      · omega

theorem decimalDigits_of_lt {n : Nat} (h : n < 10) : decimalDigits n = [digitChar n] := by
  simp [decimalDigits, digitsOnto, h]

theorem decimalDigits_of_ge {n : Nat} (h : 10 ≤ n) :
    decimalDigits n = decimalDigits (n / 10) ++ [digitChar (n % 10)] := by
  have hlt : n / 10 < n := by omega
  rw [decimalDigits, digitsOnto, if_neg (by omega), digitsOnto_append,
    digitsOnto_fuel (by omega) hlt]
  rfl

/-- Induction along the decimal digits of a number, last digit first. -/
theorem decimal_induction {motive : Nat → Prop} (lt : ∀ n, n < 10 → motive n)
    (ge : ∀ n, 10 ≤ n → motive (n / 10) → motive n) (n : Nat) : motive n := by
  induction n using Nat.strongRecOn with
  | _ n ih =>
    rcases Nat.lt_or_ge n 10 with h | h
    · exact lt n h
    · exact ge n h (ih (n / 10) (by omega))

theorem decimalDigits_ne_nil (n : Nat) : decimalDigits n ≠ [] := by
  rcases Nat.lt_or_ge n 10 with h | h
  · simp [decimalDigits_of_lt h]
  · simp [decimalDigits_of_ge h]

theorem forall_mem_decimalDigits {p : Char → Prop} (h : ∀ d, d < 10 → p (digitChar d)) (n : Nat) :
    ∀ c ∈ decimalDigits n, p c := by
  induction n using decimal_induction with
  | lt n hn =>
    rw [decimalDigits_of_lt hn]
    simpa using h n hn
  | ge n hn ih =>
    intro c hc
    rw [decimalDigits_of_ge hn, List.mem_append, List.mem_singleton] at hc
    rcases hc with hc | rfl
    · exact ih c hc
    · exact h _ (by omega)

theorem isDigit_decimalDigits (n : Nat) : ∀ c ∈ decimalDigits n, c.isDigit = true :=
  forall_mem_decimalDigits (fun _ hd => isDigit_digitChar hd) n

theorem digitChar_eq_zero_all : ∀ d, d < 10 → digitChar d = '0' → d = 0 := by decide

/-- Only zero is written with a zero in front. -/
theorem head_decimalDigits {n : Nat} (h : (decimalDigits n).head? = some '0') : n = 0 := by
  induction n using decimal_induction with
  | lt n hn =>
    rw [decimalDigits_of_lt hn] at h
    exact digitChar_eq_zero_all n hn (Option.some.inj h)
  | ge n hn ih =>
    obtain ⟨c, tail, hdigits⟩ := List.exists_cons_of_ne_nil (decimalDigits_ne_nil (n / 10))
    rw [decimalDigits_of_ge hn, hdigits] at h
    rw [hdigits] at ih
    have := ih h
    omega

theorem decimalDigits_ascii (n : Nat) :
    ∀ c ∈ decimalDigits n, 0 < c.toNat ∧ c.toNat < 128 :=
  forall_mem_decimalDigits
    (fun d hd => digitChar_ascii_all d (Nat.lt_trans hd (by decide))) n

theorem digitsValue_append (radix : Nat) (xs ys : List Char) :
    digitsValue radix (xs ++ ys) =
      ys.foldl (fun n c => n * radix + (digitIn? radix c).getD 0) (digitsValue radix xs) := by
  rw [digitsValue, List.foldl_append]
  rfl

/-- Zeros in front of digits do not count. -/
theorem digitsValue_zeros (count : Nat) (digits : List Char) :
    digitsValue 10 (List.replicate count '0' ++ digits) = digitsValue 10 digits := by
  induction count with
  | zero => rfl
  | succ count ih =>
    rw [List.replicate_succ, List.cons_append]
    exact ih

/-- Each zero behind digits is a factor of ten. -/
theorem digitsValue_append_zeros (digits : List Char) (count : Nat) :
    digitsValue 10 (digits ++ List.replicate count '0') = digitsValue 10 digits * 10 ^ count := by
  induction count with
  | zero => rw [List.replicate_zero, List.append_nil, Nat.pow_zero, Nat.mul_one]
  | succ count ih =>
    have hzero : (digitIn? 10 '0').getD 0 = 0 := by decide
    rw [List.replicate_succ', ← List.append_assoc, digitsValue_append, ih, List.foldl_cons,
      List.foldl_nil, hzero, Nat.add_zero, Nat.pow_succ, Nat.mul_assoc]

/-- **The decimal digits of a number denote it.** -/
@[simp] theorem digitsValue_decimalDigits (n : Nat) : digitsValue 10 (decimalDigits n) = n := by
  induction n using decimal_induction with
  | lt n hn =>
    simp [decimalDigits_of_lt hn, digitsValue, digitIn?_digitChar (show 10 ≤ 36 by decide) hn]
  | ge n hn ih =>
    rw [decimalDigits_of_ge hn, digitsValue_append, ih]
    simp only [List.foldl_cons, List.foldl_nil,
      digitIn?_digitChar (show 10 ≤ 36 by decide) (Nat.mod_lt n (show 10 > 0 by decide)),
      Option.getD_some]
    omega

theorem length_decimalDigits_le_iff {n k : Nat} (hk : 0 < k) :
    (decimalDigits n).length ≤ k ↔ n < 10 ^ k := by
  induction n using decimal_induction generalizing k with
  | lt n hn =>
    have hpow : 10 ^ 1 ≤ 10 ^ k := Nat.pow_le_pow_right (by decide) hk
    rw [decimalDigits_of_lt hn, List.length_singleton]
    omega
  | ge n hn ih =>
    obtain ⟨k, rfl⟩ : ∃ j, k = j + 1 := ⟨k - 1, by omega⟩
    rw [decimalDigits_of_ge hn, List.length_append, List.length_singleton, Nat.pow_succ]
    rcases Nat.eq_zero_or_pos k with rfl | hk'
    · have hpos := List.length_pos_iff.2 (decimalDigits_ne_nil (n / 10))
      simp only [Nat.pow_zero]
      omega
    · have := ih hk'
      omega

/-! ## Digits at the front of a text -/

theorem not_sign_of_isDigit {c : Char} (h : c.isDigit = true) : c ≠ '-' ∧ c ≠ '+' := by
  constructor <;> (rintro rfl; revert h; decide)

/-- Digits in front of something else are told apart from it. -/
theorem takeWhile_dropWhile_digits {digits rest : List Char}
    (hdigits : ∀ c ∈ digits, c.isDigit = true) (hrest : ∀ c ∈ rest.head?, c.isDigit = false) :
    (digits ++ rest).takeWhile Char.isDigit = digits ∧
      (digits ++ rest).dropWhile Char.isDigit = rest := by
  rw [List.takeWhile_append_of_pos hdigits, List.dropWhile_append_of_pos hdigits]
  cases rest with
  | nil => rw [List.takeWhile_nil, List.dropWhile_nil, List.append_nil]; exact ⟨rfl, rfl⟩
  | cons c rest =>
    have hc : ¬ c.isDigit = true := by simp [hrest c rfl]
    rw [List.takeWhile_cons_of_neg hc, List.dropWhile_cons_of_neg hc, List.append_nil]
    exact ⟨rfl, rfl⟩

/-! ## Reading integers of a range -/

namespace IntegerRange

variable {range : IntegerRange} {radix : Nat}

/-- The number that digits denote after others of value `n`. -/
def extend (radix n : Nat) (digits : List Char) : Nat :=
  digits.foldl (fun n c => n * radix + (digitIn? radix c).getD 0) n

theorem le_extend (hr : 1 ≤ radix) (n : Nat) (digits : List Char) : n ≤ extend radix n digits := by
  induction digits generalizing n with
  | nil => exact Nat.le_refl n
  | cons c digits ih =>
    have hmul : n * 1 ≤ n * radix := Nat.mul_le_mul_left n hr
    have hrec := ih (n * radix + (digitIn? radix c).getD 0)
    show n ≤ extend radix (n * radix + (digitIn? radix c).getD 0) digits
    omega

theorem readPositive_eq_ok (hr : 1 ≤ radix) {digits : List Char}
    (hdigits : ∀ c ∈ digits, (digitIn? radix c).isSome) (n : Nat)
    (hle : (extend radix n digits : Int) ≤ range.greatest) :
    range.readPositive radix n digits = .ok (extend radix n digits : Int) := by
  induction digits generalizing n with
  | nil => rfl
  | cons c digits ih =>
    obtain ⟨d, hd⟩ := Option.isSome_iff_exists.1 (hdigits c List.mem_cons_self)
    have hnext : extend radix n (c :: digits) = extend radix (n * radix + d) digits := by
      simp [extend, hd]
    have hbound := le_extend hr (n * radix + d) digits
    rw [hnext] at hle ⊢
    have hcast : (n : Int) * radix + d = ((n * radix + d : Nat) : Int) := by push_cast; rfl
    simp only [readPositive, hd, hcast]
    rw [if_neg (by omega)]
    exact ih (fun c hc => hdigits c (List.mem_cons_of_mem _ hc)) _ hle

theorem readNegative_eq_ok (hr : 1 ≤ radix) {digits : List Char}
    (hdigits : ∀ c ∈ digits, (digitIn? radix c).isSome) (n : Nat)
    (hle : range.least ≤ -(extend radix n digits : Int)) :
    range.readNegative radix (-(n : Int)) digits = .ok (-(extend radix n digits : Int)) := by
  induction digits generalizing n with
  | nil => rfl
  | cons c digits ih =>
    obtain ⟨d, hd⟩ := Option.isSome_iff_exists.1 (hdigits c List.mem_cons_self)
    have hnext : extend radix n (c :: digits) = extend radix (n * radix + d) digits := by
      simp [extend, hd]
    have hbound := le_extend hr (n * radix + d) digits
    rw [hnext] at hle ⊢
    have hcast : -(n : Int) * radix - d = -((n * radix + d : Nat) : Int) := by
      push_cast
      rw [Int.neg_mul]
      omega
    simp only [readNegative, hd, hcast]
    rw [if_neg (by omega)]
    exact ih (fun c hc => hdigits c (List.mem_cons_of_mem _ hc)) _ hle

theorem not_sign_of_isSome {c : Char} (h : (digitIn? radix c).isSome) : c ≠ '+' ∧ c ≠ '-' := by
  constructor <;> (rintro rfl; revert h; simp [digitIn?, digitValue?])

/-- Digits without a sign are read as the number that they denote. -/
theorem read_eq_ok (hr : 1 ≤ radix) {digits : List Char} (hne : digits ≠ [])
    (hdigits : ∀ c ∈ digits, (digitIn? radix c).isSome)
    (hle : (digitsValue radix digits : Int) ≤ range.greatest) :
    range.read radix digits = .ok (digitsValue radix digits : Int) := by
  have hread : range.readPositive radix 0 digits = .ok (digitsValue radix digits : Int) :=
    readPositive_eq_ok hr hdigits 0 hle
  match digits, hne with
  | [c], _ =>
    obtain ⟨hplus, hminus⟩ := not_sign_of_isSome (hdigits c List.mem_cons_self)
    rw [IntegerRange.read, if_neg (by simp [hplus, hminus])]
    exact hread
  | c :: d :: cs, _ =>
    obtain ⟨hplus, hminus⟩ := not_sign_of_isSome (hdigits c List.mem_cons_self)
    rw [IntegerRange.read, if_neg hplus, if_neg (fun h => hminus h.1)]
    · exact hread
    · simp

/-- Digits behind a minus sign are read as the opposite of the number that they denote. -/
theorem read_minus_eq_ok (hr : 1 ≤ radix) {digits : List Char} (hne : digits ≠ [])
    (hdigits : ∀ c ∈ digits, (digitIn? radix c).isSome) (hneg : range.least < 0)
    (hle : range.least ≤ -(digitsValue radix digits : Int)) :
    range.read radix ('-' :: digits) = .ok (-(digitsValue radix digits : Int)) := by
  have hread : range.readNegative radix 0 digits = .ok (-(digitsValue radix digits : Int)) :=
    readNegative_eq_ok hr hdigits 0 hle
  match digits, hne with
  | c :: cs, _ =>
    rw [IntegerRange.read, if_neg (by decide), if_pos ⟨rfl, hneg⟩]
    · exact hread
    · simp

/-- **A number of a range that admits its sign is read back from its text.** -/
theorem decimal?_intText {n : Int} (hleast : range.least ≤ n) (hgreatest : n ≤ range.greatest) :
    range.decimal? (intText n) = some n := by
  have hdigits : ∀ c ∈ decimalDigits n.natAbs, (digitIn? 10 c).isSome :=
    forall_mem_decimalDigits
      (fun d hd => by rw [digitIn?_digitChar (by decide) hd]; rfl) n.natAbs
  have hne := decimalDigits_ne_nil n.natAbs
  unfold decimal? intText
  split
  · rename_i hn
    rw [natText, String.toList_append, String.toList_ofList, String.toList_ofList]
    show (range.read 10 ('-' :: decimalDigits n.natAbs)).toOption = some n
    rw [read_minus_eq_ok (by decide) hne hdigits (by omega), digitsValue_decimalDigits]
    · show some (-(n.natAbs : Int)) = some n
      congr 1
      omega
    · rw [digitsValue_decimalDigits]
      omega
  · rename_i hn
    rw [natText, String.toList_ofList, read_eq_ok (by decide) hne hdigits,
      digitsValue_decimalDigits]
    · show some (n.natAbs : Int) = some n
      congr 1
      omega
    · rw [digitsValue_decimalDigits]
      omega

end IntegerRange

end DocTable
