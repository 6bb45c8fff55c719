import DocTable.Json.Writer
import DocTable.Proofs.Binary64.Shortest
import DocTable.Proofs.Json.Grammar

/-!
# Numbers are written so that they can be read

What a numeral denotes is told here as it stands, with one rounding at most, and every number is
written as a numeral that denotes it. The reader of this library rounds at each step and may miss the
last place of a double; the writer owes nothing to it.

* `Numeral.nearest?` — the number that a numeral denotes as it stands.
* `DenotedBy` — a decimal is written as a text, with either sign; one lemma for each layout.
* `exists_numeralText` — **a number is written as a numeral that denotes it.**
-/

set_option autoImplicit false

namespace DocTable.Json

namespace Numeral

/-- The number before the point. -/
def integer (numeral : Numeral) : Int :=
  if numeral.negative then -(digitsValue 10 numeral.whole : Int) else digitsValue 10 numeral.whole

/-- The double nearest to the decimal. -/
def double (numeral : Numeral) : Binary64 :=
  .ofDecimal numeral.negative (digitsValue 10 (numeral.whole ++ numeral.fraction.getD []))
    (numeral.exponent.getD 0 - (numeral.fraction.getD []).length)

/-- The number that a numeral denotes as it stands: with neither fraction nor exponent an integer, if
it fits and is no negative zero, and else the nearest double, if that is finite. -/
def nearest? (numeral : Numeral) : Option Number :=
  if whole : (numeral.fraction = none ∧ numeral.exponent = none) ∧
      IntegerInRange numeral.integer ∧ (numeral.negative → numeral.integer ≠ 0) then
    some (.integer numeral.integer whole.2.1)
  else if finite : numeral.double.isFinite then some (.real numeral.double finite) else none

theorem nearest?_of_double {numeral : Numeral} {x : Binary64} (finite : x.isFinite = true)
    (hparts : ¬ (numeral.fraction = none ∧ numeral.exponent = none)) (hx : numeral.double = x) :
    numeral.nearest? = some (.real x finite) := by
  subst hx
  rw [nearest?, dif_neg (fun h => hparts h.1), dif_pos finite]

end Numeral

/-! ## Integers -/

theorem isDigits_decimalDigits (n : Nat) : IsDigits (decimalDigits n) :=
  ⟨decimalDigits_ne_nil n, isDigit_decimalDigits n⟩

theorem isWhole_decimalDigits (n : Nat) : IsWhole (decimalDigits n) := by
  refine ⟨isDigits_decimalDigits n, fun hzero => ?_⟩
  rw [head_decimalDigits hzero]
  rfl

theorem toList_intText (n : Int) :
    (intText n).toList = (if n < 0 then ['-'] else []) ++ decimalDigits n.natAbs := by
  unfold intText natText
  split
  · rw [String.toList_append, String.toList_ofList, String.toList_ofList]
  · rw [String.toList_ofList, List.nil_append]

theorem numeralText_intText (n : Int) :
    NumeralText ⟨n < 0, decimalDigits n.natAbs, none, none⟩ (intText n).toList := by
  have htext : NumeralText ⟨n < 0, decimalDigits n.natAbs, none, none⟩ _ :=
    .mk (isWhole_decimalDigits n.natAbs) .none .none
  rw [toList_intText]
  simpa only [decide_eq_true_eq, List.append_nil] using htext

theorem nearest?_integer {n : Int} (inRange : IntegerInRange n) :
    Numeral.nearest? ⟨n < 0, decimalDigits n.natAbs, none, none⟩ = some (.integer n inRange) := by
  have hinteger : Numeral.integer ⟨n < 0, decimalDigits n.natAbs, none, none⟩ = n := by
    simp only [Numeral.integer, digitsValue_decimalDigits, decide_eq_true_eq]
    split <;> omega
  have hzero : decide (n < 0) = true → n ≠ 0 := by simp only [decide_eq_true_eq]; omega
  rw [Numeral.nearest?, dif_pos ⟨⟨rfl, rfl⟩, by rwa [hinteger], by rwa [hinteger]⟩]
  simp only [hinteger]

/-! ## Decimals -/

/-- With either sign in front, the text is a numeral that is no integer and denotes the decimal. -/
def DenotedBy (d : Decimal) (text : List Char) : Prop :=
  ∀ negative : Bool, ∃ numeral,
    NumeralText numeral ((if negative then ['-'] else []) ++ text) ∧
      ¬ (numeral.fraction = none ∧ numeral.exponent = none) ∧
      numeral.double = .ofDecimal negative d.coefficient d.exponent

/-- The exponent of a number, with the plus sign of a positive one. -/
theorem exponentText_intText (n : Int) :
    ExponentText (some n) ('e' :: ((if 0 < n then ['+'] else []) ++ (intText n).toList)) := by
  have hdigits := isDigits_decimalDigits n.natAbs
  have hvalue : (digitsValue 10 (decimalDigits n.natAbs) : Int) = n.natAbs := by
    rw [digitsValue_decimalDigits]
  rw [toList_intText]
  rcases Int.lt_trichotomy n 0 with hn | rfl | hn
  · have hminus := ExponentText.minus (.inl rfl) hdigits
    rw [hvalue, show -(n.natAbs : Int) = n by omega] at hminus
    rw [if_pos hn, if_neg (by omega)]
    exact hminus
  · exact .plain (.inl rfl) hdigits
  · have hplus := ExponentText.plus (.inl rfl) hdigits
    rw [hvalue, show (n.natAbs : Int) = n by omega] at hplus
    rw [if_pos hn, if_neg (by omega)]
    exact hplus

theorem isWhole_of_head {digits : List Char} (h : IsDigits digits)
    (hhead : digits.head? ≠ some '0') : IsWhole digits :=
  ⟨h, fun hzero => absurd hzero hhead⟩

section

variable {c : Nat} {k : Nat}

/-- The first digits of a number that is not zero. -/
theorem isWhole_take (hc : c ≠ 0) (hk : 0 < k) : IsWhole ((decimalDigits c).take k) := by
  apply isWhole_of_head
  · refine ⟨?_, fun d hd => isDigit_decimalDigits c d (List.mem_of_mem_take hd)⟩
    rw [ne_eq, List.take_eq_nil_iff, not_or]
    exact ⟨by omega, decimalDigits_ne_nil c⟩
  · rw [List.head?_take, if_neg (by omega)]
    exact fun hzero => hc (head_decimalDigits hzero)

/-- The digits behind them. -/
theorem isDigits_drop (hk : k < (decimalDigits c).length) : IsDigits ((decimalDigits c).drop k) := by
  refine ⟨?_, fun d hd => isDigit_decimalDigits c d (List.mem_of_mem_drop hd)⟩
  rw [ne_eq, List.drop_eq_nil_iff]
  omega

/-- Digits with zeros behind them. -/
theorem isWhole_append_zeros (hc : c ≠ 0) (k : Nat) :
    IsWhole (decimalDigits c ++ List.replicate k '0') := by
  apply isWhole_of_head
  · refine ⟨List.append_ne_nil_of_left_ne_nil (decimalDigits_ne_nil c) _, fun d hd => ?_⟩
    rcases List.mem_append.1 hd with hd | hd
    · exact isDigit_decimalDigits c d hd
    · rw [(List.mem_replicate.1 hd).2]
      rfl
  · obtain ⟨d, tail, hdigits⟩ := List.exists_cons_of_ne_nil (decimalDigits_ne_nil c)
    have hhead : (decimalDigits c).head? ≠ some '0' := fun hzero => hc (head_decimalDigits hzero)
    rw [hdigits] at hhead ⊢
    exact hhead

end

section

variable {d : Decimal}

/-- With an exponent: one digit in front of the point, and no point if there is no other. -/
theorem denotedBy_exponent (hc : d.coefficient ≠ 0) {leading : Int}
    (hleading : leading = d.exponent + (decimalDigits d.coefficient).length - 1) :
    DenotedBy d ((decimalDigits d.coefficient).take 1 ++
      ((if (decimalDigits d.coefficient).drop 1 = [] then []
        else '.' :: (decimalDigits d.coefficient).drop 1) ++
      'e' :: ((if 0 < leading then ['+'] else []) ++ (intText leading).toList))) := by
  intro negative
  have hlength := List.length_pos_iff.2 (decimalDigits_ne_nil d.coefficient)
  obtain ⟨fraction, hfraction, hdigits⟩ : ∃ fraction, FractionText fraction
      (if (decimalDigits d.coefficient).drop 1 = [] then []
        else '.' :: (decimalDigits d.coefficient).drop 1) ∧
      fraction.getD [] = (decimalDigits d.coefficient).drop 1 := by
    split
    · rename_i hnil
      exact ⟨none, .none, hnil.symm⟩
    · rename_i hne
      exact ⟨_, .some ⟨hne, fun c hc => isDigit_decimalDigits _ c (List.mem_of_mem_drop hc)⟩, rfl⟩
  refine ⟨_, .mk (isWhole_take hc Nat.one_pos) hfraction (exponentText_intText leading), ?_, ?_⟩
  · rintro ⟨-, hnone⟩
    cases hnone
  · simp only [Numeral.double, hdigits, List.take_append_drop, digitsValue_decimalDigits,
      Option.getD_some, List.length_drop]
    congr 1
    omega

/-- Without an exponent, digits on both sides of a point. -/
theorem denotedBy_fraction {whole fraction : List Char} (hwhole : IsWhole whole)
    (hfraction : IsDigits fraction)
    (hvalue : Binary64.nearestDecimal (digitsValue 10 (whole ++ fraction)) (-fraction.length) =
      Binary64.nearestDecimal d.coefficient d.exponent) :
    DenotedBy d (whole ++ '.' :: fraction) := by
  intro negative
  have htext : NumeralText ⟨negative, whole, some fraction, none⟩ _ :=
    .mk hwhole (.some hfraction) .none
  rw [List.append_nil] at htext
  refine ⟨_, htext, fun hnone => Option.some_ne_none _ hnone.1, ?_⟩
  simp only [Numeral.double, Binary64.ofDecimal, Option.getD_some, Option.getD_none, Int.zero_sub,
    hvalue]

/-- A whole number has zeros behind its digits, and a fraction of one zero. -/
theorem denotedBy_whole (hc : d.coefficient ≠ 0) {e : Nat} (he : d.exponent = e) (hle : e < 400) :
    DenotedBy d (decimalDigits d.coefficient ++ List.replicate e '0' ++ ['.', '0']) := by
  apply denotedBy_fraction (isWhole_append_zeros hc e) (isDigits_of_all rfl)
  have hzeros : List.replicate e '0' ++ ['0'] = List.replicate (e + 1) '0' :=
    List.replicate_succ'.symm
  rw [List.append_assoc, hzeros, digitsValue_append_zeros, digitsValue_decimalDigits, he]
  exact Binary64.nearestDecimal_mul_pow 1 hc hle

/-- With the point among the digits. -/
theorem denotedBy_point (hc : d.coefficient ≠ 0) {k : Nat} (hk : 0 < k)
    (hlength : (k : Int) = d.exponent + (decimalDigits d.coefficient).length)
    (he : d.exponent < 0) :
    DenotedBy d ((decimalDigits d.coefficient).take k ++
      '.' :: (decimalDigits d.coefficient).drop k) := by
  apply denotedBy_fraction (isWhole_take hc hk) (isDigits_drop (by omega))
  rw [List.take_append_drop, digitsValue_decimalDigits, List.length_drop]
  congr 1
  omega

/-- With zeros between the point and the digits. -/
theorem denotedBy_small {k : Nat}
    (hk : d.exponent + (k + (decimalDigits d.coefficient).length : Nat) = 0) :
    DenotedBy d ('0' :: '.' :: (List.replicate k '0' ++ decimalDigits d.coefficient)) := by
  have hwhole : IsWhole ['0'] := ⟨isDigits_of_all rfl, fun _ => rfl⟩
  have hdigits : IsDigits (List.replicate k '0' ++ decimalDigits d.coefficient) := by
    refine ⟨List.append_ne_nil_of_right_ne_nil _ (decimalDigits_ne_nil _), fun c hc => ?_⟩
    rcases List.mem_append.1 hc with hc | hc
    · rw [(List.mem_replicate.1 hc).2]
      rfl
    · exact isDigit_decimalDigits _ c hc
  have hvalue : digitsValue 10 (['0'] ++ (List.replicate k '0' ++ decimalDigits d.coefficient)) =
      d.coefficient := by
    rw [← List.append_assoc]
    exact (digitsValue_zeros (k + 1) _).trans (digitsValue_decimalDigits _)
  apply denotedBy_fraction hwhole hdigits
  rw [hvalue, List.length_append, List.length_replicate]
  congr 1
  omega

/-- **The text of a decimal denotes it**, if zero is written without an exponent. -/
theorem denotedBy_decimalText (hzero : d.coefficient = 0 → d.exponent = 0) :
    DenotedBy d (Binary64.Layout.json.decimalText d).toList := by
  have hlength := List.length_pos_iff.2 (decimalDigits_ne_nil d.coefficient)
  unfold Binary64.Layout.decimalText
  simp only
  split
  · rename_i h
    have hsign : ∀ leading : Int, (if 0 < leading ∧ Binary64.Layout.json.exponentPlus = true then "+"
        else "").toList = if 0 < leading then ['+'] else [] := by
      intro leading
      simp only [Binary64.Layout.json, and_true]
      split <;> rfl
    simp only [String.toList_append, String.toList_ofList, hsign, List.append_assoc]
    exact denotedBy_exponent h.1 rfl
  · rename_i hrange
    split
    · rename_i he
      have hpoint : (if Binary64.Layout.json.wholeFraction = true then ".0" else "").toList =
          ['.', '0'] := rfl
      rw [String.toList_append, String.toList_ofList, hpoint]
      obtain ⟨e, he⟩ := Int.eq_ofNat_of_zero_le he
      by_cases hc : d.coefficient = 0
      · have hvalue : digitsValue 10 (decimalDigits 0 ++ ['0']) = 0 := by decide
        rw [hc, hzero hc]
        apply denotedBy_fraction (isWhole_decimalDigits 0) (isDigits_of_all rfl)
        rw [hvalue, hc, Binary64.nearestDecimal, Binary64.nearestDecimal, if_pos rfl, if_pos rfl]
      · have hleading : d.exponent + (decimalDigits d.coefficient).length - 1 ≤ 15 :=
          Int.not_lt.1 fun hlt => hrange ⟨hc, .inr hlt⟩
        rw [he, Int.toNat_natCast]
        exact denotedBy_whole hc he (by omega)
    · rename_i he
      have hc : d.coefficient ≠ 0 := fun hc => he (Int.le_of_eq (hzero hc).symm)
      split
      · rename_i hleading
        rw [String.toList_ofList]
        exact denotedBy_point hc (by omega) (by omega) (by omega)
      · rename_i hleading
        rw [String.toList_ofList]
        exact denotedBy_small (by omega)

end

/-! ## Numbers -/

/-- **A number is written as a numeral that denotes it.** -/
theorem exists_numeralText (n : Number) :
    ∃ numeral, NumeralText numeral n.text.toList ∧ numeral.nearest? = some n := by
  cases n with
  | integer n inRange => exact ⟨_, numeralText_intText n, nearest?_integer inRange⟩
  | real x finite =>
    have hm : x.magnitude < Binary64.infinityMagnitude := of_decide_eq_true finite
    have hzero : (Binary64.shortest Binary64.Layout.json.tie x.magnitude).coefficient = 0 →
        (Binary64.shortest Binary64.Layout.json.tie x.magnitude).exponent = 0 := fun h => by
      rw [Binary64.shortest_eq_zero _ hm h]
    obtain ⟨numeral, hnumeral, hparts, hdouble⟩ := denotedBy_decimalText hzero x.negative
    refine ⟨numeral, ?_, Numeral.nearest?_of_double finite hparts ?_⟩
    · have hsign : (if x.negative = true then "-" else "").toList =
          if x.negative = true then ['-'] else [] := by
        split <;> rfl
      rw [Number.text, Binary64.Layout.text, String.toList_append, hsign]
      exact hnumeral
    · rw [hdouble, Binary64.ofDecimal, Binary64.nearestDecimal_shortest _ hm,
        Binary64.ofMagnitude_magnitude]

end DocTable.Json
