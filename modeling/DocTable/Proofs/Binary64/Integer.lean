import DocTable.Binary64.Text
import DocTable.Proofs.Text.Integer
import Mathlib.Algebra.Group.Nat.Defs

/-!
# Integers as doubles

A double whose value is an integer of less than 53 bits holds it exactly, and its shortest decimal is
the integer without its last zeros. So an integer that was turned into a double is still written as
the integer.

* `valueOf_nearest` — the value of the double nearest to an integer is the integer.
* `shortest_nearest` — the search on ever finer grids ends on the first one that the integer is a
  multiple of, and on no finer grid than that of the integers.
* `cellText_ofInt` — the text of the double is the text of the integer.
-/

set_option autoImplicit false

namespace DocTable.Binary64

/-! ## The double of an integer -/

/-- The double is an integer: it has the sign and the value of the integer. -/
structure IsExactly (x : Binary64) (n : Int) : Prop where
  isFinite : x.isFinite = true
  negative_eq : x.negative = decide (n < 0)
  value_eq : (valueOf x.magnitude).num = n.natAbs * (valueOf x.magnitude).den

theorem log2_natural {k : Nat} (hk : k ≠ 0) : Ratio.log2 ⟨k, 1⟩ = Nat.log2 k := by
  have hle := Nat.log2_self_le hk
  have hguess : ((Nat.log2 k : Int) - Nat.log2 1) = Nat.log2 k := by
    rw [show Nat.log2 1 = 0 from rfl]
    omega
  simp only [Ratio.log2, hguess]
  rw [if_pos]
  rw [Int.toNat_natCast, show (-(Nat.log2 k : Int)).toNat = 0 by omega, Nat.one_shiftLeft,
    Nat.shiftLeft_zero]
  exact hle

theorem roundHalfEven_one (n : Nat) : roundHalfEven n 1 = n := by
  simp [roundHalfEven, Nat.mod_one]

/-- The significand of an integer fills all bits, the first one included. -/
theorem significand_bounds {k : Nat} (hk : k ≠ 0) (hlt : k < 2 ^ 53) :
    2 ^ 52 ≤ k * 2 ^ (52 - Nat.log2 k) ∧ k * 2 ^ (52 - Nat.log2 k) < 2 ^ 53 ∧ Nat.log2 k ≤ 52 := by
  have hle := Nat.log2_self_le hk
  have hgt := Nat.lt_log2_self (n := k)
  have hlog : Nat.log2 k < 53 := (Nat.log2_lt hk).2 hlt
  have hpos : 0 < 2 ^ (52 - Nat.log2 k) := Nat.two_pow_pos _
  refine ⟨?_, ?_, by omega⟩
  · calc 2 ^ 52 = 2 ^ Nat.log2 k * 2 ^ (52 - Nat.log2 k) := by
          rw [← Nat.pow_add]
          congr 1
          omega
      _ ≤ k * 2 ^ (52 - Nat.log2 k) := Nat.mul_le_mul_right _ hle
  · calc k * 2 ^ (52 - Nat.log2 k) < 2 ^ (Nat.log2 k + 1) * 2 ^ (52 - Nat.log2 k) :=
          Nat.mul_lt_mul_of_pos_right hgt hpos
      _ = 2 ^ 53 := by
          rw [← Nat.pow_add]
          congr 1
          omega

theorem nearest_eq_min {k : Nat} (hk : k ≠ 0) (hlog : Nat.log2 k ≤ 52) :
    Ratio.nearest ⟨k, 1⟩ =
      min ((Nat.log2 k + 1022) * hidden + k * 2 ^ (52 - Nat.log2 k)) infinityMagnitude := by
  have hexponent : max ((Nat.log2 k : Int) - 52) (-1074) = (Nat.log2 k : Int) - 52 := by omega
  have hdown : (-((Nat.log2 k : Int) - 52)).toNat = 52 - Nat.log2 k := by omega
  have hup : ((Nat.log2 k : Int) - 52).toNat = 0 := by omega
  have hbiased : ((Nat.log2 k : Int) - 52 + 1074).toNat = Nat.log2 k + 1022 := by omega
  simp only [Ratio.nearest, if_neg hk, log2_natural hk, hexponent, hdown, hup, hbiased,
    Nat.shiftLeft_eq, Nat.pow_zero, Nat.mul_one, roundHalfEven_one]

theorem hidden_eq : hidden = 2 ^ 52 := rfl

theorem infinityMagnitude_eq : infinityMagnitude = 2047 * 2 ^ 52 := rfl

theorem nearest_natural {k : Nat} (hk : k ≠ 0) (hlt : k < 2 ^ 53) :
    Ratio.nearest ⟨k, 1⟩ = (Nat.log2 k + 1022) * 2 ^ 52 + k * 2 ^ (52 - Nat.log2 k) := by
  obtain ⟨hlow, hhigh, hlog⟩ := significand_bounds hk hlt
  rw [nearest_eq_min hk hlog, hidden_eq, infinityMagnitude_eq]
  omega

/-- **An integer is a double exactly.** -/
theorem valueOf_nearest {k : Nat} (hk : k ≠ 0) (hlt : k < 2 ^ 53) :
    valueOf (Ratio.nearest ⟨k, 1⟩) = ⟨k * 2 ^ (52 - Nat.log2 k), 2 ^ (52 - Nat.log2 k)⟩ := by
  obtain ⟨hlow, hhigh, hlog⟩ := significand_bounds hk hlt
  rw [nearest_natural hk hlt]
  generalize hs : k * 2 ^ (52 - Nat.log2 k) = significand at *
  have hsignificand : significandOf ((Nat.log2 k + 1022) * 2 ^ 52 + significand) = significand := by
    rw [significandOf, hidden_eq, if_neg (by omega)]
    omega
  have hexponent : exponentOf ((Nat.log2 k + 1022) * 2 ^ 52 + significand) =
      (Nat.log2 k : Int) - 52 := by
    rw [exponentOf, hidden_eq]
    omega
  rw [valueOf, hsignificand, hexponent, Ratio.scaled]
  rw [show ((Nat.log2 k : Int) - 52).toNat = 0 by omega,
    show (-((Nat.log2 k : Int) - 52)).toNat = 52 - Nat.log2 k by omega]
  simp

theorem nearest_injective {k l : Nat} (hk : k ≠ 0) (hk_lt : k < 2 ^ 53) (hl : l ≠ 0)
    (hl_lt : l < 2 ^ 53) (h : Ratio.nearest ⟨k, 1⟩ = Ratio.nearest ⟨l, 1⟩) : k = l := by
  have hvalue := congrArg valueOf h
  rw [valueOf_nearest hk hk_lt, valueOf_nearest hl hl_lt, Ratio.mk.injEq] at hvalue
  obtain ⟨hnum, hden⟩ := hvalue
  rw [hden] at hnum
  exact Nat.eq_of_mul_eq_mul_right (Nat.two_pow_pos _) hnum

theorem nearest_bounds {k : Nat} (hk : k ≠ 0) (hlt : k < 2 ^ 53) :
    0 < Ratio.nearest ⟨k, 1⟩ ∧ Ratio.nearest ⟨k, 1⟩ < infinityMagnitude := by
  obtain ⟨hlow, hhigh, hlog⟩ := significand_bounds hk hlt
  rw [nearest_natural hk hlt, infinityMagnitude_eq]
  omega

theorem magnitude_ofMagnitude (negative : Bool) {m : Nat} (h : m < infinityMagnitude) :
    (ofMagnitude negative m).magnitude = m ∧ (ofMagnitude negative m).negative = negative := by
  have hsign : signBit = 2 ^ 63 := rfl
  rw [infinityMagnitude_eq] at h
  rw [magnitude, Binary64.negative, ofMagnitude, hsign, UInt64.toNat_ofNat']
  cases negative with
  | false =>
    simp only [Bool.false_eq_true, if_false, decide_eq_false_iff_not]
    omega
  | true =>
    simp only [if_true, decide_eq_true_eq]
    omega

/-- The integers of 53 bits are doubles. -/
theorem isExactly_ofInt {n : Int} (hlt : n.natAbs < 2 ^ 53) : (ofInt n).IsExactly n := by
  by_cases hn : n = 0
  · subst hn
    have hzero : (ofInt 0).magnitude = 0 := rfl
    refine ⟨rfl, rfl, ?_⟩
    rw [hzero, Int.natAbs_zero, Nat.zero_mul, valueOf, Ratio.scaled, significandOf,
      if_pos (by decide), Nat.zero_mul]
  · have hk : n.natAbs ≠ 0 := by omega
    obtain ⟨-, hfinite⟩ := nearest_bounds hk hlt
    obtain ⟨hmagnitude, hnegative⟩ := magnitude_ofMagnitude (decide (n < 0)) hfinite
    refine ⟨?_, ?_, ?_⟩
    · rw [isFinite, ofInt, hmagnitude]
      exact decide_eq_true hfinite
    · rw [ofInt, hnegative]
    · rw [ofInt, hmagnitude, valueOf_nearest hk hlt]

/-! ## Its shortest decimal -/

theorem nearestDecimal_natural {c e : Nat} (hc : c ≠ 0) (he : e ≤ 400) :
    nearestDecimal c e = Ratio.nearest ⟨c * 10 ^ e, 1⟩ := by
  rw [nearestDecimal, if_neg hc, if_neg (by omega), if_neg (by omega), Ratio.scaled,
    Int.toNat_natCast, show (-(e : Int)).toNat = 0 by omega]
  rfl

/-- A multiple of a power of ten reads back as an integer only if it is that integer. -/
theorem nearestDecimal_eq_iff {c e k : Nat} (hk : k ≠ 0) (he : e ≤ 400) (hlt : c * 10 ^ e < 2 ^ 53)
    (hk_lt : k < 2 ^ 53) :
    nearestDecimal c e = Ratio.nearest ⟨k, 1⟩ ↔ c * 10 ^ e = k := by
  by_cases hc : c = 0
  · subst hc
    have hpos := (nearest_bounds hk hk_lt).1
    rw [nearestDecimal, if_pos rfl]
    omega
  · have hpow : 0 < 10 ^ e := Nat.pow_pos (by decide)
    have hne : c * 10 ^ e ≠ 0 := by
      have := Nat.mul_pos (Nat.pos_of_ne_zero hc) hpow
      omega
    rw [nearestDecimal_natural hc he]
    exact ⟨nearest_injective hne hlt hk hk_lt, fun h => by rw [h]⟩

/-- On the grid of multiples of `10 ^ e` there is a decimal that reads back as an integer exactly if
the integer is one of them. -/
theorem neighbour?_nearest (tie : Tie) {k e : Nat} (hk : k ≠ 0) (he : e ≤ 400)
    (hlt : k + 10 ^ e < 2 ^ 53) :
    neighbour? tie (Ratio.nearest ⟨k, 1⟩) e =
      if 10 ^ e ∣ k then some ⟨k / 10 ^ e, e⟩ else none := by
  have hpow : 0 < 10 ^ e := Nat.pow_pos (by decide)
  have hbelow_le : k / 10 ^ e * 10 ^ e ≤ k := Nat.div_mul_le_self k (10 ^ e)
  have hbelow : nearestDecimal (k / 10 ^ e) e = Ratio.nearest ⟨k, 1⟩ ↔ 10 ^ e ∣ k := by
    rw [nearestDecimal_eq_iff hk he (by omega) (by omega)]
    exact ⟨fun h => ⟨k / 10 ^ e, by rw [Nat.mul_comm, h]⟩, Nat.div_mul_cancel⟩
  have habove : nearestDecimal (k / 10 ^ e + 1) e ≠ Ratio.nearest ⟨k, 1⟩ := by
    intro h
    have hsucc : (k / 10 ^ e + 1) * 10 ^ e = k / 10 ^ e * 10 ^ e + 10 ^ e := Nat.succ_mul _ _
    rw [nearestDecimal_eq_iff hk he (by omega) (by omega), hsucc] at h
    have := Nat.lt_div_mul_add hpow (a := k)
    omega
  have hwhole : k * 2 ^ (52 - Nat.log2 k) / (2 ^ (52 - Nat.log2 k) * 10 ^ e) = k / 10 ^ e := by
    rw [Nat.mul_comm k, Nat.mul_div_mul_left _ _ (Nat.two_pow_pos _)]
  have hgrid : Ratio.scaled 1 10 e = ⟨10 ^ e, 1⟩ := by
    rw [Ratio.scaled, Int.toNat_natCast, show (-(e : Int)).toNat = 0 by omega, Nat.one_mul]
    rfl
  simp only [neighbour?, valueOf_nearest hk (show k < 2 ^ 53 by omega), hgrid, Ratio.div, Nat.mul_one,
    hwhole, decide_eq_false habove, Bool.and_false, Bool.false_eq_true, if_false, hbelow, decide_eq_true_eq]

/-- From a grid that is not too coarse the search ends on the first one that the integer is a multiple
of, at the latest on that of the integers. -/
theorem searchDecimal_nearest (tie : Tie) {k : Nat} (hk : k ≠ 0) {grids e : Nat} (hgrids : e < grids)
    (he : e ≤ 400) (hlt : k + 10 ^ e < 2 ^ 53) :
    ∃ c f : Nat, searchDecimal tie (Ratio.nearest ⟨k, 1⟩) grids e = ⟨c, f⟩ ∧ c * 10 ^ f = k := by
  induction grids generalizing e with
  | zero => omega
  | succ grids ih =>
    rw [searchDecimal, neighbour?_nearest tie hk he hlt]
    by_cases hdvd : 10 ^ e ∣ k
    · rw [if_pos hdvd]
      exact ⟨k / 10 ^ e, e, rfl, Nat.div_mul_cancel hdvd⟩
    · rw [if_neg hdvd]
      cases e with
      | zero => exact absurd (Nat.one_dvd k) hdvd
      | succ e =>
        have hsmaller : 10 ^ e ≤ 10 ^ (e + 1) := Nat.pow_le_pow_right (by decide) (Nat.le_succ e)
        have hnext : ((e + 1 : Nat) : Int) - 1 = e := by omega
        simp only [hnext]
        exact ih (by omega) (by omega) (by omega)

/-- **The shortest decimal of an integer** is the integer, written with a power of ten. -/
theorem shortest_nearest (tie : Tie) {k : Nat} (hk : k ≠ 0) (hlt : k < 2 ^ 32) :
    ∃ c e : Nat, shortest tie (Ratio.nearest ⟨k, 1⟩) = ⟨c, e⟩ ∧ c * 10 ^ e = k := by
  have hlt53 : k < 2 ^ 53 := Nat.lt_trans hlt (by decide)
  have hlog : Nat.log2 k < 32 := (Nat.log2_lt hk).2 hlt
  have hp : 0 < 2 ^ (52 - Nat.log2 k) := Nat.two_pow_pos _
  have hbound : leadingBound (Ratio.nearest ⟨k, 1⟩) =
      ((Nat.log2 k * 1234 / 4096 + 2 : Nat) : Int) := by
    rw [leadingBound, valueOf_nearest hk hlt53]
    simp only
    rw [if_pos (Nat.le_mul_of_pos_left _ (Nat.pos_of_ne_zero hk)), Nat.mul_div_cancel _ hp]
    omega
  have hcoarsest : Nat.log2 k * 1234 / 4096 + 2 ≤ 11 := by omega
  have hpow : 10 ^ (Nat.log2 k * 1234 / 4096 + 2) ≤ 10 ^ 11 :=
    Nat.pow_le_pow_right (by decide) hcoarsest
  have hpositive := (nearest_bounds hk hlt53).1
  rw [shortest, if_neg (by omega), hbound]
  exact searchDecimal_nearest tie hk (by omega) (by omega) (by omega)

/-! ## Its text -/

/-- Multiplying by a power of ten appends zeros. -/
theorem decimalDigits_mul_pow {c : Nat} (hc : c ≠ 0) (e : Nat) :
    decimalDigits (c * 10 ^ e) = decimalDigits c ++ List.replicate e '0' := by
  induction e with
  | zero => rw [Nat.pow_zero, Nat.mul_one, List.replicate_zero, List.append_nil]
  | succ e ih =>
    have hpos : 0 < c * 10 ^ e :=
      Nat.mul_pos (Nat.pos_of_ne_zero hc) (Nat.pow_pos (by decide))
    have hstep : c * 10 ^ (e + 1) = c * 10 ^ e * 10 := by rw [Nat.pow_succ, Nat.mul_assoc]
    rw [hstep, decimalDigits_of_ge (by omega), Nat.mul_div_cancel _ (by decide), Nat.mul_mod_left, ih,
      List.replicate_succ', List.append_assoc]
    rfl

/-- A cell shows a whole number of at most fifteen digits as the number. -/
theorem decimalText_natural {c e : Nat} (hc : c ≠ 0) (hlt : c * 10 ^ e < 10 ^ 15) :
    Layout.cell.decimalText ⟨c, e⟩ = natText (c * 10 ^ e) := by
  have hdigits := decimalDigits_mul_pow hc e
  have hlength := (length_decimalDigits_le_iff (by decide)).2 hlt
  have hne := List.length_pos_iff.2 (decimalDigits_ne_nil c)
  rw [hdigits, List.length_append, List.length_replicate] at hlength
  have hleast : Layout.cell.least = -5 := rfl
  have hgreatest : Layout.cell.greatest = 14 := rfl
  rw [Layout.decimalText, natText, hdigits]
  simp only [hleast, hgreatest]
  rw [if_neg (by omega), if_pos (by omega), Int.toNat_natCast]
  simp [Layout.cell]

/-- **An integer that was turned into a double is written as the integer.** -/
theorem cellText_ofInt {n : Int} (hlt : n.natAbs < 2 ^ 32) : (ofInt n).cellText = intText n := by
  by_cases hn : n = 0
  · subst hn
    rfl
  · have hk : n.natAbs ≠ 0 := by omega
    obtain ⟨-, hfinite⟩ := nearest_bounds hk (Nat.lt_trans hlt (by decide))
    obtain ⟨hmagnitude, hnegative⟩ := magnitude_ofMagnitude (decide (n < 0)) hfinite
    obtain ⟨c, e, hshortest, hvalue⟩ := shortest_nearest .upward hk hlt
    have hc : c ≠ 0 := by
      rintro rfl
      omega
    rw [cellText, isNaN, isFinite, ofInt, hmagnitude, if_neg (by simpa using Nat.le_of_lt hfinite),
      if_pos (by simpa using hfinite), Layout.text, hnegative, hmagnitude]
    rw [show Layout.cell.tie = .upward from rfl, hshortest, decimalText_natural hc (by omega), hvalue,
      intText]
    by_cases hsign : n < 0
    · simp [hsign]
    · simp [hsign]

end DocTable.Binary64
