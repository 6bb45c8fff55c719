import DocTable.Proofs.Binary64.Integer
import Mathlib.Algebra.Order.Field.Power
import Mathlib.Tactic.Positivity

/-!
# The shortest decimal is read back

Rounding depends on the value of a ratio and not on how it is written, and it gives back a double
whose value is the ratio. So the search for the shortest decimal, which tries decimals and ends with
an exact one, only ever ends with a decimal that the double is nearest to.

* `Ratio.log2_spec` — the power of two at or below a ratio.
* `Ratio.nearest_congr` — ratios of one value have one nearest magnitude.
* `nearest_valueOf` — the value of a magnitude is rounded to the magnitude.
* `nearestDecimal_shortest` — **the shortest decimal is read back.**
-/

set_option autoImplicit false

namespace DocTable.Binary64

namespace Ratio

variable {r s : Ratio}

/-- The value of a ratio. -/
def toRat (r : Ratio) : ℚ := r.num / r.den

/-! ## Logarithms -/

theorem shiftLeft_le_iff (hden : 0 < r.den) (e : Int) :
    r.den <<< e.toNat ≤ r.num <<< (-e).toNat ↔ (2 : ℚ) ^ e ≤ r.toRat := by
  have hd : (0 : ℚ) < r.den := by exact_mod_cast hden
  rw [toRat, le_div_iff₀ hd, Nat.shiftLeft_eq, Nat.shiftLeft_eq]
  rcases Int.le_total 0 e with he | he
  · obtain ⟨k, rfl⟩ := Int.eq_ofNat_of_zero_le he
    rw [Int.toNat_natCast, show (-(k : Int)).toNat = 0 by omega, Nat.pow_zero, Nat.mul_one,
      zpow_natCast, mul_comm, ← Nat.cast_le (α := ℚ)]
    push_cast
    rfl
  · obtain ⟨k, hk⟩ := Int.eq_ofNat_of_zero_le (Int.neg_nonneg.2 he)
    obtain rfl : e = -(k : Int) := by omega
    have hpow : (0 : ℚ) < 2 ^ k := by positivity
    rw [Int.neg_neg, Int.toNat_natCast, show (-(k : Int)).toNat = 0 by omega, Nat.pow_zero,
      Nat.mul_one, zpow_neg, zpow_natCast, inv_mul_le_iff₀ hpow, mul_comm, ← Nat.cast_le (α := ℚ)]
    push_cast
    rw [mul_comm]

/-- **The logarithm** of a positive ratio is that of the power of two at or below it. -/
theorem log2_spec (hnum : r.num ≠ 0) (hden : 0 < r.den) :
    (2 : ℚ) ^ r.log2 ≤ r.toRat ∧ r.toRat < (2 : ℚ) ^ (r.log2 + 1) := by
  have hd : (0 : ℚ) < r.den := by exact_mod_cast hden
  have hnum_le : (2 : ℚ) ^ (Nat.log2 r.num : Int) ≤ r.num := by
    exact_mod_cast Nat.log2_self_le hnum
  have hnum_lt : (r.num : ℚ) < 2 ^ ((Nat.log2 r.num : Int) + 1) := by
    exact_mod_cast Nat.lt_log2_self (n := r.num)
  have hden_le : (2 : ℚ) ^ (Nat.log2 r.den : Int) ≤ r.den := by
    exact_mod_cast Nat.log2_self_le (Nat.ne_of_gt hden)
  have hden_lt : (r.den : ℚ) < 2 ^ ((Nat.log2 r.den : Int) + 1) := by
    exact_mod_cast Nat.lt_log2_self (n := r.den)
  -- the quotient of the two powers is at most one step too high
  have hlow : (2 : ℚ) ^ ((Nat.log2 r.num : Int) - Nat.log2 r.den - 1) ≤ r.toRat := by
    rw [toRat, le_div_iff₀ hd]
    calc (2 : ℚ) ^ ((Nat.log2 r.num : Int) - Nat.log2 r.den - 1) * r.den
        ≤ 2 ^ ((Nat.log2 r.num : Int) - Nat.log2 r.den - 1) * 2 ^ ((Nat.log2 r.den : Int) + 1) :=
          mul_le_mul_of_nonneg_left hden_lt.le (by positivity)
      _ = 2 ^ (Nat.log2 r.num : Int) := by
          rw [← zpow_add₀ two_ne_zero]
          congr 1
          omega
      _ ≤ r.num := hnum_le
  have hhigh : r.toRat < (2 : ℚ) ^ ((Nat.log2 r.num : Int) - Nat.log2 r.den + 1) := by
    rw [toRat, div_lt_iff₀ hd]
    calc (r.num : ℚ) < 2 ^ ((Nat.log2 r.num : Int) + 1) := hnum_lt
      _ = 2 ^ ((Nat.log2 r.num : Int) - Nat.log2 r.den + 1) * 2 ^ (Nat.log2 r.den : Int) := by
          rw [← zpow_add₀ two_ne_zero]
          congr 1
          omega
      _ ≤ _ := mul_le_mul_of_nonneg_left hden_le (by positivity)
  simp only [log2]
  split
  · rename_i hle
    exact ⟨(shiftLeft_le_iff hden _).1 hle, hhigh⟩
  · rename_i hgt
    rw [shiftLeft_le_iff hden, not_le] at hgt
    rw [Int.sub_add_cancel]
    exact ⟨hlow, hgt⟩

/-- There is only one such power of two. -/
theorem log2_eq_of_bounds (hnum : r.num ≠ 0) (hden : 0 < r.den) {e : Int}
    (hle : (2 : ℚ) ^ e ≤ r.toRat) (hlt : r.toRat < (2 : ℚ) ^ (e + 1)) : r.log2 = e := by
  obtain ⟨hlog_le, hlog_lt⟩ := log2_spec hnum hden
  have hone : (1 : ℚ) < 2 := by norm_num
  have hbelow := (zpow_lt_zpow_iff_right₀ hone).1 (lt_of_le_of_lt hlog_le hlt)
  have habove := (zpow_lt_zpow_iff_right₀ hone).1 (lt_of_le_of_lt hle hlog_lt)
  omega

/-! ## Rounding -/

theorem roundHalfEven_mul_left {k : Nat} (hk : 0 < k) (num den : Nat) :
    roundHalfEven (k * num) (k * den) = roundHalfEven num den := by
  have hrest : ∀ rest, 2 * (k * rest) = k * (2 * rest) := fun rest => Nat.mul_left_comm 2 k rest
  simp only [roundHalfEven, Nat.mul_div_mul_left _ _ hk, Nat.mul_mod_mul_left, hrest,
    Nat.mul_lt_mul_left hk]

theorem roundHalfEven_congr {num den num' den' : Nat} (hden : 0 < den) (hden' : 0 < den')
    (h : num * den' = num' * den) : roundHalfEven num den = roundHalfEven num' den' := by
  rw [← roundHalfEven_mul_left hden' num, ← roundHalfEven_mul_left hden num', Nat.mul_comm den' num,
    Nat.mul_comm den num', h, Nat.mul_comm den']

/-- A number times a power over that power is rounded to the number. -/
theorem roundHalfEven_mul_self (n : Nat) {k : Nat} (hk : 0 < k) : roundHalfEven (n * k) k = n := by
  rw [roundHalfEven_congr hk Nat.one_pos (Nat.mul_one _), roundHalfEven_one]

theorem toRat_congr (hr : 0 < r.den) (hs : 0 < s.den) (h : r.num * s.den = s.num * r.den) :
    r.toRat = s.toRat := by
  have hr' : (r.den : ℚ) ≠ 0 := by exact_mod_cast Nat.ne_of_gt hr
  have hs' : (s.den : ℚ) ≠ 0 := by exact_mod_cast Nat.ne_of_gt hs
  rw [toRat, toRat, div_eq_div_iff hr' hs']
  exact_mod_cast h

/-- **Ratios of one value have one nearest magnitude.** -/
theorem nearest_congr (hr : 0 < r.den) (hs : 0 < s.den) (h : r.num * s.den = s.num * r.den) :
    r.nearest = s.nearest := by
  by_cases hnum : r.num = 0
  · have hnum' : s.num = 0 := by
      rw [hnum, Nat.zero_mul] at h
      exact (Nat.mul_eq_zero.1 h.symm).resolve_right (Nat.ne_of_gt hr)
    rw [nearest, nearest, if_pos hnum, if_pos hnum']
  · have hnum' : s.num ≠ 0 := by
      intro hzero
      rw [hzero, Nat.zero_mul] at h
      exact (Nat.mul_eq_zero.1 h).elim hnum (Nat.ne_of_gt hs)
    have hlog : r.log2 = s.log2 := by
      obtain ⟨hle, hlt⟩ := log2_spec hnum' hs
      rw [← toRat_congr hr hs h] at hle hlt
      exact log2_eq_of_bounds hnum hr hle hlt
    have hround : ∀ up down : Nat, roundHalfEven (r.num <<< up) (r.den <<< down) =
        roundHalfEven (s.num <<< up) (s.den <<< down) := by
      intro up down
      simp only [Nat.shiftLeft_eq]
      refine roundHalfEven_congr (Nat.mul_pos hr (Nat.two_pow_pos _))
        (Nat.mul_pos hs (Nat.two_pow_pos _)) ?_
      rw [Nat.mul_mul_mul_comm, h, Nat.mul_mul_mul_comm]
    simp only [nearest, if_neg hnum, if_neg hnum', hlog, hround]

end Ratio

/-! ## The value of a magnitude -/

variable {m : Nat}

/-- A magnitude is its significand under its exponent; the significand has all bits unless the exponent
is the least one. -/
theorem magnitude_cases (hm : m < infinityMagnitude) :
    m = (exponentOf m + 1074).toNat * hidden + significandOf m ∧ -1074 ≤ exponentOf m ∧
      significandOf m < 2 ^ 53 ∧ (exponentOf m = -1074 ∨ 2 ^ 52 ≤ significandOf m) := by
  rw [infinityMagnitude_eq] at hm
  rw [exponentOf, significandOf, hidden_eq]
  split
  · omega
  · omega

theorem toRat_valueOf (m : Nat) :
    (valueOf m).toRat = significandOf m * (2 : ℚ) ^ exponentOf m := by
  have htwo : (2 : ℚ) ^ exponentOf m =
      2 ^ (exponentOf m).toNat / 2 ^ (-exponentOf m).toNat := by
    rw [← zpow_natCast, ← zpow_natCast, ← zpow_sub₀ two_ne_zero]
    congr 1
    omega
  rw [htwo, Ratio.toRat, valueOf, Ratio.scaled, Nat.pow_eq, Nat.pow_eq]
  push_cast
  rw [mul_div_assoc]

theorem den_valueOf_pos (m : Nat) : 0 < (valueOf m).den := Nat.two_pow_pos _

theorem num_valueOf_eq_zero_iff : (valueOf m).num = 0 ↔ significandOf m = 0 := by
  have hup : Nat.pow 2 (exponentOf m).toNat ≠ 0 := Nat.ne_of_gt (Nat.two_pow_pos _)
  rw [valueOf, Ratio.scaled, Nat.mul_eq_zero, or_iff_left hup]

theorem log2_valueOf (hne : significandOf m ≠ 0) :
    (valueOf m).log2 = Nat.log2 (significandOf m) + exponentOf m := by
  have htwo : (0 : ℚ) < 2 ^ exponentOf m := by positivity
  have hle := Nat.log2_self_le hne
  have hlt := Nat.lt_log2_self (n := significandOf m)
  refine Ratio.log2_eq_of_bounds (mt num_valueOf_eq_zero_iff.1 hne) (den_valueOf_pos m) ?_ ?_
  · rw [toRat_valueOf, zpow_add₀ two_ne_zero, zpow_natCast]
    refine mul_le_mul_of_nonneg_right ?_ htwo.le
    exact_mod_cast hle
  · rw [toRat_valueOf, add_right_comm, zpow_add₀ two_ne_zero]
    refine mul_lt_mul_of_pos_right ?_ htwo
    exact_mod_cast hlt

/-- **The value of a magnitude is rounded to the magnitude.** -/
theorem nearest_valueOf (hm : m < infinityMagnitude) : (valueOf m).nearest = m := by
  obtain ⟨hparts, hleast, hlt, hfull⟩ := magnitude_cases hm
  by_cases hzero : significandOf m = 0
  · have hexponent : exponentOf m = -1074 := by omega
    rw [Ratio.nearest, if_pos (num_valueOf_eq_zero_iff.2 hzero), hparts, hzero, hexponent]
    rfl
  · have hlog52 : Nat.log2 (significandOf m) < 53 := (Nat.log2_lt hzero).2 hlt
    have hexponent : max (Nat.log2 (significandOf m) + exponentOf m - 52) (-1074) =
        exponentOf m := by
      rcases hfull with hleast' | hfull
      · omega
      · have := (Nat.le_log2 hzero).2 hfull
        omega
    have hround : roundHalfEven ((valueOf m).num <<< (-exponentOf m).toNat)
        ((valueOf m).den <<< (exponentOf m).toNat) = significandOf m := by
      simp only [valueOf, Ratio.scaled, Nat.shiftLeft_eq]
      rw [Nat.mul_assoc, Nat.mul_comm (Nat.pow 2 (-exponentOf m).toNat)]
      exact Ratio.roundHalfEven_mul_self _ (Nat.mul_pos (Nat.two_pow_pos _) (Nat.two_pow_pos _))
    simp only [Ratio.nearest, if_neg (mt num_valueOf_eq_zero_iff.1 hzero), log2_valueOf hzero,
      hexponent, hround]
    rw [← hparts]
    exact Nat.min_eq_left (Nat.le_of_lt hm)

/-! ## Decimals that read back -/

/-- A decimal that is neither zero nor far outside the range of the doubles is rounded like any ratio
of its value. -/
theorem nearestDecimal_eq {c : Nat} {e : Int} {r : Ratio} (hc : c ≠ 0) (hle : e ≤ 400)
    (hge : -400 ≤ e + Nat.log2 c) (hden : 0 < r.den)
    (h : (Ratio.scaled c 10 e).num * r.den = r.num * (Ratio.scaled c 10 e).den) :
    nearestDecimal c e = r.nearest := by
  rw [nearestDecimal, if_neg hc, if_neg (by omega), if_neg (by omega)]
  exact Ratio.nearest_congr (Nat.pow_pos (by decide)) hden h

/-- A power of ten may stand in the coefficient or in the exponent. -/
theorem nearestDecimal_mul_pow {c e : Nat} (k : Nat) (hc : c ≠ 0) (he : e + k ≤ 400) :
    nearestDecimal (c * 10 ^ (e + k)) (-(k : Int)) = nearestDecimal c e := by
  have hpow : c * 10 ^ (e + k) ≠ 0 := Nat.mul_ne_zero hc (Nat.ne_of_gt (Nat.pow_pos (by decide)))
  rw [nearestDecimal_eq hc (by omega) (by omega) (Nat.pow_pos (by decide)) rfl]
  refine nearestDecimal_eq hpow (by omega) (by omega) (Nat.pow_pos (by decide)) ?_
  simp only [Ratio.scaled, Nat.pow_eq, Int.toNat_natCast, Int.neg_neg,
    show (-(k : Int)).toNat = 0 by omega, show (-(e : Int)).toNat = 0 by omega, Nat.pow_zero,
    Nat.mul_one, Nat.pow_add, Nat.mul_assoc]

theorem significandOf_ne_zero (hm : m < infinityMagnitude) (hzero : m ≠ 0) :
    significandOf m ≠ 0 := by
  obtain ⟨hparts, -, -, hfull⟩ := magnitude_cases hm
  intro hs
  rw [hs] at hparts hfull
  have hexponent : exponentOf m = -1074 := by omega
  rw [hexponent] at hparts
  exact hzero hparts

/-- The exact decimal of a double is read back. -/
theorem nearestDecimal_exactDecimal (hm : m < infinityMagnitude) (hzero : m ≠ 0) :
    nearestDecimal (exactDecimal m).coefficient (exactDecimal m).exponent = m := by
  obtain ⟨-, hleast, -, -⟩ := magnitude_cases hm
  have hsignificand := significandOf_ne_zero hm hzero
  refine Eq.trans ?_ (nearest_valueOf hm)
  unfold exactDecimal
  simp only
  split
  · rename_i hexponent
    have hne : significandOf m <<< (exponentOf m).toNat ≠ 0 := by
      rw [Nat.shiftLeft_eq]
      exact Nat.mul_ne_zero hsignificand (Nat.ne_of_gt (Nat.two_pow_pos _))
    show nearestDecimal (significandOf m <<< (exponentOf m).toNat) 0 = _
    refine nearestDecimal_eq hne (by decide) (by omega) (den_valueOf_pos m) ?_
    simp only [Ratio.scaled, valueOf, Nat.pow_eq, Nat.shiftLeft_eq,
      show (-exponentOf m).toNat = 0 by omega, show (-(0 : Int)).toNat = 0 from rfl,
      show (0 : Int).toNat = 0 from rfl, Nat.pow_zero, Nat.mul_one]
  · rename_i hexponent
    obtain ⟨k, hk⟩ : ∃ k : Nat, exponentOf m = -(k : Int) := ⟨(-exponentOf m).toNat, by omega⟩
    rw [hk, Int.neg_neg, Int.toNat_natCast, Nat.pow_eq]
    -- five is more than four, so the coefficient has at least `2 * k` bits
    have hne : significandOf m * 5 ^ k ≠ 0 :=
      Nat.mul_ne_zero hsignificand (Nat.ne_of_gt (Nat.pow_pos (by decide)))
    have hbits : 2 * k ≤ Nat.log2 (significandOf m * 5 ^ k) := by
      rw [Nat.le_log2 hne, Nat.pow_mul]
      exact Nat.le_trans (Nat.pow_le_pow_left (by decide) k)
        (Nat.le_mul_of_pos_left _ (Nat.pos_of_ne_zero hsignificand))
    show nearestDecimal (significandOf m * 5 ^ k) (-(k : Int)) = _
    refine nearestDecimal_eq hne (by omega) (by omega) (den_valueOf_pos m) ?_
    simp only [Ratio.scaled, valueOf, Nat.pow_eq, hk, Int.neg_neg, Int.toNat_natCast,
      show (-(k : Int)).toNat = 0 by omega, Nat.pow_zero, Nat.mul_one]
    rw [Nat.mul_assoc, ← Nat.mul_pow]

/-- On every grid, what is found is read back. -/
theorem nearestDecimal_of_neighbour? {tie : Tie} {e : Int} {d : Decimal}
    (h : neighbour? tie m e = some d) : nearestDecimal d.coefficient d.exponent = m := by
  simp only [neighbour?] at h
  split at h
  · -- both neighbours read back, and either may be taken
    rename_i hboth
    obtain ⟨hbelow, habove⟩ := Bool.and_eq_true_iff.1 hboth
    split at h
    · obtain rfl := Option.some.inj h
      exact of_decide_eq_true habove
    · obtain rfl := Option.some.inj h
      exact of_decide_eq_true hbelow
  · split at h
    · rename_i habove
      obtain rfl := Option.some.inj h
      exact of_decide_eq_true habove
    · split at h
      · rename_i hbelow
        obtain rfl := Option.some.inj h
        exact of_decide_eq_true hbelow
      · cases h

theorem nearestDecimal_searchDecimal (tie : Tie) (hm : m < infinityMagnitude) (hzero : m ≠ 0)
    (grids : Nat) (e : Int) :
    nearestDecimal (searchDecimal tie m grids e).coefficient (searchDecimal tie m grids e).exponent =
      m := by
  induction grids generalizing e with
  | zero => exact nearestDecimal_exactDecimal hm hzero
  | succ grids ih =>
    rw [searchDecimal]
    split
    · rename_i d hd
      exact nearestDecimal_of_neighbour? hd
    · exact ih (e - 1)

/-- **The shortest decimal is read back**: the double is the one nearest to it. -/
theorem nearestDecimal_shortest (tie : Tie) (hm : m < infinityMagnitude) :
    nearestDecimal (shortest tie m).coefficient (shortest tie m).exponent = m := by
  rw [shortest]
  split
  · rename_i hzero
    exact hzero.symm
  · rename_i hzero
    exact nearestDecimal_searchDecimal tie hm hzero 24 _

/-- The only decimal without a coefficient is that of zero, and it has no exponent. -/
theorem shortest_eq_zero (tie : Tie) (hm : m < infinityMagnitude)
    (h : (shortest tie m).coefficient = 0) : shortest tie m = ⟨0, 0⟩ := by
  have hback := nearestDecimal_shortest tie hm
  rw [h, nearestDecimal, if_pos rfl] at hback
  rw [shortest, if_pos hback.symm]

end DocTable.Binary64
