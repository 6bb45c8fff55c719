import DocTable.Decimal128.Text
import DocTable.Proofs.Binary64.Integer
import DocTable.Proofs.Bytes
import DocTable.Proofs.Instant
import Mathlib.Data.List.TakeDrop

/-!
# Decimals as doubles

A decimal becomes a double by way of its text, and a text that is no number would silently become
not-a-number. There is no such text.

* `readDecimal?_finiteText` — a finite decimal is read back from its text, plain or with an
  exponent: the coefficient and the exponent are those that were written.
* `read?_text` — the text of every decimal denotes a double, the one that its datum stands for.
* `Datum.isNaN_nearest` — only what is not a number stands for what is not a number.
* `combination_ofBytes` — which bits of the last byte say that a decimal is not a number.
-/

set_option autoImplicit false

namespace DocTable

/-! ## Reading digits -/

namespace Binary64

variable {whole fraction ending digits : List Char}

theorem spanDigits_append (hdigits : ∀ c ∈ digits, c.isDigit = true)
    (hending : ∀ c ∈ ending.head?, c.isDigit = false) :
    spanDigits (digits ++ ending) = (digits, ending) := by
  obtain ⟨htake, hdrop⟩ := takeWhile_dropWhile_digits hdigits hending
  rw [spanDigits, List.span_eq_takeWhile_dropWhile, htake, hdrop]

/-- The end of a decimal: either nothing, or a letter and the text of an exponent. -/
inductive Ending : List Char → Int → Prop
  | nothing : Ending [] 0
  | exponent {text : List Char} {exponent : Int} (h : readExponent? text = some exponent) :
      Ending ('E' :: text) exponent

theorem Ending.head_not_digit {exponent : Int} (h : Ending ending exponent) :
    ∀ c ∈ ending.head?, c.isDigit = false := by
  cases h with
  | nothing => simp
  | exponent => simp

/-- Digits without a point are read as the number that they denote. -/
theorem readDecimal?_whole {exponent : Int} (hwhole : ∀ c ∈ whole, c.isDigit = true)
    (hne : whole ≠ []) (h : Ending ending exponent) :
    readDecimal? (whole ++ ending) = some (digitsValue 10 whole, exponent) := by
  rw [readDecimal?, spanDigits_append hwhole h.head_not_digit]
  cases h with
  | nothing => simp [hne]
  | exponent h => simp [hne, h]

/-- A point among digits is read as a power of ten. -/
theorem readDecimal?_point {exponent : Int} (hwhole : ∀ c ∈ whole, c.isDigit = true)
    (hne : whole ≠ []) (hfraction : ∀ c ∈ fraction, c.isDigit = true) (h : Ending ending exponent) :
    readDecimal? (whole ++ '.' :: (fraction ++ ending)) =
      some (digitsValue 10 (whole ++ fraction), exponent - fraction.length) := by
  rw [readDecimal?, spanDigits_append hwhole (by simp)]
  simp only [spanDigits_append hfraction h.head_not_digit]
  cases h with
  | nothing => simp [hne]
  | exponent h => simp [hne, h]

/-- A point behind the first of the digits, or behind more of them. -/
theorem readDecimal?_split {exponent : Int} {n : Nat} (hdigits : ∀ c ∈ digits, c.isDigit = true)
    (hne : digits ≠ []) (hn : 0 < n) (h : Ending ending exponent) :
    readDecimal? (digits.take n ++ '.' :: (digits.drop n ++ ending)) =
      some (digitsValue 10 digits, exponent - (digits.length - n : Nat)) := by
  have hfront : ∀ c ∈ digits.take n, c.isDigit = true :=
    fun c hc => hdigits c (List.mem_of_mem_take hc)
  have hback : ∀ c ∈ digits.drop n, c.isDigit = true :=
    fun c hc => hdigits c (List.mem_of_mem_drop hc)
  have hfront_ne : digits.take n ≠ [] := by
    intro hnil
    rcases List.take_eq_nil_iff.1 hnil with hzero | hdigits_nil
    · omega
    · exact hne hdigits_nil
  rw [readDecimal?_point hfront hfront_ne hback h, List.take_append_drop, List.length_drop]

theorem readExponent?_digits (hdigits : ∀ c ∈ digits, c.isDigit = true) (hne : digits ≠ []) :
    readExponent? digits = some (digitsValue 10 digits : Int) ∧
      readExponent? ('+' :: digits) = some (digitsValue 10 digits : Int) ∧
      readExponent? ('-' :: digits) = some (-(digitsValue 10 digits : Int)) := by
  have hall : digits.all Char.isDigit = true := List.all_eq_true.2 hdigits
  refine ⟨?_, ?_, ?_⟩
  · cases digits with
    | nil => exact absurd rfl hne
    | cons c digits =>
      obtain ⟨hminus, hplus⟩ := not_sign_of_isDigit (hdigits c List.mem_cons_self)
      simp [readExponent?, hminus, hplus, hall]
  · simp [readExponent?, hne, hall]
  · simp [readExponent?, hne, hall]

/-! ## Decimals and names -/

theorem toLower_of_isDigit {c : Char} (h : c.isDigit = true) : c.toLower = c := by
  simp only [Char.isDigit, Bool.and_eq_true, decide_eq_true_eq, ge_iff_le,
    UInt32.le_iff_toNat_le] at h
  refine dif_neg ?_
  simp only [ge_iff_le, UInt32.le_iff_toNat_le]
  rintro ⟨hupper, -⟩
  exact absurd (Nat.le_trans hupper h.2) (by decide)

/-- A decimal begins with a digit or with the point. -/
theorem head_of_readDecimal? {text : List Char} {parts : Nat × Int}
    (h : readDecimal? text = some parts) :
    ∃ c rest, text = c :: rest ∧ (c.isDigit = true ∨ c = '.') := by
  cases text with
  | nil => simp [readDecimal?, spanDigits, List.span_eq_takeWhile_dropWhile] at h
  | cons c rest =>
    refine ⟨c, rest, rfl, ?_⟩
    by_contra hc
    rw [not_or] at hc
    simp [readDecimal?, spanDigits, List.span_eq_takeWhile_dropWhile, hc] at h

/-- A decimal is neither a name nor signed, so it is read as a decimal. -/
theorem readUnsigned?_of_readDecimal? {text : List Char} {coefficient : Nat} {exponent : Int}
    (h : readDecimal? text = some (coefficient, exponent)) (negative : Bool) :
    readUnsigned? negative text = some (ofDecimal negative coefficient exponent) := by
  obtain ⟨c, rest, rfl, hc⟩ := head_of_readDecimal? h
  have hlower : c.toLower = c := by
    rcases hc with hc | rfl
    · exact toLower_of_isDigit hc
    · rfl
  have hletter : c ≠ 'i' ∧ c ≠ 'n' := by
    constructor <;> (rintro rfl; revert hc; decide)
  simp [readUnsigned?, h, hlower, hletter]

theorem read?_of_readDecimal? {text : List Char} {coefficient : Nat} {exponent : Int}
    (h : readDecimal? text = some (coefficient, exponent)) :
    read? (String.ofList text) = some (ofDecimal false coefficient exponent) ∧
      read? (String.ofList ('-' :: text)) = some (ofDecimal true coefficient exponent) := by
  refine ⟨?_, ?_⟩
  · obtain ⟨c, rest, rfl, hc⟩ := head_of_readDecimal? h
    have hsign : c ≠ '-' ∧ c ≠ '+' := by
      constructor <;> (rintro rfl; revert hc; decide)
    rw [read?, String.toList_ofList]
    split
    · rename_i heq
      exact absurd (List.cons.inj heq).1 hsign.1
    · rename_i heq
      exact absurd (List.cons.inj heq).1 hsign.2
    · exact readUnsigned?_of_readDecimal? h false
  · rw [read?, String.toList_ofList]
    exact readUnsigned?_of_readDecimal? h true

/-! ## Numbers stay numbers -/

theorem nearestDecimal_le (coefficient : Nat) (exponent : Int) :
    nearestDecimal coefficient exponent ≤ infinityMagnitude := by
  rw [nearestDecimal]
  split
  · exact Nat.zero_le _
  · split
    · exact Nat.le_refl _
    · split
      · exact Nat.zero_le _
      · rw [Ratio.nearest]
        split
        · exact Nat.zero_le _
        · exact Nat.min_le_right _ _

theorem isNaN_ofMagnitude (negative : Bool) {m : Nat} (h : m ≤ infinityMagnitude) :
    (ofMagnitude negative m).isNaN = false := by
  rcases Nat.lt_or_eq_of_le h with hlt | rfl
  · rw [isNaN, (magnitude_ofMagnitude negative hlt).1, decide_eq_false_iff_not]
    omega
  · cases negative <;> rfl

end Binary64

/-! ## Texts of decimals -/

namespace Decimal128

/-- The exponent behind the letter is read back, with the plus sign of a positive one. -/
theorem readExponent?_intText (n : Int) :
    Binary64.readExponent? ((if 0 < n then ['+'] else []) ++ (intText n).toList) = some n := by
  obtain ⟨hplain, hplus, hminus⟩ := Binary64.readExponent?_digits
    (isDigit_decimalDigits n.natAbs) (decimalDigits_ne_nil n.natAbs)
  rw [digitsValue_decimalDigits] at hplain hplus hminus
  rw [intText, natText]
  rcases Int.lt_trichotomy n 0 with hn | hn | hn
  · rw [if_neg (by omega), if_pos hn, String.toList_append, String.toList_ofList,
      String.toList_ofList, List.nil_append]
    exact hminus.trans (congrArg some (show -(n.natAbs : Int) = n by omega))
  · rw [if_neg (by omega), if_neg (by omega), String.toList_ofList, List.nil_append]
    exact hplain.trans (congrArg some (show (n.natAbs : Int) = n by omega))
  · rw [if_pos hn, if_neg (by omega), String.toList_ofList]
    exact hplus.trans (congrArg some (show (n.natAbs : Int) = n by omega))

/-- Digits with zeros in front of them, all behind the point. -/
theorem readDecimal?_small {digits : List Char} (hdigits : ∀ c ∈ digits, c.isDigit = true)
    (zeros : Nat) :
    Binary64.readDecimal? ('0' :: '.' :: (List.replicate zeros '0' ++ digits)) =
      some (digitsValue 10 digits, -((zeros + digits.length : Nat) : Int)) := by
  have hzeros : ∀ c ∈ List.replicate zeros '0' ++ digits, c.isDigit = true := by
    intro c hc
    rcases List.mem_append.1 hc with hzero | hdigit
    · rw [List.eq_of_mem_replicate hzero]
      rfl
    · exact hdigits c hdigit
  have hzero : ∀ c ∈ ['0'], c.isDigit = true := List.forall_mem_singleton.2 rfl
  have hread := Binary64.readDecimal?_point hzero (by decide) hzeros .nothing
  have hvalue : digitsValue 10 (['0'] ++ (List.replicate zeros '0' ++ digits)) =
      digitsValue 10 digits := by
    rw [← List.append_assoc]
    exact digitsValue_zeros (zeros + 1) digits
  rw [List.append_nil, hvalue, List.length_append, List.length_replicate, Int.zero_sub] at hread
  exact hread

/-- **A finite decimal is read back from its text.** -/
theorem readDecimal?_finiteText (coefficient : Nat) (exponent : Int) :
    Binary64.readDecimal? (finiteText coefficient exponent) = some (coefficient, exponent) := by
  have hvalue := digitsValue_decimalDigits coefficient
  have hall := isDigit_decimalDigits coefficient
  have hne := decimalDigits_ne_nil coefficient
  simp only [finiteText]
  generalize decimalDigits coefficient = digits at hvalue hall hne
  have hpos : 0 < digits.length := List.length_pos_iff.2 hne
  split
  · rename_i hplain
    split
    · -- the digits alone
      have hread := Binary64.readDecimal?_whole hall hne .nothing
      rw [List.append_nil, hvalue] at hread
      rw [hread, show exponent = 0 by omega]
    · split
      · -- all digits behind the point
        rw [readDecimal?_small hall, hvalue]
        congr 2
        omega
      · -- the point among the digits
        have hread := Binary64.readDecimal?_split hall hne
          (show 0 < digits.length - (-exponent).toNat by omega) .nothing
        rw [List.append_nil, hvalue] at hread
        rw [hread]
        congr 2
        omega
  · -- one digit before the point, and an exponent
    have hending := Binary64.Ending.exponent
      (readExponent?_intText (exponent + digits.length - 1))
    split
    · rename_i hone
      have hlength := congrArg List.length hone
      rw [List.length_drop, List.length_nil] at hlength
      rw [List.append_nil, List.take_of_length_le (by omega),
        Binary64.readDecimal?_whole hall hne hending, hvalue]
      congr 2
      omega
    · rw [List.append_assoc, List.cons_append,
        Binary64.readDecimal?_split hall hne Nat.one_pos hending, hvalue]
      congr 2
      omega

/-- The double that a datum stands for. -/
def Datum.nearest : Datum → Binary64
  | .notANumber _ _ => .nan
  | .infinite negative => .infinity negative
  | .finite negative coefficient exponent => .ofDecimal negative coefficient exponent

theorem Datum.read?_text (datum : Datum) :
    Binary64.read? (String.ofList datum.text) = some datum.nearest := by
  cases datum with
  | notANumber negative signaling =>
    rw [text, Binary64.read?, String.toList_ofList]
    rfl
  | infinite negative =>
    rw [text, Binary64.read?, String.toList_ofList]
    cases negative <;> rfl
  | finite negative coefficient exponent =>
    obtain ⟨hpositive, hnegative⟩ :=
      Binary64.read?_of_readDecimal? (readDecimal?_finiteText coefficient exponent)
    cases negative with
    | false => exact hpositive
    | true => exact hnegative

theorem Datum.isNaN_nearest (datum : Datum) :
    datum.nearest.isNaN = true ↔ ∃ negative signaling, datum = .notANumber negative signaling := by
  cases datum with
  | notANumber negative signaling => exact iff_of_true rfl ⟨negative, signaling, rfl⟩
  | infinite negative => simp [nearest, Binary64.infinity, Binary64.isNaN_ofMagnitude]
  | finite negative coefficient exponent =>
    simp [nearest, Binary64.ofDecimal, Binary64.isNaN_ofMagnitude, Binary64.nearestDecimal_le]

theorem read?_text (d : Decimal128) : Binary64.read? d.text = some d.datum.nearest :=
  d.datum.read?_text

theorem toBinary64_eq (d : Decimal128) : d.toBinary64 = d.datum.nearest := by
  rw [toBinary64, read?_text, Option.getD_some]

/-! ## The bits of what is not a number -/

theorem datum_eq_notANumber_iff {d : Decimal128} :
    (∃ negative signaling, d.datum = .notANumber negative signaling) ↔
      (d.bits.toNat >>> 122) % 32 = 31 := by
  simp only [datum]
  by_cases hnan : (d.bits.toNat >>> 122) % 32 = 31
  · simp [hnan]
  · rw [if_neg hnan]
    refine iff_of_false ?_ hnan
    rintro ⟨negative, signaling, h⟩
    split at h
    · cases h
    · split at h <;> cases h

theorem and_combination_all :
    ∀ n, n < 256 → (UInt8.ofNat n &&& 0x7c = 0x7c ↔ n / 4 % 32 = 31) := by
  decide +kernel

/-- The combination field is in the last byte, behind the sign. -/
theorem combination_ofBytes (bytes : Vector UInt8 16) :
    ((ofBytes bytes.toList).bits.toNat >>> 122) % 32 = bytes[15].toNat / 4 % 32 := by
  have hsplit : bytes.toList = bytes.toList.take 15 ++ [bytes[15]] := by
    rw [← Vector.getElem_toList (by simp), List.take_append_getElem,
      List.take_of_length_le (by simp)]
  have hlow := ofLittle_lt (bytes.toList.take 15)
  have hlast := bytes[15].toNat_lt
  have hlength : (bytes.toList.take 15).length = 15 := by simp
  rw [hlength] at hlow
  rw [ofBytes, BitVec.toNat_ofNat, hsplit, ofLittle_append, hlength, Nat.shiftRight_eq_div_pow]
  simp only [ofLittle]
  omega

/-- **A decimal is not lost on its way through its text.** The text of sixteen bytes, whichever they
are, denotes a double, so that the fallback is never taken. The double is not a number exactly if the
five bits behind the sign are set; in all other cases it is the infinity of the decimal's sign or the
double nearest to its number, be its coefficient too large to count or its exponent beyond all
doubles. -/
theorem toBinary64_ofBytes (bytes : Vector UInt8 16) :
    Binary64.read? (ofBytes bytes.toList).text = some (ofBytes bytes.toList).toBinary64 ∧
      (ofBytes bytes.toList).toBinary64 = (ofBytes bytes.toList).datum.nearest ∧
      ((ofBytes bytes.toList).toBinary64.isNaN = true ↔ bytes[15] &&& 0x7c = 0x7c) := by
  have hbyte := and_combination_all bytes[15].toNat bytes[15].toNat_lt
  rw [UInt8.ofNat_toNat] at hbyte
  refine ⟨?_, toBinary64_eq _, ?_⟩
  · rw [toBinary64_eq, read?_text]
  · rw [toBinary64_eq, Datum.isNaN_nearest, datum_eq_notANumber_iff, combination_ofBytes, hbyte]

/-- A coefficient beyond thirty-four digits at the greatest exponent is a zero. -/
example : (ofBytes (List.replicate 15 0xff ++ [0x5f])).toBinary64 = Binary64.zero false := by
  with_unfolding_all rfl

end Decimal128

end DocTable
