import DocTable.ExtendedJson.Basic
import DocTable.Proofs.Calendar
import DocTable.Proofs.Text.Integer

/-!
# Instants: reading is the inverse of writing

* `read?_text` — an instant of the years 0 to 9999 is read back from its date and time.
* `hasPlainDate_iff` — the instants that are written as text in JSON are those of the years 1970 to
  9999.
-/

set_option autoImplicit false

namespace DocTable.Instant

/-! ## Padded numbers -/

variable {width n : Nat}

theorem length_padded (hwidth : 0 < width) (hn : n < 10 ^ width) :
    (padded width n).length = width := by
  have := (length_decimalDigits_le_iff hwidth).2 hn
  rw [padded, List.length_append, List.length_replicate]
  omega

theorem isDigit_padded (width n : Nat) : ∀ c ∈ padded width n, c.isDigit = true := by
  intro c hc
  rcases List.mem_append.1 hc with hzero | hdigit
  · rw [List.eq_of_mem_replicate hzero]
    rfl
  · exact forall_mem_decimalDigits (p := fun c => c.isDigit = true)
      (fun d hd => isDigit_digitChar hd) n c hdigit

@[simp] theorem digitsValue_padded (width n : Nat) : digitsValue 10 (padded width n) = n := by
  rw [padded, digitsValue_zeros, digitsValue_decimalDigits]

/-- A number that is padded to a width is read back at that width. -/
theorem readDigits?_padded (hwidth : 0 < width) (hn : n < 10 ^ width) (rest : List Char) :
    readDigits? width (padded width n ++ rest) = some (n, rest) := by
  have hlength := length_padded hwidth hn
  have htake : (padded width n ++ rest).take width = padded width n := by
    rw [List.take_append_of_le_length (by omega), List.take_of_length_le (by omega)]
  have hdrop : (padded width n ++ rest).drop width = rest := by
    rw [List.drop_append_of_le_length (by omega), List.drop_of_length_le (by omega),
      List.nil_append]
  rw [readDigits?, htake, hdrop, if_pos ⟨hlength, List.all_eq_true.2 (isDigit_padded width n)⟩,
    digitsValue_padded]

theorem readFraction?_padded (hn : n < 1000) :
    readFraction? ('.' :: (padded 3 n ++ ['Z'])) = some (n, ['Z']) := by
  have hlength := length_padded (show 0 < 3 by decide) hn
  have hdigits := isDigit_padded 3 n
  have hne : padded 3 n ≠ [] := fun h => by simp [h] at hlength
  have hZ : ¬ ('Z'.isDigit = true) := by decide
  rw [readFraction?, List.takeWhile_append_of_pos hdigits, List.dropWhile_append_of_pos hdigits,
    List.takeWhile_cons_of_neg hZ, List.dropWhile_cons_of_neg hZ, List.append_nil, if_neg hne,
    List.take_of_length_le (Nat.le_of_eq hlength)]
  show some (digitsValue 10 (padded 3 n ++ List.replicate (3 - (padded 3 n).length) '0'), ['Z']) = _
  rw [hlength, Nat.sub_self, List.replicate_zero, List.append_nil, digitsValue_padded]

/-! ## The years of instants -/

theorem le_year_date_iff {year millis : Int} :
    year ≤ (date millis).year ↔
      (Calendar.daysBeforeYear year - epochDay) * millisPerDay ≤ millis := by
  show year ≤ Calendar.yearOfDay (millis / millisPerDay + epochDay) ↔ _
  rw [Calendar.le_yearOfDay_iff, millisPerDay]
  omega

/-- The bounds between which an instant is written as text are those of its year. -/
theorem hasPlainDate_iff {millis : Int} :
    hasPlainDate millis = true ↔ 1970 ≤ (date millis).year ∧ (date millis).year ≤ 9999 := by
  have hlast := @le_year_date_iff 10000 millis
  have hfirst := @le_year_date_iff 1970 millis
  rw [show (Calendar.daysBeforeYear 1970 - epochDay) * millisPerDay = 0 from rfl] at hfirst
  rw [show (Calendar.daysBeforeYear 10000 - epochDay) * millisPerDay = 253402300800000 from rfl]
    at hlast
  rw [hfirst, hasPlainDate, Bool.and_eq_true, decide_eq_true_eq, decide_eq_true_eq]
  omega

/-- Every year of four digits is far within the dates that can be written. -/
theorem hasDate_of_year {millis : Int} (hfirst : 0 ≤ (date millis).year)
    (hlast : (date millis).year ≤ 9999) : hasDate millis = true := by
  have hle := le_year_date_iff.1 hfirst
  have hlt := mt (@le_year_date_iff 10000 millis).2 (by omega)
  rw [show (Calendar.daysBeforeYear 0 - epochDay) * millisPerDay = -62167219200000 from rfl] at hle
  rw [show (Calendar.daysBeforeYear 10000 - epochDay) * millisPerDay = 253402300800000 from rfl]
    at hlt
  rw [hasDate, Bool.and_eq_true, decide_eq_true_eq, decide_eq_true_eq, earliest, latest]
  omega

/-! ## Dates and times -/

theorem toList_text {millis : Int} (hfirst : 0 ≤ (date millis).year)
    (hlast : (date millis).year ≤ 9999) :
    (text millis).toList =
      padded 4 (date millis).year.natAbs ++ ('-' :: (padded 2 (date millis).month ++ ('-' ::
        (padded 2 (date millis).day ++ ('T' ::
          (padded 2 ((millis % millisPerDay).toNat / 3600000) ++ (':' ::
            (padded 2 ((millis % millisPerDay).toNat / 60000 % 60) ++ (':' ::
              (padded 2 ((millis % millisPerDay).toNat / 1000 % 60) ++ ('.' ::
                (padded 3 ((millis % millisPerDay).toNat % 1000) ++ ['Z'])))))))))))) := by
  rw [text, if_pos (hasDate_of_year hfirst hlast), String.toList_ofList, dateTimeDigits,
    yearDigits, if_neg (by omega), if_neg (by omega)]
  simp only [List.append_assoc, List.cons_append]

/-- **An instant of the years 0 to 9999 is read back from its text.** -/
theorem read?_text {millis : Int} (hfirst : 0 ≤ (date millis).year)
    (hlast : (date millis).year ≤ 9999) : read? (text millis) = some millis := by
  have hmonth : (date millis).month ≤ 12 := Calendar.month_dateOfDay_le _
  have hday : (date millis).day ≤ 31 := Calendar.day_dateOfDay_le _
  have hexists : Calendar.exists? (date millis) = true := Calendar.exists?_dateOfDay _
  have hdayOf : Calendar.dayOfDate (date millis) = millis / millisPerDay + epochDay :=
    Calendar.dayOfDate_dateOfDay _
  obtain ⟨time, htime⟩ : ∃ time, (millis % millisPerDay).toNat = time := ⟨_, rfl⟩
  have hlt : time < 86400000 := by
    rw [millisPerDay] at htime
    omega
  have hdate : (⟨((date millis).year.natAbs : Int), (date millis).month, (date millis).day⟩ : Date)
      = date millis := by
    rw [Int.natAbs_of_nonneg hfirst]
  rw [read?, toList_text hfirst hlast, htime]
  have hyear := readDigits?_padded (show 0 < 4 by decide)
    (show (date millis).year.natAbs < 10 ^ 4 by omega)
  have htwo : ∀ n, n < 100 → ∀ rest, readDigits? 2 (padded 2 n ++ rest) = some (n, rest) :=
    fun n hn => readDigits?_padded (by decide) hn
  have hfraction := readFraction?_padded (show time % 1000 < 1000 by omega)
  simp only [hyear, htwo _ (show (date millis).month < 100 by omega),
    htwo _ (show (date millis).day < 100 by omega), htwo _ (show time / 3600000 < 100 by omega),
    htwo _ (show time / 60000 % 60 < 100 by omega),
    htwo _ (show time / 1000 % 60 < 100 by omega), hfraction, readChar?, Option.bind_eq_bind,
    Option.bind_some, beq_self_eq_true, if_true, Bool.true_or]
  rw [hdate, hdayOf, show readOffset? ['Z'] = some 0 from rfl, Option.bind_some,
    if_pos ⟨hexists, by omega, by omega, by omega⟩]
  -- the day and the parts of its time make up the instant
  have hsplit := Int.mul_ediv_add_emod millis millisPerDay
  rw [millisPerDay] at htime hsplit ⊢
  congr 1
  omega

end DocTable.Instant
