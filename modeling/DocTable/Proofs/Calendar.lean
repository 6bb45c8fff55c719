import DocTable.Calendar

/-!
# Days and dates: each day has one date

* `yearOfDay_bounds` — the year of a day is the one that the day falls in.
* `le_yearOfDay_iff` — the years of days come in the order of the days.
* `dayOfDate_dateOfDay`, `exists?_dateOfDay` — the date of a day is in the calendar, and its day is
  that day.
-/

set_option autoImplicit false

namespace DocTable.Calendar

@[simp] theorem totalDays_nil : totalDays [] = 0 := rfl

@[simp] theorem totalDays_cons (length : Nat) (lengths : List Nat) :
    totalDays (length :: lengths) = length + totalDays lengths := rfl

/-! ## Years -/

/-- The days of a year are those of its months. -/
theorem daysBeforeYear_succ (year : Int) :
    daysBeforeYear (year + 1) = daysBeforeYear year + totalDays (monthLengths year) := by
  have hleap : isLeap year = true ↔ year % 4 = 0 ∧ (year % 100 ≠ 0 ∨ year % 400 = 0) := by
    simp [isLeap]
  unfold daysBeforeYear monthLengths
  split
  · rename_i h
    have := hleap.1 h
    simp only [totalDays_cons, totalDays_nil]
    omega
  · rename_i h
    have := mt hleap.2 h
    simp only [totalDays_cons, totalDays_nil]
    omega

theorem daysBeforeYear_mono {y z : Int} (h : y ≤ z) : daysBeforeYear y ≤ daysBeforeYear z := by
  unfold daysBeforeYear
  omega

/-- The mean length of a year misses the year of a day by at most one. -/
theorem guess_bounds (day : Int) :
    daysBeforeYear (400 * day / 146097 - 1) ≤ day ∧
      day < daysBeforeYear (400 * day / 146097 + 1 + 1) := by
  unfold daysBeforeYear
  omega

theorem yearOfDay_bounds (day : Int) :
    daysBeforeYear (yearOfDay day) ≤ day ∧ day < daysBeforeYear (yearOfDay day + 1) := by
  obtain ⟨hlow, hhigh⟩ := guess_bounds day
  unfold yearOfDay
  dsimp only
  split
  · rename_i h
    rw [Int.sub_add_cancel]
    exact ⟨hlow, h⟩
  split
  · rename_i h
    exact ⟨h, hhigh⟩
  · rename_i hle hlt
    exact ⟨Int.not_lt.1 hle, Int.not_le.1 hlt⟩

theorem le_yearOfDay_iff {year day : Int} : year ≤ yearOfDay day ↔ daysBeforeYear year ≤ day := by
  obtain ⟨hle, hlt⟩ := yearOfDay_bounds day
  constructor
  · intro h
    exact Int.le_trans (daysBeforeYear_mono h) hle
  · intro h
    by_cases hyear : year ≤ yearOfDay day
    · exact hyear
    · have := daysBeforeYear_mono (show yearOfDay day + 1 ≤ year by omega)
      omega

/-! ## Months and days -/

theorem monthDay_spec (month : Nat) (lengths : List Nat) (offset : Nat)
    (h : offset < totalDays lengths) :
    ∃ index rest length, monthDay month lengths offset = (month + index, rest + 1) ∧
      totalDays (lengths.take index) + rest = offset ∧ lengths[index]? = some length ∧
      rest < length := by
  induction lengths generalizing month offset with
  | nil => simp at h
  | cons length lengths ih =>
    rw [totalDays_cons] at h
    rw [monthDay]
    split
    · rename_i hlt
      exact ⟨0, offset, length, rfl, by simp, rfl, hlt⟩
    · rename_i hge
      obtain ⟨index, rest, last, hmonth, hsum, hlast, hrest⟩ :=
        ih (month + 1) (offset - length) (by omega)
      refine ⟨index + 1, rest, last, ?_, ?_, hlast, hrest⟩
      · rw [hmonth, Nat.add_right_comm, Nat.add_assoc]
      · rw [List.take_succ_cons, totalDays_cons]
        omega

/-- The month and the day of the date of a day, told by the lengths of the months. -/
theorem dateOfDay_spec (day : Int) :
    ∃ index rest length, dateOfDay day = ⟨yearOfDay day, index + 1, rest + 1⟩ ∧
      daysBeforeYear (yearOfDay day)
        + (totalDays ((monthLengths (yearOfDay day)).take index) + rest : Nat) = day ∧
      (monthLengths (yearOfDay day))[index]? = some length ∧ rest < length := by
  obtain ⟨hle, hlt⟩ := yearOfDay_bounds day
  rw [daysBeforeYear_succ] at hlt
  obtain ⟨index, rest, length, hmonth, hsum, hlength, hrest⟩ :=
    monthDay_spec 1 (monthLengths (yearOfDay day)) (day - daysBeforeYear (yearOfDay day)).toNat
      (by omega)
  refine ⟨index, rest, length, ?_, ?_, hlength, hrest⟩
  · rw [dateOfDay, hmonth, Nat.add_comm 1 index]
  · rw [hsum]
    omega

/-- **The day of the date of a day** is that day. -/
theorem dayOfDate_dateOfDay (day : Int) : dayOfDate (dateOfDay day) = day := by
  obtain ⟨index, rest, length, hdate, hday, -, -⟩ := dateOfDay_spec day
  rw [hdate, dayOfDate]
  dsimp only
  rw [Nat.add_sub_cancel, Nat.add_sub_cancel]
  omega

theorem exists?_dateOfDay (day : Int) : exists? (dateOfDay day) = true := by
  obtain ⟨index, rest, length, hdate, -, hlength, hrest⟩ := dateOfDay_spec day
  rw [hdate, exists?]
  simp [hlength]
  omega

theorem month_dateOfDay_le (day : Int) : (dateOfDay day).month ≤ 12 := by
  obtain ⟨index, rest, length, hdate, -, hlength, -⟩ := dateOfDay_spec day
  obtain ⟨hindex, -⟩ := List.getElem?_eq_some_iff.1 hlength
  rw [hdate]
  exact hindex

theorem day_dateOfDay_le (day : Int) : (dateOfDay day).day ≤ 31 := by
  obtain ⟨index, rest, length, hdate, -, hlength, hrest⟩ := dateOfDay_spec day
  have hmem := List.mem_of_getElem? hlength
  have hall : ∀ n ∈ monthLengths (yearOfDay day), n ≤ 31 := by
    unfold monthLengths
    split <;> decide
  rw [hdate]
  exact Nat.le_trans hrest (hall length hmem)

end DocTable.Calendar
