import Switchboard.Timestamp

/-!
# Dates of days

Every day number is a day of a cycle of 400 years, and so of a century, a cycle of four years
and a year in it. The date computed from the number is a date of the calendar.
-/

namespace Switchboard.Timestamp

/-! ## Cycles of 400 years -/

/-- A day of a cycle of 400 years that begins in March. A year has a day 365 only if it is the
last of four, and these are not the last four of a century unless the century is the last. -/
structure CycleDay where
  century : Int
  quad : Int
  year : Int
  day : Int
  century_nonneg : 0 ≤ century
  century_le : century ≤ 3
  quad_nonneg : 0 ≤ quad
  quad_le : quad ≤ 24
  year_nonneg : 0 ≤ year
  year_le : year ≤ 3
  day_nonneg : 0 ≤ day
  day_le : day ≤ 365
  leap : day = 365 → year = 3 ∧ (quad ≤ 23 ∨ century = 3)

namespace CycleDay

/-- The number of the day in its cycle. -/
def number (d : CycleDay) : Int :=
  36524 * d.century + 1461 * d.quad + 365 * d.year + d.day

/-- The year of the day in its cycle. -/
def yearNumber (d : CycleDay) : Int :=
  100 * d.century + 4 * d.quad + d.year

/-- Every day of the 400 years has its place in the cycle. -/
theorem exists_number_eq {doe : Int} (h0 : 0 ≤ doe) (h1 : doe < 146097) :
    ∃ d : CycleDay, d.number = doe := by
  obtain ⟨c, r, hc⟩ : ∃ c r : Int, doe = 36524 * c + r ∧ 0 ≤ c ∧ c ≤ 3 ∧ 0 ≤ r ∧ r ≤ 36524 ∧
      (r = 36524 → c = 3) :=
    ⟨min (doe / 36524) 3, doe - 36524 * min (doe / 36524) 3, by omega⟩
  obtain ⟨q, s, hq⟩ : ∃ q s : Int, r = 1461 * q + s ∧ 0 ≤ q ∧ q ≤ 24 ∧ 0 ≤ s ∧ s ≤ 1460 :=
    ⟨r / 1461, r % 1461, by omega⟩
  obtain ⟨t, u, ht⟩ : ∃ t u : Int, s = 365 * t + u ∧ 0 ≤ t ∧ t ≤ 3 ∧ 0 ≤ u ∧ u ≤ 365 ∧
      (u = 365 → t = 3) :=
    ⟨min (s / 365) 3, s - 365 * min (s / 365) 3, by omega⟩
  refine ⟨⟨c, q, t, u, ?_, ?_, ?_, ?_, ?_, ?_, ?_, ?_, ?_⟩, ?_⟩
  all_goals first | omega | (simp only [number]; omega)

/-- The quotient that `dateOfDay` takes for the year is the year. -/
theorem year_eq (d : CycleDay) :
    (d.number - d.number / 1460 + d.number / 36524 - d.number / 146096) / 365
      = d.yearNumber := by
  obtain ⟨c, q, t, u, hc, hc', hq, hq', ht, ht', hu, hu', hl⟩ := d
  simp only [number, yearNumber]
  generalize hn : 36524 * c + 1461 * q + 365 * t + u = n
  -- the quotient by 1460 runs ahead by one near the end of the last of four years
  obtain ⟨e, he⟩ : ∃ e, n / 1460 = 25 * c + q + e ∧ 0 ≤ e ∧ e ≤ 1 ∧
      (e = 1 → 1340 ≤ 365 * t + u) ∧ (e = 0 → 365 * t + u ≤ 1459) :=
    ⟨n / 1460 - 25 * c - q, by omega⟩
  have hcentury : n / 36524 - n / 146096 = c := by
    by_cases hlast : n = 146096
    · subst hlast
      omega
    · have hz : n / 146096 = 0 := by omega
      have hcc : n / 36524 = c := by omega
      omega
  have hnum : n - n / 1460 + n / 36524 - n / 146096
      = 365 * (100 * c + 4 * q) + (365 * t + u - e) := by omega
  rw [hnum]
  omega

/-- The rest that `dateOfDay` takes for the day of the year is that day. -/
theorem day_eq (d : CycleDay) :
    d.number - (365 * d.yearNumber + d.yearNumber / 4 - d.yearNumber / 100) = d.day := by
  obtain ⟨c, q, t, u, hc, hc', hq, hq', ht, ht', hu, hu', hl⟩ := d
  simp only [number, yearNumber]
  have h4 : (100 * c + 4 * q + t) / 4 = 25 * c + q := by omega
  have h100 : (100 * c + 4 * q + t) / 100 = c := by omega
  omega

/-- The February at the end of a year with a day 365 has 29 days. -/
theorem isLeapYear (d : CycleDay) (h : d.day = 365) (era : Int) :
    Timestamp.isLeapYear (d.yearNumber + era * 400 + 1) = true := by
  obtain ⟨c, q, t, u, hc, hc', hq, hq', ht, ht', hu, hu', hl⟩ := d
  obtain ⟨ht3, hrest⟩ := hl h
  simp only [Timestamp.isLeapYear, yearNumber, ht3, Bool.and_eq_true, Bool.or_eq_true,
    decide_eq_true_eq, bne_iff_ne]
  omega

end CycleDay

/-- A day of a year that begins in March falls on a day of a month; only day 365 needs a
February of 29 days. -/
theorem month_day_bounds {doy : Int} (h0 : 0 ≤ doy) (h1 : doy ≤ 365) :
    let mp := (5 * doy + 2) / 153
    let d := doy - (153 * mp + 2) / 5 + 1
    let m := if mp < 10 then mp + 3 else mp - 9
    1 ≤ m ∧ m ≤ 12 ∧ 1 ≤ d ∧ d ≤ 31 ∧ (m = 4 ∨ m = 6 ∨ m = 9 ∨ m = 11 → d ≤ 30) ∧
      (m = 2 → d ≤ 29) ∧ (m = 2 → d = 29 → doy = 365) := by
  intro mp d m
  have hmp : mp = 0 ∨ mp = 1 ∨ mp = 2 ∨ mp = 3 ∨ mp = 4 ∨ mp = 5 ∨ mp = 6 ∨ mp = 7 ∨ mp = 8 ∨
      mp = 9 ∨ mp = 10 ∨ mp = 11 := by omega
  have hdef : 153 * mp ≤ 5 * doy + 2 ∧ 5 * doy + 2 < 153 * mp + 153 := by omega
  rcases hmp with h | h | h | h | h | h | h | h | h | h | h | h <;>
    (simp only [m, d, h] at hdef ⊢; omega)

/-- A day number has a date of the calendar. -/
theorem dateOfDay_bounds (n : Int) :
    1 ≤ (dateOfDay n).2.1 ∧ (dateOfDay n).2.1 ≤ 12 ∧ 1 ≤ (dateOfDay n).2.2 ∧
      (dateOfDay n).2.2 ≤ daysInMonth (dateOfDay n).1 (dateOfDay n).2.1 := by
  obtain ⟨c, hc⟩ := CycleDay.exists_number_eq (Int.emod_nonneg n (by decide))
    (Int.emod_lt_of_pos n (by decide))
  have hmonth := month_day_bounds c.day_nonneg c.day_le
  dsimp only at hmonth
  simp only [dateOfDay, ← hc, c.year_eq, c.day_eq]
  generalize (5 * c.day + 2) / 153 = mp at hmonth ⊢
  generalize c.day - (153 * mp + 2) / 5 + 1 = d at hmonth ⊢
  generalize (if mp < 10 then mp + 3 else mp - 9) = m at hmonth ⊢
  obtain ⟨hm, hm', hd, hd', h30, hfeb, hleap⟩ := hmonth
  have hpos : 1 ≤ m.toNat ∧ m.toNat ≤ 12 ∧ 1 ≤ d.toNat := by omega
  refine ⟨hpos.1, hpos.2.1, hpos.2.2, ?_⟩
  unfold daysInMonth
  split
  · have hm2 : m = 2 := by omega
    rw [if_pos (by omega : m ≤ 2)]
    by_cases hd29 : d = 29
    · rw [if_pos (c.isLeapYear (hleap hm2 hd29) _)]
      omega
    · split <;> omega
  · split <;> omega

/-- The beginning of 1970. -/
def epoch : Timestamp :=
  ⟨1970, 1, 1, 0, 0, 0, 0⟩

theorem isValid_epoch : epoch.IsValid := by
  unfold IsValid
  decide

end Switchboard.Timestamp
