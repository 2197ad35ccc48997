import Mathlib.Algebra.Order.Ring.Nat

/-!
# The Gregorian calendar from 1970 on

Days are counted from the first of January 1970. A date is found by taking away whole
years and then whole months.
-/

namespace AiGateway.Library.Calendar

def isLeap (year : ℕ) : Bool := year % 4 == 0 && (year % 100 != 0 || year % 400 == 0)

def daysInYear (year : ℕ) : ℕ := if isLeap year then 366 else 365

def monthLengths (year : ℕ) : List ℕ :=
  [31, if isLeap year then 29 else 28, 31, 30, 31, 30, 31, 31, 30, 31, 30, 31]

/-- The year in which a day falls and its number there, from the first day of `year` on. -/
def yearOf : ℕ → ℕ → ℕ → ℕ × ℕ
  | 0, year, day => (year, day)
  | fuel + 1, year, day =>
    if day < daysInYear year then (year, day)
    else yearOf fuel (year + 1) (day - daysInYear year)

/-- How many months of the given lengths end before a day, and its number in its month. -/
def monthOf : List ℕ → ℕ → ℕ × ℕ
  | [], day => (0, day)
  | len :: lens, day =>
    if day < len then (0, day)
    else ((monthOf lens (day - len)).1 + 1, (monthOf lens (day - len)).2)

/-- `month` and `day` are counted from 1. -/
structure Date where
  year : ℕ
  month : ℕ
  day : ℕ
  deriving DecidableEq

def dateOf (n : ℕ) : Date :=
  let y := yearOf n 1970 n
  let m := monthOf (monthLengths y.1) y.2
  ⟨y.1, m.1 + 1, m.2 + 1⟩

def daysBefore (year : ℕ) : ℕ := ((List.range' 1970 (year - 1970)).map daysInYear).sum

def dayOf (date : Date) : ℕ :=
  daysBefore date.year + ((monthLengths date.year).take (date.month - 1)).sum + (date.day - 1)

theorem yearOf_sum (fuel year day : ℕ) :
    year ≤ (yearOf fuel year day).1 ∧
      ((List.range' year ((yearOf fuel year day).1 - year)).map daysInYear).sum +
        (yearOf fuel year day).2 = day := by
  induction fuel generalizing year day with
  | zero => simp [yearOf]
  | succ fuel ih =>
    unfold yearOf
    split
    · simp
    · rename_i hday
      obtain ⟨hle, hsum⟩ := ih (year + 1) (day - daysInYear year)
      refine ⟨Nat.le_of_succ_le hle, ?_⟩
      have hsucc : (yearOf fuel (year + 1) (day - daysInYear year)).1 - year =
          (yearOf fuel (year + 1) (day - daysInYear year)).1 - (year + 1) + 1 := by
        omega
      rw [hsucc, List.range'_succ, List.map_cons, List.sum_cons]
      omega

theorem monthOf_sum (lens : List ℕ) (day : ℕ) :
    (lens.take (monthOf lens day).1).sum + (monthOf lens day).2 = day := by
  induction lens generalizing day with
  | nil => exact Nat.zero_add day
  | cons len lens ih =>
    unfold monthOf
    split
    · exact Nat.zero_add day
    · rename_i hday
      have hsum := ih (day - len)
      rw [List.take_succ_cons, List.sum_cons]
      omega

theorem dayOf_dateOf (n : ℕ) : dayOf (dateOf n) = n := by
  have hyear := (yearOf_sum n 1970 n).2
  have hmonth := monthOf_sum (monthLengths (yearOf n 1970 n).1) (yearOf n 1970 n).2
  unfold dayOf dateOf daysBefore
  simp only [Nat.add_sub_cancel]
  omega

theorem dayOf_first_le (n : ℕ) : dayOf { dateOf n with day := 1 } ≤ n := by
  have hday := dayOf_dateOf n
  unfold dayOf at hday ⊢
  simp only
  omega

example : dateOf 20593 = ⟨2026, 5, 20⟩ := by decide

/-! ### From another first year on -/

/-- The date that is `n` days after the first of January of the year `start`. -/
def dateFrom (start n : ℕ) : Date :=
  let y := yearOf n start n
  let m := monthOf (monthLengths y.1) y.2
  ⟨y.1, m.1 + 1, m.2 + 1⟩

/-- The days from the first of January of `start` to that of `year`. -/
def yearDays (start year : ℕ) : ℕ := ((List.range' start (year - start)).map daysInYear).sum

def dayFrom (start : ℕ) (date : Date) : ℕ :=
  yearDays start date.year + ((monthLengths date.year).take (date.month - 1)).sum + (date.day - 1)

def Date.withDay (date : Date) (day : ℕ) : Date := { date with day := day }

structure Date.Valid (start : ℕ) (date : Date) : Prop where
  year : start ≤ date.year
  month : 1 ≤ date.month
  day : 1 ≤ date.day
  length : ∃ len, (monthLengths date.year)[date.month - 1]? = some len ∧ date.day ≤ len

theorem daysInYear_pos (year : ℕ) : 0 < daysInYear year := by
  unfold daysInYear
  split <;> omega

theorem monthLengths_sum (year : ℕ) : (monthLengths year).sum = daysInYear year := by
  unfold monthLengths daysInYear
  cases isLeap year <;> rfl

theorem yearOf_fuel {fuel fuel' year day : ℕ} (h : day ≤ fuel) (h' : day ≤ fuel') :
    yearOf fuel year day = yearOf fuel' year day := by
  induction fuel generalizing fuel' year day with
  | zero =>
    have hpos := daysInYear_pos year
    cases fuel' with
    | zero => rfl
    | succ fuel' => rw [yearOf, yearOf, if_pos (by omega)]
  | succ fuel ih =>
    have hpos := daysInYear_pos year
    cases fuel' with
    | zero => rw [yearOf, yearOf, if_pos (by omega)]
    | succ fuel' =>
      rw [yearOf, yearOf]
      split
      · rfl
      · exact ih (by omega) (by omega)

theorem yearOf_lt {fuel year day : ℕ} (h : day ≤ fuel) :
    (yearOf fuel year day).2 < daysInYear (yearOf fuel year day).1 := by
  induction fuel generalizing year day with
  | zero =>
    have hpos := daysInYear_pos year
    rw [yearOf]
    simp only
    omega
  | succ fuel ih =>
    have hpos := daysInYear_pos year
    rw [yearOf]
    split
    · assumption
    · exact ih (by omega)

theorem yearOf_mono (fuel year : ℕ) {day day' : ℕ} (h : day ≤ day') :
    (yearOf fuel year day).1 ≤ (yearOf fuel year day').1 := by
  induction fuel generalizing year day day' with
  | zero => exact le_refl year
  | succ fuel ih =>
    by_cases hday : day < daysInYear year
    · rw [yearOf, if_pos hday]
      exact (yearOf_sum (fuel + 1) year day').1
    · rw [yearOf, yearOf, if_neg hday, if_neg (by omega)]
      exact ih (year + 1) (by omega)

theorem yearDays_succ {start year : ℕ} (h : start < year) :
    yearDays start year = daysInYear start + yearDays (start + 1) year := by
  have hcount : year - start = year - (start + 1) + 1 := by omega
  unfold yearDays
  rw [hcount, List.range'_succ, List.map_cons, List.sum_cons]

theorem yearDays_self (year : ℕ) : yearDays year year = 0 := by
  unfold yearDays
  rw [Nat.sub_self]
  rfl

/-- A year and a day of it are found again. -/
theorem yearOf_yearDays {start year rest fuel : ℕ} (hyear : start ≤ year)
    (hrest : rest < daysInYear year) (hfuel : yearDays start year + rest ≤ fuel) :
    yearOf fuel start (yearDays start year + rest) = (year, rest) := by
  obtain ⟨k, hk⟩ := Nat.exists_eq_add_of_le hyear
  induction k generalizing start fuel with
  | zero =>
    have hsame : year = start := by omega
    rw [hsame] at hrest ⊢
    rw [yearDays_self, Nat.zero_add]
    cases fuel with
    | zero => rfl
    | succ fuel => rw [yearOf, if_pos hrest]
  | succ k ih =>
    have hpos := daysInYear_pos start
    rw [yearDays_succ (by omega)] at hfuel ⊢
    cases fuel with
    | zero => omega
    | succ fuel =>
      have hleft : daysInYear start + yearDays (start + 1) year + rest - daysInYear start =
          yearDays (start + 1) year + rest := by omega
      rw [yearOf, if_neg (by omega), hleft]
      exact ih (by omega) (by omega) (by omega)

theorem monthOf_lt {lens : List ℕ} {day : ℕ} (h : day < lens.sum) :
    ∃ len, lens[(monthOf lens day).1]? = some len ∧ (monthOf lens day).2 < len := by
  induction lens generalizing day with
  | nil => exact absurd h (Nat.not_lt_zero day)
  | cons len lens ih =>
    rw [monthOf]
    split
    · rename_i hday
      exact ⟨len, rfl, hday⟩
    · rw [List.sum_cons] at h
      exact ih (by omega)

theorem monthOf_take {lens : List ℕ} {m len day : ℕ} (hm : lens[m]? = some len) (hday : day < len) :
    monthOf lens ((lens.take m).sum + day) = (m, day) := by
  induction lens generalizing m with
  | nil => cases hm
  | cons first lens ih =>
    cases m with
    | zero =>
      rw [List.getElem?_cons_zero, Option.some_inj] at hm
      rw [List.take_zero, List.sum_nil, Nat.zero_add, monthOf, if_pos (by omega)]
    | succ m =>
      rw [List.getElem?_cons_succ] at hm
      have hleft : first + (lens.take m).sum + day - first = (lens.take m).sum + day := by omega
      rw [List.take_succ_cons, List.sum_cons, monthOf, if_neg (by omega), hleft, ih hm]

theorem sum_take_add_le {lens : List ℕ} {m len : ℕ} (hm : lens[m]? = some len) :
    (lens.take m).sum + len ≤ lens.sum := by
  induction lens generalizing m with
  | nil => cases hm
  | cons first lens ih =>
    cases m with
    | zero =>
      rw [List.getElem?_cons_zero, Option.some_inj] at hm
      rw [List.take_zero, List.sum_nil, List.sum_cons]
      omega
    | succ m =>
      have hrest := ih hm
      rw [List.take_succ_cons, List.sum_cons, List.sum_cons]
      omega

section
variable (start : ℕ)

theorem dateFrom_valid (n : ℕ) : (dateFrom start n).Valid start := by
  have hday : (yearOf n start n).2 < (monthLengths (yearOf n start n).1).sum := by
    rw [monthLengths_sum]
    exact yearOf_lt (le_refl n)
  obtain ⟨len, hlen, hlt⟩ := monthOf_lt hday
  exact
    { year := (yearOf_sum n start n).1
      month := Nat.succ_pos _
      day := Nat.succ_pos _
      length := ⟨len, hlen, hlt⟩ }

theorem dayFrom_dateFrom (n : ℕ) : dayFrom start (dateFrom start n) = n := by
  have hyear := (yearOf_sum n start n).2
  have hmonth := monthOf_sum (monthLengths (yearOf n start n).1) (yearOf n start n).2
  unfold dayFrom dateFrom yearDays
  simp only [Nat.add_sub_cancel]
  omega

variable {start}

/-- A date is the only one with its number. -/
theorem dateFrom_dayFrom {date : Date} (h : date.Valid start) :
    dateFrom start (dayFrom start date) = date := by
  obtain ⟨len, hlen, hday⟩ := h.length
  have hfirst := h.day
  have hmonth := h.month
  have hsum := sum_take_add_le hlen
  rw [monthLengths_sum] at hsum
  have hyear : yearOf (dayFrom start date) start (dayFrom start date) =
      (date.year, ((monthLengths date.year).take (date.month - 1)).sum + (date.day - 1)) := by
    unfold dayFrom
    rw [Nat.add_assoc]
    exact yearOf_yearDays h.year (by omega) (le_refl _)
  unfold dateFrom
  simp only [hyear]
  rw [monthOf_take hlen (by omega)]
  simp only
  rw [Nat.sub_add_cancel hmonth, Nat.sub_add_cancel hfirst]

theorem year_mono {m n : ℕ} (h : m ≤ n) : (dateFrom start m).year ≤ (dateFrom start n).year := by
  show (yearOf m start m).1 ≤ (yearOf n start n).1
  rw [yearOf_fuel (le_refl m) h]
  exact yearOf_mono n start h

theorem dayFrom_withDay (date : Date) (day : ℕ) :
    dayFrom start (date.withDay day) = dayFrom start (date.withDay 1) + (day - 1) := rfl

theorem withDay_self (date : Date) : date.withDay date.day = date := rfl

theorem Date.Valid.withDay {date : Date} (h : date.Valid start) {day : ℕ} (hday : 1 ≤ day)
    (hle : day ≤ date.day) : (date.withDay day).Valid start := by
  obtain ⟨len, hlen, hlast⟩ := h.length
  exact ⟨h.year, h.month, hday, len, hlen, Nat.le_trans hle hlast⟩

theorem first_le (n : ℕ) : dayFrom start ((dateFrom start n).withDay 1) ≤ n := by
  have hn := @dayFrom_withDay start (dateFrom start n) (dateFrom start n).day
  rw [withDay_self, dayFrom_dateFrom] at hn
  omega

/-- From the first of the month of a day to that day no other month begins. -/
theorem first_greatest {m n : ℕ} (hfirst : (dateFrom start m).day = 1) (hle : m ≤ n) :
    m ≤ dayFrom start ((dateFrom start n).withDay 1) := by
  have hvalid := dateFrom_valid start n
  have hn := @dayFrom_withDay start (dateFrom start n) (dateFrom start n).day
  rw [withDay_self, dayFrom_dateFrom] at hn
  by_contra hlater
  have hm : dayFrom start ((dateFrom start n).withDay
      (m - dayFrom start ((dateFrom start n).withDay 1) + 1)) = m := by
    rw [dayFrom_withDay]
    omega
  have hdate := dateFrom_dayFrom (hvalid.withDay
    (Nat.le_add_left 1 (m - dayFrom start ((dateFrom start n).withDay 1))) (by omega))
  rw [hm] at hdate
  rw [hdate] at hfirst
  have hday : m - dayFrom start ((dateFrom start n).withDay 1) + 1 = 1 := hfirst
  omega

end

end AiGateway.Library.Calendar
