import AiGateway.Api.Budget
import Mathlib.Order.Bounds.Basic
import Mathlib.Algebra.Order.Ring.Int

/-!
# The start of a budget period (`gateway-api/src/budget.rs:204-227`)

`period_start_for` over the calendar: the date of the instant, the date that the period begins
with, and midnight of that. Days are counted from the first of January of the year 1, which was
a Monday; the first of January 1970 is day 719162.
-/

namespace AiGateway.Api
open AiGateway.Library.Calendar

def epochDay : ℕ := 719162

/-- `NaiveDate::MAX` is the last day of this year. -/
def maxYear : ℕ := 262142

/-- The day of an instant in milliseconds. -/
def dayNumber (now : ℤ) : ℕ := (now / dayMs + epochDay).toNat

def midnight (day : ℕ) : ℤ := ((day : ℤ) - epochDay) * dayMs

/-- `Utc.with_ymd_and_hms(year, month, day, 0, 0, 0)`, in milliseconds; the `unwrap` of `none`
panics. -/
def withYmd (date : Date) : Option ℤ :=
  match (monthLengths date.year)[date.month - 1]? with
  | some len =>
    if date.year ≤ maxYear ∧ 1 ≤ date.month ∧ 1 ≤ date.day ∧ date.day ≤ len then
      some (midnight (dayFrom 1 date))
    else none
  | none => none

def utcPeriodStart (now : ℤ) (period : String) : Option ℤ :=
  let today := dateFrom 1 (dayNumber now)
  if period = "daily" then withYmd today
  else if period = "weekly" then
    let monday := dateFrom 1 (dayNumber now - dayNumber now % 7)
    withYmd monday
  else withYmd (today.withDay 1)

/-- An instant that chrono has, from the year 1 on. -/
def InCalendar (now : ℤ) : Prop :=
  midnight 0 ≤ now ∧ (dateFrom 1 (dayNumber now)).year ≤ maxYear

/-- A period begins with this day. -/
def FirstDay (period : String) (day : ℕ) : Prop :=
  if period = "daily" then True
  else if period = "weekly" then day % 7 = 0
  else (dateFrom 1 day).day = 1

def PeriodBoundary (period : String) (t : ℤ) : Prop := ∃ day, FirstDay period day ∧ t = midnight day

/-! ### The day that the period begins with -/

def periodDay (period : String) (day : ℕ) : ℕ :=
  if period = "daily" then day
  else if period = "weekly" then day - day % 7
  else dayFrom 1 ((dateFrom 1 day).withDay 1)

theorem periodDay_le (period : String) (day : ℕ) : periodDay period day ≤ day := by
  unfold periodDay
  split
  · exact le_refl day
  · split
    · exact Nat.sub_le day (day % 7)
    · exact first_le day

theorem firstDay_periodDay (period : String) (day : ℕ) : FirstDay period (periodDay period day) := by
  unfold FirstDay periodDay
  split
  · trivial
  · split
    · omega
    · have hvalid := dateFrom_valid 1 day
      rw [dateFrom_dayFrom (hvalid.withDay (le_refl 1) hvalid.day)]
      rfl

theorem le_periodDay {period : String} {first day : ℕ} (hfirst : FirstDay period first)
    (hle : first ≤ day) : first ≤ periodDay period day := by
  unfold FirstDay at hfirst
  unfold periodDay
  split at hfirst
  · rw [if_pos ‹_›]
    exact hle
  · rw [if_neg ‹_›]
    split at hfirst
    · rw [if_pos ‹_›]
      omega
    · rw [if_neg ‹_›]
      exact first_greatest hfirst hle

theorem withYmd_valid {date : Date} (h : date.Valid 1) (hyear : date.year ≤ maxYear) :
    withYmd date = some (midnight (dayFrom 1 date)) := by
  obtain ⟨len, hlen, hday⟩ := h.length
  unfold withYmd
  rw [hlen]
  exact if_pos ⟨hyear, h.month, h.day, hday⟩

/-- No `unwrap` panics. -/
theorem utcPeriodStart_eq {now : ℤ} (h : InCalendar now) (period : String) :
    utcPeriodStart now period = some (midnight (periodDay period (dayNumber now))) := by
  have htoday := dateFrom_valid 1 (dayNumber now)
  unfold utcPeriodStart periodDay
  simp only
  split
  · rw [withYmd_valid htoday h.2, dayFrom_dateFrom]
  · split
    · rw [withYmd_valid (dateFrom_valid 1 _)
        ((year_mono (Nat.sub_le _ _)).trans h.2), dayFrom_dateFrom]
    · exact withYmd_valid (htoday.withDay (le_refl 1) htoday.day) h.2

/-! ### Days and instants -/

theorem midnight_le_iff {now : ℤ} (h : midnight 0 ≤ now) (day : ℕ) :
    midnight day ≤ now ↔ day ≤ dayNumber now := by
  unfold midnight at h ⊢
  unfold dayNumber
  simp only [dayMs, epochDay] at h ⊢
  omega

theorem dayNumber_midnight (day : ℕ) : dayNumber (midnight day) = day := by
  unfold dayNumber midnight
  simp only [dayMs, epochDay]
  omega

theorem midnight_mono {day day' : ℕ} (h : day ≤ day') : midnight day ≤ midnight day' := by
  unfold midnight
  simp only [dayMs, epochDay]
  omega

theorem inCalendar_start {now : ℤ} (h : InCalendar now) (period : String) :
    InCalendar (midnight (periodDay period (dayNumber now))) := by
  refine ⟨midnight_mono (Nat.zero_le _), ?_⟩
  rw [dayNumber_midnight]
  exact (year_mono (periodDay_le period _)).trans h.2

theorem start_greatest {now : ℤ} (h : InCalendar now) (period : String) :
    IsGreatest {t | PeriodBoundary period t ∧ t ≤ now}
      (midnight (periodDay period (dayNumber now))) := by
  constructor
  · exact ⟨⟨_, firstDay_periodDay period _, rfl⟩,
      (midnight_le_iff h.1 _).mpr (periodDay_le period _)⟩
  · intro t ht
    obtain ⟨⟨day, hday, htime⟩, hle⟩ := ht
    rw [htime] at hle ⊢
    exact midnight_mono (le_periodDay hday ((midnight_le_iff h.1 day).mp hle))

/-! ### The greatest boundary -/

section
variable {α : Type*} [LinearOrder α] {B : α → Prop} {a b fa fb : α}

theorem greatest_mono (ha : IsGreatest {t | B t ∧ t ≤ a} fa) (hb : IsGreatest {t | B t ∧ t ≤ b} fb)
    (hab : a ≤ b) : fa ≤ fb :=
  hb.2 ⟨ha.1.1, ha.1.2.trans hab⟩

/-- Two instants have the same last boundary if none lies between them. -/
theorem greatest_eq_iff (ha : IsGreatest {t | B t ∧ t ≤ a} fa)
    (hb : IsGreatest {t | B t ∧ t ≤ b} fb) (hab : a ≤ b) :
    fa = fb ↔ ¬∃ t, B t ∧ a < t ∧ t ≤ b := by
  constructor
  · intro heq hbetween
    obtain ⟨t, hboundary, hlower, hupper⟩ := hbetween
    have hle : t ≤ fb := hb.2 ⟨hboundary, hupper⟩
    rw [← heq] at hle
    exact absurd (hle.trans ha.1.2) (not_le_of_gt hlower)
  · intro hnone
    have hbefore : fb ≤ a := le_of_not_gt fun hlater => hnone ⟨fb, hb.1.1, hlater, hb.1.2⟩
    exact le_antisymm (greatest_mono ha hb hab) (ha.2 ⟨hb.1.1, hbefore⟩)

end

/-- The start of a period is the floor to its boundaries. -/
theorem period_start_floor {now : ℤ} (h : InCalendar now) (period : String) :
    ∃ start, utcPeriodStart now period = some start ∧
      IsGreatest {t | PeriodBoundary period t ∧ t ≤ now} start ∧
      utcPeriodStart start period = some start ∧
      ∀ later, InCalendar later → now ≤ later →
        ∃ start', utcPeriodStart later period = some start' ∧ start ≤ start' ∧
          (start = start' ↔ ¬∃ t, PeriodBoundary period t ∧ now < t ∧ t ≤ later) := by
  have hgreatest := start_greatest h period
  refine ⟨_, utcPeriodStart_eq h period, hgreatest, ?_, ?_⟩
  · rw [utcPeriodStart_eq (inCalendar_start h period), dayNumber_midnight]
    have hself := le_periodDay (firstDay_periodDay period (dayNumber now)) (le_refl _)
    rw [le_antisymm (periodDay_le period _) hself]
  · intro later hlater hle
    have hgreatest' := start_greatest hlater period
    exact ⟨_, utcPeriodStart_eq hlater period, greatest_mono hgreatest hgreatest' hle,
      greatest_eq_iff hgreatest hgreatest' hle⟩

/-- The week of the first of March 2024 began before a leap day. -/
theorem period_start_floor_march :
    InCalendar 1709294400000 ∧ ∃ start, utcPeriodStart 1709294400000 "weekly" = some start ∧
      IsGreatest {t | PeriodBoundary "weekly" t ∧ t ≤ 1709294400000} start ∧
      utcPeriodStart start "weekly" = some start ∧
      ∀ later, InCalendar later → 1709294400000 ≤ later →
        ∃ start', utcPeriodStart later "weekly" = some start' ∧ start ≤ start' ∧
          (start = start' ↔ ¬∃ t, PeriodBoundary "weekly" t ∧ 1709294400000 < t ∧ t ≤ later) := by
  have h : InCalendar 1709294400000 := by
    unfold InCalendar
    decide +kernel
  exact ⟨h, period_start_floor h "weekly"⟩

example : utcPeriodStart 1709294400000 "weekly" = some 1708905600000 := by decide +kernel

/-! ### The starts that the budgets use -/

theorem yearDays_add {start mid stop : ℕ} (hmid : start ≤ mid) (hstop : mid ≤ stop) :
    yearDays start stop = yearDays start mid + yearDays mid stop := by
  obtain ⟨k, hk⟩ := Nat.exists_eq_add_of_le hmid
  induction k generalizing start with
  | zero =>
    have hsame : mid = start := by omega
    rw [hsame, yearDays_self, Nat.zero_add]
  | succ k ih =>
    rw [yearDays_succ (by omega), yearDays_succ (show start < mid by omega), ih (by omega) (by omega),
      Nat.add_assoc]

theorem yearDays_epoch : yearDays 1 1970 = epochDay := by decide +kernel

theorem dayFrom_epoch {date : Date} (h : 1970 ≤ date.year) :
    dayFrom 1 date = epochDay + dayOf date := by
  unfold dayFrom
  rw [yearDays_add (show 1 ≤ 1970 by omega) h, yearDays_epoch, Nat.add_assoc, Nat.add_assoc,
    ← Nat.add_assoc (yearDays 1970 date.year)]
  rfl

theorem dateFrom_epoch (day : ℕ) : dateFrom 1 (epochDay + day) = dateOf day := by
  have hvalid := dateFrom_valid 1970 day
  have hday : dayFrom 1 (dateOf day) = epochDay + day := by
    rw [dayFrom_epoch (show 1970 ≤ (dateOf day).year from hvalid.year), dayOf_dateOf]
  rw [← hday]
  exact dateFrom_dayFrom ⟨Nat.le_trans (by omega) hvalid.year, hvalid.month, hvalid.day,
    hvalid.length⟩

theorem dayNumber_natCast (now : ℕ) : dayNumber (now : ℤ) = epochDay + now / dayMs := by
  unfold dayNumber
  simp only [dayMs, epochDay]
  omega

/-- The start that `record_cost` and `check_block` use. -/
theorem periodStartFor_eq (now : ℕ) (period : String) :
    periodStartFor now period = midnight (periodDay period (dayNumber now)) := by
  rw [dayNumber_natCast]
  unfold periodStartFor periodDay midnight
  simp only
  split
  · simp only [epochDay, dayMs]
    omega
  · split
    · simp only [epochDay, dayMs]
      omega
    · have hfirst : dayFrom 1 ((dateOf (now / dayMs)).withDay 1) =
          epochDay + dayOf { dateOf (now / dayMs) with day := 1 } :=
        dayFrom_epoch (dateFrom_valid 1970 (now / dayMs)).year
      rw [dateFrom_epoch, hfirst]
      simp only [epochDay, dayMs]
      omega

end AiGateway.Api
