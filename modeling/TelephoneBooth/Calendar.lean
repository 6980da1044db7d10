import Mathlib.Data.Int.Init
import Mathlib.Logic.Function.Iterate

/-! The proleptic Gregorian calendar and the clock: the day after a day, the second after a
second, and the numbers of both. -/
namespace TelephoneBooth.Calendar

def leap (year : Int) : Bool := year % 4 = 0 && (year % 100 ≠ 0 || year % 400 = 0)

def monthDays (year : Int) : Nat → Nat
  | 2 => if leap year then 29 else 28
  | 4 | 6 | 9 | 11 => 30
  | _ => 31

structure Date where
  year : Int
  month : Nat
  day : Nat
  months : 1 ≤ month ∧ month ≤ 12
  days : 1 ≤ day ∧ day ≤ monthDays year month

theorem monthDaysLeast (year : Int) (month : Nat) : 28 ≤ monthDays year month := by
  unfold monthDays
  split
  · split <;> decide
  all_goals decide

theorem monthDaysMost (year : Int) (month : Nat) : monthDays year month ≤ 31 := by
  unfold monthDays
  split
  · split <;> decide
  all_goals decide

def newYear (year : Int) : Date :=
  ⟨year,1,1,by decide,Nat.le_refl 1,Nat.le_trans (by decide) (monthDaysLeast _ _)⟩

def next (date : Date) : Date :=
  if more : date.day < monthDays date.year date.month then
    { date with day := date.day + 1, days := ⟨by omega,more⟩ }
  else if months : date.month < 12 then
    { date with
      month := date.month + 1
      day := 1
      months := ⟨by omega,months⟩
      days := ⟨Nat.le_refl 1,Nat.le_trans (by decide) (monthDaysLeast _ _)⟩ }
  else newYear (date.year + 1)

def daysBeforeYear (year : Int) : Int :=
  365 * (year - 1) + (year - 1) / 4 - (year - 1) / 100 + (year - 1) / 400

def daysBeforeMonth (year : Int) : Nat → Int
  | 0 | 1 => 0
  | month + 2 => daysBeforeMonth year (month + 1) + monthDays year (month + 1)

def number (date : Date) : Int :=
  daysBeforeYear date.year + daysBeforeMonth date.year date.month + (date.day - 1)

theorem leapIff (year : Int) :
    leap year = true ↔ year % 4 = 0 ∧ (year % 100 ≠ 0 ∨ year % 400 = 0) := by
  simp [leap]

theorem yearLength (year : Int) :
    daysBeforeYear (year + 1) = daysBeforeYear year + if leap year then 366 else 365 := by
  unfold daysBeforeYear
  split
  · rename_i is
    rw [leapIff] at is
    omega
  · rename_i common
    rw [leapIff] at common
    omega

theorem monthNext (year : Int) {month : Nat} (first : 1 ≤ month) :
    daysBeforeMonth year (month + 1) = daysBeforeMonth year month + monthDays year month := by
  obtain ⟨month,rfl⟩ := Nat.exists_eq_add_of_le' first
  rfl

theorem december (year : Int) :
    daysBeforeMonth year 12 + 31 = if leap year then 366 else 365 := by
  simp only [daysBeforeMonth,monthDays]
  split <;> rfl

theorem numberNewYear (year : Int) : number (newYear year) = daysBeforeYear year := by
  simp [number,newYear,daysBeforeMonth]

theorem numberNext (date : Date) : number (next date) = number date + 1 := by
  unfold next
  split
  · simp only [number]
    omega
  · rename_i last
    have lastDay : date.day = monthDays date.year date.month := by
      have := date.days.2
      omega
    split
    · simp only [number,monthNext date.year date.months.1,lastDay]
      omega
    · rename_i lastMonth
      have twelve : date.month = 12 := by
        have := date.months.2
        omega
      have full := december date.year
      have day : date.day = 31 := by rw [lastDay,twelve]; rfl
      rw [numberNewYear,yearLength]
      simp only [number,twelve,day]
      omega

def Before (a b : Date) : Prop :=
  a.year < b.year ∨ a.year = b.year ∧ (a.month < b.month ∨ a.month = b.month ∧ a.day < b.day)

theorem beforeTrans {a b c : Date} (first : Before a b) (second : Before b c) : Before a c := by
  unfold Before at *
  omega

theorem beforeNext (date : Date) : Before date (next date) := by
  unfold next Before
  split
  · simp
  · split
    · simp
    · exact .inl (Int.lt_succ _)

theorem daysBeforeMonthNonneg (year : Int) (month : Nat) : 0 ≤ daysBeforeMonth year month := by
  induction month using daysBeforeMonth.induct with
  | case1 => exact Int.le_refl 0
  | case2 => exact Int.le_refl 0
  | case3 month ih => exact Int.add_nonneg ih (Int.natCast_nonneg _)

theorem daysBeforeYearMono {a b : Int} (order : a ≤ b) : daysBeforeYear a ≤ daysBeforeYear b := by
  unfold daysBeforeYear
  omega

theorem yearFirst (date : Date) : daysBeforeYear date.year ≤ number date := by
  have months := daysBeforeMonthNonneg date.year date.month
  have days := date.days.1
  unfold number
  omega

section Clock

structure Moment where
  date : Date
  hour : Nat
  minute : Nat
  second : Nat
  clock : hour < 24 ∧ minute < 60 ∧ second < 60

def midnight (date : Date) : Moment := ⟨date,0,0,0,by decide⟩

def tick (moment : Moment) : Moment :=
  if seconds : moment.second + 1 < 60 then
    { moment with second := moment.second + 1, clock := ⟨moment.clock.1,moment.clock.2.1,seconds⟩ }
  else if minutes : moment.minute + 1 < 60 then
    { moment with
      minute := moment.minute + 1
      second := 0
      clock := ⟨moment.clock.1,minutes,by decide⟩ }
  else if hours : moment.hour + 1 < 24 then
    { moment with
      hour := moment.hour + 1
      minute := 0
      second := 0
      clock := ⟨hours,by decide⟩ }
  else midnight (next moment.date)

def later (moment : Moment) (n : Nat) : Moment := tick^[n] moment

def seconds (moment : Moment) : Int :=
  number moment.date * 86400 + moment.hour * 3600 + moment.minute * 60 + moment.second

theorem secondsMidnight (date : Date) : seconds (midnight date) = number date * 86400 := by
  simp [seconds,midnight]

theorem secondsTick (moment : Moment) : seconds (tick moment) = seconds moment + 1 := by
  have clock := moment.clock
  unfold tick
  split
  · simp only [seconds]
    omega
  · split
    · simp only [seconds]
      omega
    · split
      · simp only [seconds]
        omega
      · rw [secondsMidnight,numberNext,seconds]
        omega

theorem secondsLater (moment : Moment) (n : Nat) :
    seconds (later moment n) = seconds moment + n := by
  induction n with
  | zero => exact (Int.add_zero _).symm
  | succ n ih =>
    rw [later,Function.iterate_succ_apply',secondsTick,← later,ih]
    omega

def Earlier (a b : Moment) : Prop :=
  Before a.date b.date ∨ a.date = b.date ∧ (a.hour < b.hour ∨ a.hour = b.hour ∧
    (a.minute < b.minute ∨ a.minute = b.minute ∧ a.second < b.second))

theorem earlierTrans {a b c : Moment} (first : Earlier a b) (second : Earlier b c) :
    Earlier a c := by
  rcases first with day | ⟨day,clock⟩
  · rcases second with more | ⟨more,_⟩
    · exact .inl (beforeTrans day more)
    · exact .inl (more ▸ day)
  · rcases second with more | ⟨more,clock'⟩
    · exact .inl (day ▸ more)
    · refine .inr ⟨day.trans more,?_⟩
      omega

theorem earlierTick (moment : Moment) : Earlier moment (tick moment) := by
  unfold tick Earlier
  split
  · exact .inr ⟨rfl,.inr ⟨rfl,.inr ⟨rfl,Nat.lt_succ_self _⟩⟩⟩
  · split
    · exact .inr ⟨rfl,.inr ⟨rfl,.inl (Nat.lt_succ_self _)⟩⟩
    · split
      · exact .inr ⟨rfl,.inl (Nat.lt_succ_self _)⟩
      · exact .inl (beforeNext _)

theorem earlierLater (moment : Moment) {m n : Nat} (order : m < n) :
    Earlier (later moment m) (later moment n) := by
  induction n with
  | zero => cases order
  | succ n ih =>
    have last : Earlier (later moment n) (later moment (n + 1)) := by
      rw [later,later,Function.iterate_succ_apply']
      exact earlierTick _
    rcases Nat.lt_succ_iff_lt_or_eq.mp order with earlier | rfl
    · exact earlierTrans (ih earlier) last
    · exact last

theorem yearLater (moment : Moment) (n : Nat) : moment.date.year ≤ (later moment n).date.year := by
  rcases Nat.eq_zero_or_pos n with rfl | positive
  · exact Int.le_refl _
  · have earlier : Earlier moment (later moment n) := earlierLater moment positive
    rcases earlier with before | ⟨same,_⟩
    · unfold Before at before
      omega
    · exact Int.le_of_eq (congrArg Date.year same)

end Clock

end TelephoneBooth.Calendar
