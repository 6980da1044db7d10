import TelephoneBooth.BatchNames
import TelephoneBooth.Calendar

/-! `format_unix_seconds` and `civil_from_days`. -/
namespace TelephoneBooth
open BatchNames (padded paddedDigits paddedValue)

/- What overflows an `i64` panics. -/
def checked (x : Int) : Option Int :=
  if -9223372036854775808 ≤ x ∧ x ≤ 9223372036854775807 then some x else none

def add64 (a b : Int) : Option Int := checked (a + b)
def sub64 (a b : Int) : Option Int := checked (a - b)
def mul64 (a b : Int) : Option Int := checked (a * b)
def div64 (a b : Int) : Option Int := checked (a.tdiv b)

def i64TryFrom (n : Nat) : Option Int := checked n

def i32TryFrom (x : Int) : Option Int :=
  if -2147483648 ≤ x ∧ x ≤ 2147483647 then some x else none

def u32TryFrom (x : Int) : Option Nat := if 0 ≤ x ∧ x ≤ 4294967295 then some x.toNat else none

def civilParts (daysSinceEpoch : Nat) : Option (Int × Int × Int) := do
  let z ← add64 ((i64TryFrom daysSinceEpoch).getD 9223372036854775807) 719468
  let era ← div64 (← if z ≥ 0 then pure z else sub64 z 146096) 146097
  let doe ← sub64 z (← mul64 era 146097)
  let leaps ← sub64 (← add64 (← sub64 doe (← div64 doe 1460)) (← div64 doe 36524)) (← div64 doe 146096)
  let yoe ← div64 leaps 365
  let y ← add64 yoe (← mul64 era 400)
  let before ← sub64 (← add64 (← mul64 365 yoe) (← div64 yoe 4)) (← div64 yoe 100)
  let doy ← sub64 doe before
  let mp ← div64 (← add64 (← mul64 5 doy) 2) 153
  let d ← add64 (← sub64 doy (← div64 (← add64 (← mul64 153 mp) 2) 5)) 1
  let m ← add64 mp (if mp < 10 then 3 else -9)
  let year ← add64 y (if m ≤ 2 then 1 else 0)
  return (year,m,d)

def civilFromDays (daysSinceEpoch : Nat) : Option (Int × Nat × Nat) :=
  (civilParts daysSinceEpoch).map fun (year,m,d) =>
    ((i32TryFrom year).getD 2147483647,(u32TryFrom m).getD 12,(u32TryFrom d).getD 31)

/- `{n:0width}` of a signed number. -/
def paddedInt (width : Nat) : Int → Name
  | .ofNat n => padded width n
  | .negSucc n => '-' :: padded (width - 1) (n + 1)

def dateTime (year : Name) (month day hour minute second : Nat) : Name :=
  year ++ '-' :: (padded 2 month ++ '-' :: (padded 2 day ++ 'T' :: (padded 2 hour ++
    ':' :: (padded 2 minute ++ ':' :: (padded 2 second ++ ['Z'])))))

def formatUnixSeconds (seconds : Nat) : Option Name :=
  let days := seconds / 86400
  let secondsOfDay := seconds % 86400
  let hour := secondsOfDay / 3600
  let minute := secondsOfDay % 3600 / 60
  let second := secondsOfDay % 60
  (civilFromDays days).map fun (year,month,day) =>
    dateTime (paddedInt 4 year) month day hour minute second

section March
open Calendar

/- A date in a year that begins with March: the year, the month from 0, the day from 0. -/
def marchYear (date : Date) : Int := if date.month ≤ 2 then date.year - 1 else date.year

def marchMonth (date : Date) : Int := if date.month ≤ 2 then date.month + 9 else date.month - 3

def marchDay (date : Date) : Int := (153 * marchMonth date + 2) / 5 + (date.day - 1)

theorem monthCases (date : Date) : date.month = 1 ∨ date.month = 2 ∨ date.month = 3 ∨ date.month = 4 ∨
    date.month = 5 ∨ date.month = 6 ∨ date.month = 7 ∨ date.month = 8 ∨ date.month = 9 ∨
    date.month = 10 ∨ date.month = 11 ∨ date.month = 12 := by
  have := date.months
  omega

theorem marchNumber (date : Date) : number date = 365 * marchYear date + marchYear date / 4 -
    marchYear date / 100 + marchYear date / 400 + marchDay date - 306 := by
  rcases monthCases date with m | m | m | m | m | m | m | m | m | m | m | m
  all_goals
    simp only [number,marchDay,marchMonth,marchYear,daysBeforeYear,m,daysBeforeMonth,monthDays]
    cases is : leap date.year with
    | true =>
      rw [leapIff] at is
      simp
      omega
    | false =>
      have common : ¬ leap date.year = true := by simp [is]
      rw [leapIff] at common
      simp
      omega

theorem marchBounds (date : Date) : (5 * marchDay date + 2) / 153 = marchMonth date ∧
    0 ≤ marchDay date ∧ marchDay date ≤ 365 ∧
    (marchDay date = 365 → leap (marchYear date + 1) = true) := by
  have days := date.days
  rcases monthCases date with m | m | m | m | m | m | m | m | m | m | m | m
  all_goals
    rw [m] at days
    simp only [monthDays] at days
    simp only [marchDay,marchMonth,marchYear,m]
  case inr.inl =>
    cases is : leap date.year with
    | true =>
      simp [is] at days ⊢
      omega
    | false =>
      simp [is] at days ⊢
      omega
  all_goals
    simp
    omega

/- The year of a day of the era that lies `c` centuries, `q` cycles of four years and `s` years
into it: the three corrections leave the leap days in their years. -/
theorem yearOfEra {c q s doy doe : Int} (century : 0 ≤ c ∧ c ≤ 3) (cycle : 0 ≤ q ∧ q ≤ 24)
    (year : 0 ≤ s ∧ s ≤ 3) (day : 0 ≤ doy ∧ doy ≤ 365)
    (leapDay : doy = 365 → s = 3 ∧ (q = 24 → c = 3))
    (doeIs : doe = 36524 * c + 1461 * q + 365 * s + doy) : doe ≤ 146096 ∧
    (doe - doe / 1460 + doe / 36524 - doe / 146096) / 365 = 100 * c + 4 * q + s := by
  have before : doe ≤ 146096 ∧ (doe < 36524 * (c + 1) ∨ doe = 146096) := by
    rcases Int.lt_or_eq_of_le day.2 with less | last
    · omega
    · have := leapDay last
      by_cases twentyFour : q = 24
      · have := this.2 twentyFour
        omega
      · omega
  refine ⟨before.1,?_⟩
  -- on the last day of the era each correction is one more than on the day before
  rcases before.2 with less | last
  · have centuries : doe / 36524 = c := by omega
    have eras : doe / 146096 = 0 := by omega
    have cycles : doe / 1460 = 25 * c + q + (24 * c + q + 365 * s + doy) / 1460 := by omega
    rw [centuries,eras,cycles]
    omega
  · have : c = 3 ∧ q = 24 ∧ s = 3 := by omega
    rw [last]
    omega

theorem yearSplit (y : Int) : ∃ e c q s, y = 400 * e + 100 * c + 4 * q + s ∧
    y / 400 = e ∧ y % 400 = 100 * c + 4 * q + s ∧ (0 ≤ c ∧ c ≤ 3) ∧ (0 ≤ q ∧ q ≤ 24) ∧
    (0 ≤ s ∧ s ≤ 3) :=
  ⟨y / 400,y % 400 / 100,y % 100 / 4,y % 4,by omega,rfl,by omega,by omega,by omega,by omega⟩

theorem marchEra (date : Date) {doe : Int} (doeIs : doe = 365 * (marchYear date % 400) +
      marchYear date % 400 / 4 - marchYear date % 400 / 100 + marchDay date) :
    0 ≤ doe ∧ doe ≤ 146096 ∧
      (doe - doe / 1460 + doe / 36524 - doe / 146096) / 365 = marchYear date % 400 ∧
      number date + 306 = marchYear date / 400 * 146097 + doe := by
  obtain ⟨_,low,high,leapDay⟩ := marchBounds date
  have days := marchNumber date
  rw [leapIff] at leapDay
  obtain ⟨e,c,q,s,year,era,rest,century,cycle,years⟩ := yearSplit (marchYear date)
  rw [rest] at doeIs ⊢
  rw [year] at leapDay days
  rw [era]
  have exact : doe = 36524 * c + 1461 * q + 365 * s + marchDay date := by
    have cycles : (100 * c + 4 * q + s) / 4 = 25 * c + q := by omega
    have centuries : (100 * c + 4 * q + s) / 100 = c := by omega
    omega
  have lastDay : marchDay date = 365 → s = 3 ∧ (q = 24 → c = 3) := by
    intro full
    have := leapDay full
    omega
  have found := yearOfEra century cycle years ⟨low,high⟩ lastDay exact
  have total : number date + 306 = e * 146097 + doe := by
    have cycles : (400 * e + 100 * c + 4 * q + s) / 4 = 100 * e + 25 * c + q := by omega
    have centuries : (400 * e + 100 * c + 4 * q + s) / 100 = 4 * e + c := by omega
    have eras : (400 * e + 100 * c + 4 * q + s) / 400 = e := by omega
    omega
  exact ⟨by omega,found.1,found.2,total⟩

theorem checkedIs {x y : Int} (same : x = y)
    (fits : -9223372036854775808 ≤ y ∧ y ≤ 9223372036854775807) : checked x = some y := by
  rw [same,checked,if_pos fits]

theorem divIs {a b y : Int} (positive : 0 ≤ a) (same : a / b = y)
    (fits : -9223372036854775808 ≤ y ∧ y ≤ 9223372036854775807) : div64 a b = some y :=
  checkedIs ((Int.tdiv_eq_ediv_of_nonneg positive).trans same) fits

theorem eraSteps {α} {days : Nat} {era doe : Int} (k : Int → Int → Option α)
    (z : (days : Int) + 719468 = era * 146097 + doe) (eras : 0 ≤ era ∧ era ≤ 24)
    (low : 0 ≤ doe) (high : doe ≤ 146096) :
    (do
      let z ← add64 ((i64TryFrom days).getD 9223372036854775807) 719468
      let era ← div64 (← if z ≥ 0 then pure z else sub64 z 146096) 146097
      let doe ← sub64 z (← mul64 era 146097)
      k era doe) = k era doe := by
  have whole : i64TryFrom days = some (days : Int) := checkedIs rfl (by omega)
  have zStep : add64 days 719468 = some (era * 146097 + doe) := checkedIs z (by omega)
  have eraStep : div64 (era * 146097 + doe) 146097 = some era :=
    divIs (by omega) (by omega) (by omega)
  have eraDays : mul64 era 146097 = some (era * 146097) := checkedIs rfl (by omega)
  have doeStep : sub64 (era * 146097 + doe) (era * 146097) = some doe :=
    checkedIs (by omega) (by omega)
  have positive : era * 146097 + doe ≥ 0 := by omega
  simp only [whole,Option.getD_some,zStep,Option.bind_eq_bind,Option.bind_some,if_pos positive,
    Option.pure_def,eraStep,eraDays,doeStep]

theorem yearSteps {α} {doe yoe era y : Int} (k : Int → Int → Option α)
    (low : 0 ≤ doe) (high : doe ≤ 146096)
    (year : (doe - doe / 1460 + doe / 36524 - doe / 146096) / 365 = yoe)
    (eras : 0 ≤ era ∧ era ≤ 24) (whole : yoe + era * 400 = y) :
    (do
      let leaps ← sub64 (← add64 (← sub64 doe (← div64 doe 1460)) (← div64 doe 36524))
        (← div64 doe 146096)
      let yoe ← div64 leaps 365
      let y ← add64 yoe (← mul64 era 400)
      k yoe y) = k yoe y := by
  have four : div64 doe 1460 = some (doe / 1460) := divIs low rfl (by omega)
  have hundred : div64 doe 36524 = some (doe / 36524) := divIs low rfl (by omega)
  have allEras : div64 doe 146096 = some (doe / 146096) := divIs low rfl (by omega)
  have lessFour : sub64 doe (doe / 1460) = some (doe - doe / 1460) := checkedIs rfl (by omega)
  have withHundred : add64 (doe - doe / 1460) (doe / 36524) =
      some (doe - doe / 1460 + doe / 36524) := checkedIs rfl (by omega)
  have lessEra : sub64 (doe - doe / 1460 + doe / 36524) (doe / 146096) =
      some (doe - doe / 1460 + doe / 36524 - doe / 146096) := checkedIs rfl (by omega)
  have yoeStep : div64 (doe - doe / 1460 + doe / 36524 - doe / 146096) 365 = some yoe :=
    divIs (by omega) year (by omega)
  have eraYears : mul64 era 400 = some (era * 400) := checkedIs rfl (by omega)
  have yStep : add64 yoe (era * 400) = some y := checkedIs whole (by omega)
  simp only [four,hundred,allEras,lessFour,withHundred,lessEra,yoeStep,eraYears,yStep,
    Option.bind_eq_bind,Option.bind_some]

theorem daySteps {α} {doe yoe doy : Int} (k : Int → Option α) (years : 0 ≤ yoe ∧ yoe ≤ 399)
    (days : 0 ≤ doy ∧ doy ≤ 365) (split_ : doe = 365 * yoe + yoe / 4 - yoe / 100 + doy) :
    (do
      let before ← sub64 (← add64 (← mul64 365 yoe) (← div64 yoe 4)) (← div64 yoe 100)
      let doy ← sub64 doe before
      k doy) = k doy := by
  have full : mul64 365 yoe = some (365 * yoe) := checkedIs rfl (by omega)
  have four : div64 yoe 4 = some (yoe / 4) := divIs years.1 rfl (by omega)
  have hundred : div64 yoe 100 = some (yoe / 100) := divIs years.1 rfl (by omega)
  have withFour : add64 (365 * yoe) (yoe / 4) = some (365 * yoe + yoe / 4) :=
    checkedIs rfl (by omega)
  have lessHundred : sub64 (365 * yoe + yoe / 4) (yoe / 100) =
      some (365 * yoe + yoe / 4 - yoe / 100) := checkedIs rfl (by omega)
  have doyStep : sub64 doe (365 * yoe + yoe / 4 - yoe / 100) = some doy :=
    checkedIs (by omega) (by omega)
  simp only [full,four,hundred,withFour,lessHundred,doyStep,Option.bind_eq_bind,Option.bind_some]

theorem monthSteps {α} {doy mp : Int} (k : Int → Int → Option α) (days : 0 ≤ doy ∧ doy ≤ 365)
    (month : (5 * doy + 2) / 153 = mp) :
    (do
      let mp ← div64 (← add64 (← mul64 5 doy) 2) 153
      let d ← add64 (← sub64 doy (← div64 (← add64 (← mul64 153 mp) 2) 5)) 1
      k mp d) = k mp (doy - (153 * mp + 2) / 5 + 1) := by
  have five : mul64 5 doy = some (5 * doy) := checkedIs rfl (by omega)
  have withTwo : add64 (5 * doy) 2 = some (5 * doy + 2) := checkedIs rfl (by omega)
  have mpStep : div64 (5 * doy + 2) 153 = some mp := divIs (by omega) month (by omega)
  have months : mul64 153 mp = some (153 * mp) := checkedIs rfl (by omega)
  have monthsTwo : add64 (153 * mp) 2 = some (153 * mp + 2) := checkedIs rfl (by omega)
  have first : div64 (153 * mp + 2) 5 = some ((153 * mp + 2) / 5) :=
    divIs (by omega) rfl (by omega)
  have within_ : sub64 doy ((153 * mp + 2) / 5) = some (doy - (153 * mp + 2) / 5) :=
    checkedIs rfl (by omega)
  have dStep : add64 (doy - (153 * mp + 2) / 5) 1 = some (doy - (153 * mp + 2) / 5 + 1) :=
    checkedIs rfl (by omega)
  simp only [five,withTwo,mpStep,months,monthsTwo,first,within_,dStep,Option.bind_eq_bind,
    Option.bind_some]

theorem dateSteps (date : Date) (d : Int) (years : 0 ≤ marchYear date ∧ marchYear date ≤ 9999) :
    (do
      let m ← add64 (marchMonth date) (if marchMonth date < 10 then 3 else -9)
      let year ← add64 (marchYear date) (if m ≤ 2 then 1 else 0)
      return (year,m,d)) = some (date.year,(date.month : Int),d) := by
  have months := date.months
  have mStep : add64 (marchMonth date) (if marchMonth date < 10 then 3 else -9) =
      some (date.month : Int) := by
    unfold marchMonth
    split <;> exact checkedIs (by split <;> omega) (by omega)
  have yearStep : add64 (marchYear date) (if (date.month : Int) ≤ 2 then 1 else 0) =
      some date.year := by
    unfold marchYear at years ⊢
    split <;> rename_i early <;> simp only [early,if_true,if_false] at years
    · exact checkedIs (by split <;> omega) (by omega)
    · exact checkedIs (by split <;> omega) (by omega)
  simp only [mStep,yearStep,Option.bind_eq_bind,Option.bind_some,Option.pure_def]

theorem partsOfDate (date : Date) {days : Nat} (count : (days : Int) = number date - 719162)
    (until_ : date.year ≤ 9999) :
    civilParts days = some (date.year,(date.month : Int),(date.day : Int)) := by
  obtain ⟨doe,doeIs⟩ : ∃ doe, doe = 365 * (marchYear date % 400) + marchYear date % 400 / 4 -
    marchYear date % 400 / 100 + marchDay date := ⟨_,rfl⟩
  obtain ⟨low,high,yoe,total⟩ := marchEra date doeIs
  obtain ⟨month,first,last,_⟩ := marchBounds date
  have march : marchYear date ≤ 9999 := by
    unfold marchYear
    split <;> omega
  have z : (days : Int) + 719468 = marchYear date / 400 * 146097 + doe := by omega
  have y : marchYear date % 400 + marchYear date / 400 * 400 = marchYear date := by omega
  unfold civilParts
  rw [eraSteps _ z (by omega) low high,yearSteps _ low high yoe (by omega) y,
    daySteps _ (by omega) ⟨first,last⟩ doeIs,monthSteps _ ⟨first,last⟩ month]
  have day : marchDay date - (153 * marchMonth date + 2) / 5 + 1 = date.day := by
    unfold marchDay
    omega
  rw [day]
  exact dateSteps date _ (by omega)

end March

section Order

theorem lexAppend {a b : Name} (x y : Name) (width : a.length = b.length) (less : a < b) :
    a ++ x < b ++ y := by
  induction less with
  | nil => cases width
  | rel first => exact .rel first
  | cons _ ih => exact .cons (ih (Nat.succ.inj width))

theorem digitValue {c : Char} (digit : c.isDigit = true) : 48 ≤ c.toNat ∧ c.toNat ≤ 57 := by
  simpa [Char.isDigit,UInt32.le_iff_toNat_le] using digit

theorem digitsBound {text : Name} (digits : ∀ c ∈ text, c.isDigit = true) :
    Nat.ofDigitChars 10 text 0 < 10 ^ text.length := by
  induction text with
  | nil => decide
  | cons c rest ih =>
    rw [List.forall_mem_cons] at digits
    have first := digitValue digits.1
    have others := ih digits.2
    rw [Nat.ofDigitChars_cons,Nat.ofDigitChars_eq_ofDigitChars_zero,List.length_cons,Nat.pow_succ]
    have zero : '0'.toNat = 48 := rfl
    have value : 10 ^ rest.length * (10 * 0 + (c.toNat - '0'.toNat)) ≤ 10 ^ rest.length * 9 :=
      Nat.mul_le_mul_left _ (by omega)
    omega

theorem digitsOrder {a b : Name} (width : a.length = b.length)
    (left : ∀ c ∈ a, c.isDigit = true) (right : ∀ c ∈ b, c.isDigit = true)
    (less : Nat.ofDigitChars 10 a 0 < Nat.ofDigitChars 10 b 0) : a < b := by
  induction a generalizing b with
  | nil =>
    obtain rfl := List.eq_nil_of_length_eq_zero width.symm
    exact absurd less (Nat.lt_irrefl _)
  | cons c as ih =>
    cases b with
    | nil => cases width
    | cons d bs =>
      rw [List.forall_mem_cons] at left right
      have same : as.length = bs.length := Nat.succ.inj width
      have ones := digitValue left.1
      have others := digitValue right.1
      have low := digitsBound left.2
      have high := digitsBound right.2
      have zero : '0'.toNat = 48 := rfl
      rw [Nat.ofDigitChars_cons,Nat.ofDigitChars_cons,Nat.ofDigitChars_eq_ofDigitChars_zero,
        @Nat.ofDigitChars_eq_ofDigitChars_zero bs,same] at less
      rcases Nat.lt_trichotomy c.toNat d.toNat with first | first | first
      · exact .rel first
      · obtain rfl := Char.toNat_inj.mp first
        exact .cons (ih same left.2 right.2 (by omega))
      · have more : 10 ^ bs.length * (10 * 0 + (d.toNat - '0'.toNat)) + 10 ^ bs.length ≤
            10 ^ bs.length * (10 * 0 + (c.toNat - '0'.toNat)) := by
          rw [← Nat.mul_succ]
          exact Nat.mul_le_mul_left _ (by omega)
        omega

theorem paddedLength {width n : Nat} (some_ : 0 < width) (fits : n < 10 ^ width) :
    (padded width n).length = width := by
  have short := (Nat.length_toDigits_le_iff (by decide) some_).mpr fits
  rw [padded,List.length_append,List.length_replicate]
  omega

theorem fieldOrder {P : Prop} {width m n : Nat} {c : Char} {x y : Name} (some_ : 0 < width)
    (fits : n < 10 ^ width) (order : m < n ∨ m = n ∧ P) (rest : P → x < y) :
    padded width m ++ c :: x < padded width n ++ c :: y := by
  rcases order with less | ⟨rfl,more⟩
  · have width_ : (padded width m).length = (padded width n).length :=
      (paddedLength some_ (Nat.lt_trans less fits)).trans (paddedLength some_ fits).symm
    refine lexAppend _ _ width_ (digitsOrder width_ (fun _ => paddedDigits)
      (fun _ => paddedDigits) ?_)
    rwa [paddedValue,paddedValue]
  · exact List.append_left_lt (.cons (rest more))

end Order

section Moments
open Calendar

def epoch : Moment := midnight (newYear 1970)

def lastSecond : Moment := ⟨⟨9999,12,31,by decide,by decide⟩,23,59,59,by decide⟩

def shown (moment : Moment) : Name :=
  dateTime (padded 4 moment.date.year.toNat) moment.date.month moment.date.day moment.hour
    moment.minute moment.second

structure Converted (days : Nat) (date : Date) : Prop where
  count : i64TryFrom days = some (days : Int)
  parts : civilParts days = some (date.year,(date.month : Int),(date.day : Int))
  year : i32TryFrom date.year = some date.year
  month : u32TryFrom date.month = some date.month
  day : u32TryFrom date.day = some date.day

theorem epochDay : number epoch.date = 719162 := rfl

theorem epochSeconds : seconds epoch = 719162 * 86400 := rfl

theorem datesConverted (date : Date) {days : Nat}
    (count : (days : Int) = number date - number epoch.date) (until_ : date.year ≤ 9999) :
    Converted days date := by
  rw [epochDay] at count
  obtain ⟨_,_,marchDays,_⟩ := marchBounds date
  have whole := marchNumber date
  have march : marchYear date ≤ date.year ∧ date.year ≤ marchYear date + 1 := by
    unfold marchYear
    split <;> omega
  have months := date.months
  have monthDays_ : date.day ≤ 31 := Nat.le_trans date.days.2 (monthDaysMost _ _)
  exact ⟨checkedIs rfl (by omega),partsOfDate date count until_,if_pos (by omega),
    if_pos (by omega),if_pos (by omega)⟩

theorem civilFromDate {date : Date} {days : Nat} (exact : Converted days date) :
    civilFromDays days = some (date.year,date.month,date.day) := by
  rw [civilFromDays,exact.parts]
  simp only [Option.map_some,exact.year,exact.month,exact.day,Option.getD_some]

theorem formatMoment (moment : Moment) {n : Nat}
    (count : (n : Int) = seconds moment - seconds epoch) (until_ : moment.date.year ≤ 9999)
    (from_ : 0 ≤ moment.date.year) :
    Converted (n / 86400) moment.date ∧ formatUnixSeconds n = some (shown moment) := by
  have clock := moment.clock
  rw [epochSeconds,seconds] at count
  have exact : Converted (n / 86400) moment.date :=
    datesConverted _ (by rw [epochDay]; omega) until_
  have hour : n % 86400 / 3600 = moment.hour := by omega
  have minute : n % 86400 % 3600 / 60 = moment.minute := by omega
  have second : n % 86400 % 60 = moment.second := by omega
  obtain ⟨year,whole⟩ := Int.eq_ofNat_of_zero_le from_
  refine ⟨exact,?_⟩
  simp only [formatUnixSeconds,civilFromDate exact,Option.map_some,hour,minute,second,shown,
    whole]
  rfl

theorem shownOrder {a b : Moment} (from_ : 0 ≤ a.date.year) (until_ : b.date.year ≤ 9999)
    (order : Earlier a b) : shown a < shown b := by
  have days : b.date.day ≤ 31 := Nat.le_trans b.date.days.2 (monthDaysMost _ _)
  have months := b.date.months
  have clock := b.clock
  have fields : a.date.year.toNat < b.date.year.toNat ∨ a.date.year.toNat = b.date.year.toNat ∧
      (a.date.month < b.date.month ∨ a.date.month = b.date.month ∧
      (a.date.day < b.date.day ∨ a.date.day = b.date.day ∧
      (a.hour < b.hour ∨ a.hour = b.hour ∧
      (a.minute < b.minute ∨ a.minute = b.minute ∧
      (a.second < b.second ∨ a.second = b.second ∧ False))))) := by
    rcases order with before | ⟨same,clock⟩
    · unfold Before at before
      omega
    · rw [same]
      omega
  unfold shown dateTime
  refine fieldOrder (by decide) (by omega) fields fun fields => ?_
  refine fieldOrder (by decide) (by omega) fields fun fields => ?_
  refine fieldOrder (by decide) (by omega) fields fun fields => ?_
  refine fieldOrder (by decide) (by omega) fields fun fields => ?_
  refine fieldOrder (by decide) (by omega) fields fun fields => ?_
  exact fieldOrder (by decide) (by omega) fields fun none_ => none_.elim

theorem untilLast {n : Nat} (last : (n : Int) ≤ seconds lastSecond - seconds epoch) :
    (later epoch n).date.year ≤ 9999 := by
  have count := secondsLater epoch n
  have clock := (later epoch n).clock
  have first := yearFirst (later epoch n).date
  have end_ : seconds lastSecond = 3652058 * 86400 + 86399 := rfl
  rcases Int.lt_or_le 9999 (later epoch n).date.year with spent | within_
  · have mono : daysBeforeYear 10000 ≤ daysBeforeYear (later epoch n).date.year :=
      daysBeforeYearMono spent
    have year : daysBeforeYear 10000 = 3652059 := rfl
    rw [end_] at last
    rw [seconds] at count
    omega
  · exact within_

theorem timestampsCorrect :
    (∀ n : Nat, (n : Int) ≤ seconds lastSecond - seconds epoch →
      (later epoch n).date.year ≤ 9999 ∧ Converted (n / 86400) (later epoch n).date ∧
        formatUnixSeconds n = some (shown (later epoch n))) ∧
    (∀ (date : Date) (days : Nat), (days : Int) = number date - number epoch.date →
      date.year ≤ 9999 → civilFromDays days = some (date.year,date.month,date.day)) ∧
    ∀ m n : Nat, m < n → (n : Int) ≤ seconds lastSecond - seconds epoch →
      ∃ a b, formatUnixSeconds m = some a ∧ formatUnixSeconds n = some b ∧ a < b := by
  have each (n : Nat) (last : (n : Int) ≤ seconds lastSecond - seconds epoch) :
      Converted (n / 86400) (later epoch n).date ∧
        formatUnixSeconds n = some (shown (later epoch n)) :=
    formatMoment _ (by rw [secondsLater]; omega) (untilLast last)
      (Int.le_trans (by decide) (yearLater epoch n))
  refine ⟨fun n last => ⟨untilLast last,each n last⟩,?_,?_⟩
  · intro date days count until_
    exact civilFromDate (datesConverted date count until_)
  · intro m n order last
    exact ⟨_,_,(each m (by omega)).2,(each n last).2,
      shownOrder (Int.le_trans (by decide) (yearLater epoch m)) (untilLast last)
        (earlierLater epoch order)⟩

example : formatUnixSeconds 951782400 = some "2000-02-29T00:00:00Z".toList := by decide

end Moments

end TelephoneBooth
