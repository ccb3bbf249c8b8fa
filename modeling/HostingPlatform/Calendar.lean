import HostingPlatform.Digits

/-! UTC times of the civil calendar, the seconds since the first of January 1970 that stand for them,
and their text. Inside, a year begins in March, so that the day a leap year adds is its last one; 400
years are 146097 days. -/
namespace HostingPlatform.Calendar

open List

def leap (year : Int) : Bool := year % 4 = 0 && (year % 100 ≠ 0 || year % 400 = 0)

def monthDays (year : Int) (month : Nat) : Nat :=
  if month = 2 then (if leap year then 29 else 28)
  else if month = 4 ∨ month = 6 ∨ month = 9 ∨ month = 11 then 30 else 31

theorem monthDays_le (year : Int) (month : Nat) : monthDays year month ≤ 31 := by
  unfold monthDays
  split
  · split <;> omega
  · split <;> omega

/- a time that there is, without leap seconds -/
@[ext]
structure Moment where
  year : Int
  (month day hour minute second : Nat)
  month_range : 1 ≤ month ∧ month ≤ 12
  day_range : 1 ≤ day ∧ day ≤ monthDays year month
  hour_lt : hour < 24
  minute_lt : minute < 60
  second_lt : second < 60

/- the number of a month that begins with March as 0, and back -/
def fromMarch (month : Nat) : Nat := (month + 9) % 12

def fromJanuary (month : Nat) : Nat := if month < 10 then month + 3 else month - 9

/- the days up to a month, of a year that begins in March with month 0 -/
def monthStart (month : Nat) : Nat := (153 * month + 2) / 5

/- the days up to a year of 400 -/
def yearStart (year : Nat) : Nat := year * 365 + year / 4 - year / 100

def dayNumber (year : Int) (month day : Nat) : Int :=
  let year := if month ≤ 2 then year - 1 else year
  146097 * (year / 400) + yearStart (year % 400).toNat + monthStart (fromMarch month) + day - 719469

def timegm (year : Int) (month day hour minute second : Nat) : Int :=
  dayNumber year month day * 86400 + hour * 3600 + minute * 60 + second

def Moment.unix (m : Moment) : Int := timegm m.year m.month m.day m.hour m.minute m.second

/- the year and its day, for a day of 400 years: the centuries, the groups of four years and the years,
where the last of four may be longer than the others -/
def yearAndDay (day : Nat) : Nat × Nat :=
  let century := min 3 (day / 36524)
  let inCentury := day - century * 36524
  let inFour := inCentury % 1461
  let year := min 3 (inFour / 365)
  (100 * century + 4 * (inCentury / 1461) + year, inFour - 365 * year)

/-- The years from March on that have 366 days. -/
def LongYear (year : Nat) : Prop := (year + 1) % 4 = 0 ∧ ((year + 1) % 100 ≠ 0 ∨ (year + 1) % 400 = 0)

theorem yearStart_eq {century four single : Nat} (belowFour : four ≤ 24) (below : single ≤ 3) :
    yearStart (100 * century + 4 * four + single) = 36524 * century + 1461 * four + 365 * single := by
  rw [yearStart]
  omega

theorem longYear_iff {century four single : Nat} (belowCentury : century ≤ 3) (belowFour : four ≤ 24)
    (below : single ≤ 3) : LongYear (100 * century + 4 * four + single) ↔
      single = 3 ∧ (four ≠ 24 ∨ century = 3) := by
  rw [LongYear]
  omega

variable {day year month : Nat}

theorem yearAndDay_spec (less : day < 146097) :
    (yearAndDay day).1 < 400 ∧ yearStart (yearAndDay day).1 + (yearAndDay day).2 = day ∧
      (yearAndDay day).2 ≤ 365 ∧ ((yearAndDay day).2 = 365 → LongYear (yearAndDay day).1) := by
  obtain ⟨century, inCentury, centuries, within, belowCentury⟩ :
      ∃ c r, c = min 3 (day / 36524) ∧ r = day - c * 36524 ∧ c ≤ 3 := ⟨_, _, rfl, rfl, by omega⟩
  obtain ⟨four, inFour, fours, withinFour⟩ : ∃ q r, q = inCentury / 1461 ∧ r = inCentury % 1461 := ⟨_, _, rfl, rfl⟩
  obtain ⟨single, singles, below⟩ : ∃ n, n = min 3 (inFour / 365) ∧ n ≤ 3 := ⟨_, rfl, by omega⟩
  have belowFour : four ≤ 24 := by omega
  simp only [yearAndDay, ← centuries, ← within, ← fours, ← withinFour, ← singles,
    yearStart_eq belowFour below, longYear_iff belowCentury belowFour below]
  omega

theorem yearAndDay_eq (less : year < 400) (there : day < 365 ∨ day = 365 ∧ LongYear year) :
    yearAndDay (yearStart year + day) = (year, day) := by
  obtain ⟨century, four, single, rfl, below, belowFour, belowCentury⟩ :
      ∃ c q n, year = 100 * c + 4 * q + n ∧ n ≤ 3 ∧ q ≤ 24 ∧ c ≤ 3 :=
    ⟨year / 100, year % 100 / 4, year % 4, by omega, by omega, by omega, by omega⟩
  rw [longYear_iff belowCentury belowFour below] at there
  rw [yearStart_eq belowFour below]
  have centuries : min 3 ((36524 * century + 1461 * four + 365 * single + day) / 36524) = century := by
    omega
  have rest : 36524 * century + 1461 * four + 365 * single + day - century * 36524 =
      1461 * four + (365 * single + day) := by omega
  have fours : (1461 * four + (365 * single + day)) / 1461 = four := by omega
  have inFour : (1461 * four + (365 * single + day)) % 1461 = 365 * single + day := by omega
  have singles : min 3 ((365 * single + day) / 365) = single := by omega
  simp only [yearAndDay, centuries, rest, fours, inFour, singles]
  rw [Nat.add_sub_cancel_left]

theorem leap_iff (era : Int) (year : Nat) : leap (400 * era + year + 1) = true ↔ LongYear year := by
  simp only [leap, LongYear, Bool.and_eq_true, Bool.or_eq_true, decide_eq_true_eq]
  omega

def monthOf (day : Nat) : Nat := (5 * day + 2) / 153

theorem monthOf_spec (less : day ≤ 365) :
    monthOf day ≤ 11 ∧ monthStart (monthOf day) ≤ day ∧ day < monthStart (monthOf day + 1) := by
  simp only [monthOf, monthStart]
  omega

theorem monthOf_eq (least : monthStart month ≤ day) (less : day < monthStart (month + 1)) : monthOf day = month := by
  simp only [monthOf, monthStart] at least less ⊢
  omega

theorem fromMarch_fromJanuary (less : month ≤ 11) : fromMarch (fromJanuary month) = month := by
  unfold fromMarch fromJanuary
  split <;> omega

theorem fromJanuary_fromMarch (least : 1 ≤ month) (less : month ≤ 12) : fromJanuary (fromMarch month) = month := by
  unfold fromMarch fromJanuary
  split <;> omega

theorem monthDays_eq (year : Int) (less : month ≤ 11) : monthDays year (fromJanuary month) =
      if month = 11 then (if leap year then 29 else 28) else monthStart (month + 1) - monthStart month := by
  interval_cases month <;> rfl

/- the year, the month and the day of a day number -/
def civilDay (number : Int) : Int × Nat × Nat :=
  let days := number + 719468
  let there := yearAndDay (days % 146097).toNat
  let month := fromJanuary (monthOf there.2)
  (400 * (days / 146097) + there.1 + (if month ≤ 2 then 1 else 0), month,
    there.2 - monthStart (monthOf there.2) + 1)

theorem civilDay_month (number : Int) : 1 ≤ (civilDay number).2.1 ∧ (civilDay number).2.1 ≤ 12 := by
  have spec := yearAndDay_spec (by omega : ((number + 719468) % 146097).toNat < 146097)
  have within := (monthOf_spec spec.2.2.1).1
  simp only [civilDay, fromJanuary]
  split <;> omega

theorem civilDay_day (number : Int) : 1 ≤ (civilDay number).2.2 ∧
    (civilDay number).2.2 ≤ monthDays (civilDay number).1 (civilDay number).2.1 := by
  obtain ⟨_, _, longest, long⟩ := yearAndDay_spec (by omega : ((number + 719468) % 146097).toNat < 146097)
  obtain ⟨within, starts, ends⟩ := monthOf_spec longest
  refine ⟨Nat.succ_pos _, ?_⟩
  simp only [civilDay]
  rw [monthDays_eq _ within]
  split
  · rename_i last
    have start : monthStart (monthOf (yearAndDay ((number + 719468) % 146097).toNat).2) = 337 := by
      rw [last]
      rfl
    have january : fromJanuary (monthOf (yearAndDay ((number + 719468) % 146097).toNat).2) = 2 := by
      rw [last]
      rfl
    rw [january, if_pos (Nat.le_refl 2)]
    split
    · omega
    rename_i short
    have regular : (yearAndDay ((number + 719468) % 146097).toNat).2 ≠ 365 :=
      fun last => short ((leap_iff _ _).mpr (long last))
    omega
  · omega

theorem civilDay_dayNumber {year : Int} (months : 1 ≤ month ∧ month ≤ 12)
    (days : 1 ≤ day ∧ day ≤ monthDays year month) : civilDay (dayNumber year month day) = (year, month, day) := by
  obtain ⟨march, month_eq, within⟩ : ∃ m, month = fromJanuary m ∧ m ≤ 11 :=
    ⟨fromMarch month, (fromJanuary_fromMarch months.1 months.2).symm, by unfold fromMarch; omega⟩
  obtain ⟨civil, civil_eq⟩ : ∃ y, y = if month ≤ 2 then year - 1 else year := ⟨_, rfl⟩
  obtain ⟨inYear, inYear_eq⟩ : ∃ d, d = monthStart march + (day - 1) := ⟨_, rfl⟩
  rw [month_eq, monthDays_eq year within] at days
  have there : inYear < monthStart (march + 1) ∧ (inYear < 365 ∨ inYear = 365 ∧ LongYear (civil % 400).toNat) := by
    by_cases last : march = 11
    · have february : month = 2 := by
        rw [month_eq, last]
        rfl
      have split : year = 400 * (civil / 400) + (civil % 400).toNat + 1 := by
        omega
      rw [last] at inYear_eq ⊢
      rw [if_pos last] at days
      have ends : monthStart 11 = 337 ∧ monthStart (11 + 1) = 367 := ⟨rfl, rfl⟩
      by_cases isLeap : leap year
      · rw [if_pos isLeap] at days
        refine ⟨by omega, ?_⟩
        by_cases regular : inYear < 365
        · exact .inl regular
        · exact .inr ⟨by omega, (leap_iff _ _).mp (split ▸ isLeap)⟩
      · rw [if_neg isLeap] at days
        exact ⟨by omega, .inl (by omega)⟩
    · have ends : monthStart (march + 1) ≤ 337 := by
        unfold monthStart
        omega
      rw [if_neg last] at days
      exact ⟨by omega, .inl (by omega)⟩
  have number : dayNumber year month day + 719468 =
      146097 * (civil / 400) + (yearStart (civil % 400).toNat + inYear : Nat) := by
    simp only [dayNumber, ← civil_eq]
    rw [month_eq, fromMarch_fromJanuary within]
    omega
  have below : yearStart (civil % 400).toNat ≤ 145731 := by
    unfold yearStart
    omega
  have era : (dayNumber year month day + 719468) / 146097 = civil / 400 := by omega
  have inEra : ((dayNumber year month day + 719468) % 146097).toNat =
      yearStart (civil % 400).toNat + inYear := by omega
  have found := yearAndDay_eq (by omega : (civil % 400).toNat < 400) there.2
  have month_found : monthOf inYear = march := monthOf_eq (by omega) there.1
  simp only [civilDay, inEra, found, month_found, ← month_eq]
  refine Prod.ext ?_ (Prod.ext rfl ?_)
  · split at civil_eq <;> rename_i early <;> simp only [if_true, if_false] <;> omega
  · dsimp only
    omega

def gmtime (unix : Int) : Moment where
  year := (civilDay (unix / 86400)).1
  month := (civilDay (unix / 86400)).2.1
  day := (civilDay (unix / 86400)).2.2
  hour := (unix % 86400 / 3600).toNat
  minute := (unix % 3600 / 60).toNat
  second := (unix % 60).toNat
  month_range := civilDay_month _
  day_range := civilDay_day _
  hour_lt := by omega
  minute_lt := by omega
  second_lt := by omega

theorem gmtime_unix (m : Moment) : gmtime m.unix = m := by
  have hours := m.hour_lt
  have minutes := m.minute_lt
  have seconds := m.second_lt
  have days : m.unix / 86400 = dayNumber m.year m.month m.day := by
    simp only [Moment.unix, timegm]
    omega
  have found := civilDay_dayNumber m.month_range m.day_range
  have clock : m.unix = m.unix / 86400 * 86400 + m.hour * 3600 + m.minute * 60 + m.second := by
    rw [days]
    rfl
  apply Moment.ext
  · change (civilDay (m.unix / 86400)).1 = m.year
    rw [days, found]
  · change (civilDay (m.unix / 86400)).2.1 = m.month
    rw [days, found]
  · change (civilDay (m.unix / 86400)).2.2 = m.day
    rw [days, found]
  · change (m.unix % 86400 / 3600).toNat = m.hour
    omega
  · change (m.unix % 3600 / 60).toNat = m.minute
    omega
  · change (m.unix % 60).toNat = m.second
    omega

def padded (count value : Nat) : List Char := (Digits.groups count 10 value).map Nat.digitChar

def decimal (value : Int) : List Char :=
  if value < 0 then '-' :: Nat.toDigits 10 value.natAbs else Nat.toDigits 10 value.natAbs

/- a year is written without zeros before it -/
def Moment.text (m : Moment) : List Char :=
  decimal m.year ++ '-' :: padded 2 m.month ++ '-' :: padded 2 m.day ++ 'T' :: padded 2 m.hour ++
    ':' :: padded 2 m.minute ++ ':' :: padded 2 m.second

def number (cs : List Char) : Nat := Nat.ofDigitChars 10 cs 0

def readDigits (count : Nat) (cs : List Char) : Option (Nat × List Char) :=
  if (cs.take count).length = count ∧ (cs.take count).all Char.isDigit then
    some (number (cs.take count), cs.drop count)
  else none

def readChar (c : Char) : List Char → Option (List Char)
  | [] => none
  | x :: rest => if x = c then some rest else none

def readInt (cs : List Char) : Option Int :=
  let digits := if cs.head? = some '-' ∨ cs.head? = some '+' then cs.tail else cs
  if digits ≠ [] ∧ digits.all Char.isDigit then
    some (if cs.head? = some '-' then -(number digits : Int) else number digits)
  else none

/- a time, the seconds it stands for and what comes after it; a minute may have two leap seconds -/
def readTime (cs : List Char) : Option (Int × List Char) := do
  let (year, cs) ← readDigits 4 cs
  let (month, cs) ← readDigits 2 (← readChar '-' cs)
  let (day, cs) ← readDigits 2 (← readChar '-' cs)
  let (hour, cs) ← readDigits 2 (← readChar 'T' cs)
  let (minute, cs) ← readDigits 2 (← readChar ':' cs)
  let (second, cs) ← readDigits 2 (← readChar ':' cs)
  if 1 ≤ year ∧ (1 ≤ month ∧ month ≤ 12) ∧ (1 ≤ day ∧ day ≤ monthDays year month) ∧ hour < 24 ∧
      minute < 60 ∧ second < 62 then
    some (timegm year month day hour minute second, cs)
  else none

theorem isDigit_padded {count value : Nat} {c : Char} (mem : c ∈ padded count value) : c.isDigit := by
  obtain ⟨d, digit, rfl⟩ := mem_map.mp mem
  have less := Digits.groups_lt (by decide) d digit
  interval_cases d <;> rfl

theorem padded_succ (count value : Nat) :
    padded (count + 1) value = padded count (value / 10) ++ [(value % 10).digitChar] := by
  rw [padded, Digits.groups_succ, map_append]
  rfl

theorem number_padded {count value : Nat} (fits : value < 10 ^ count) : number (padded count value) = value := by
  induction count generalizing value with
  | zero =>
    have zero : value = 0 := by simpa using fits
    rw [zero]
    rfl
  | succ count ih =>
    have upper := @ih (value / 10) (by omega)
    unfold number at upper ⊢
    rw [padded_succ, Nat.ofDigitChars_append, Nat.ofDigitChars_cons_digitChar_of_lt_ten (Nat.mod_lt _ (by decide)), Nat.ofDigitChars_nil]
    omega

theorem readDigits_padded {count value : Nat} (fits : value < 10 ^ count) (rest : List Char) :
    readDigits count (padded count value ++ rest) = some (value, rest) := by
  have length : (padded count value).length = count := by simp [padded, Digits.length_groups]
  have all : (padded count value).all Char.isDigit = true := all_eq_true.mpr (fun _ mem => isDigit_padded mem)
  rw [readDigits, take_left' length, drop_left' length, if_pos ⟨length, all⟩, number_padded fits]

theorem readChar_cons (c : Char) (rest : List Char) : readChar c (c :: rest) = some rest := if_pos rfl

theorem decimal_year (least : 1000 ≤ year) (less : year < 10000) : decimal year = padded 4 year := by
  have positive : ¬((year : Int) < 0) := by omega
  rw [decimal, Nat.toDigits_of_base_le (by decide) (by omega),
    Nat.toDigits_of_base_le (by decide) (by omega), Nat.toDigits_of_base_le (by decide) (by omega),
    Nat.toDigits_of_lt_base (by omega), padded_succ, padded_succ, padded_succ]
  have upper : year / 10 / 10 / 10 < 10 := by omega
  simp [padded, Digits.groups, Nat.mod_eq_of_lt upper]

theorem isDigit_toDigits (value : Nat) : ∀ c ∈ Nat.toDigits 10 value, c.isDigit = true :=
  fun _ mem => Nat.isDigit_of_mem_toDigits (by decide) (by decide) mem

theorem readInt_decimal (value : Int) : readInt (decimal value) = some value := by
  have all : (Nat.toDigits 10 value.natAbs).all Char.isDigit = true := all_eq_true.mpr (isDigit_toDigits _)
  have read : number (Nat.toDigits 10 value.natAbs) = value.natAbs := Nat.ofDigitChars_ten_toDigits
  unfold readInt decimal
  by_cases negative : value < 0
  · simp only [if_pos negative, head?_cons, tail_cons, true_or, if_true, ne_eq,
      Nat.toDigits_ne_nil, not_false_eq_true, all, and_self, Option.some.injEq]
    omega
  have unsigned : ∀ c : Char, c.isDigit = false → (Nat.toDigits 10 value.natAbs).head? ≠ some c := by
    intro c other head
    have digit := isDigit_toDigits value.natAbs c (mem_of_head? head)
    rw [other] at digit
    contradiction
  simp only [if_neg negative, unsigned '-' rfl, unsigned '+' rfl, or_self, if_false, ne_eq,
    Nat.toDigits_ne_nil, not_false_eq_true, all, and_self, if_true, Option.some.injEq]
  omega

theorem readTime_text {m : Moment} (least : 1000 ≤ m.year) (less : m.year < 10000) (rest : List Char) :
    readTime (m.text ++ rest) = some (m.unix, rest) := by
  obtain ⟨year, year_eq⟩ : ∃ y : Nat, m.year = y := ⟨m.year.toNat, by omega⟩
  have months := m.month_range
  have days := m.day_range
  have longest := monthDays_le m.year m.month
  have hours := m.hour_lt
  have minutes := m.minute_lt
  have seconds := m.second_lt
  rw [year_eq] at least less
  have written : decimal m.year = padded 4 year := by
    rw [year_eq]
    exact decimal_year (by omega) (by omega)
  have there : 1 ≤ year ∧ (1 ≤ m.month ∧ m.month ≤ 12) ∧ (1 ≤ m.day ∧ m.day ≤ monthDays year m.month) ∧
      m.hour < 24 ∧ m.minute < 60 ∧ m.second < 62 := by
    rw [year_eq] at days
    exact ⟨by omega, months, days, hours, minutes, by omega⟩
  simp only [readTime, Moment.text, written, append_assoc, cons_append]
  rw [readDigits_padded (by omega)]
  simp only [Option.bind_eq_bind, Option.bind_some, readChar_cons]
  rw [readDigits_padded (by omega)]
  simp only [Option.bind_some, readChar_cons]
  rw [readDigits_padded (by omega)]
  simp only [Option.bind_some, readChar_cons]
  rw [readDigits_padded (by omega)]
  simp only [Option.bind_some, readChar_cons]
  rw [readDigits_padded (by omega)]
  simp only [Option.bind_some, readChar_cons]
  rw [readDigits_padded (by omega)]
  simp only [Option.bind_some]
  rw [if_pos there, Moment.unix, year_eq]

end HostingPlatform.Calendar

/-! Cron expressions of five fields: numbers, ranges, lists and steps, and the UTC minutes that match all of
them. -/
namespace HostingPlatform.Cron

open List

structure Civil where
  (minute hour day month weekday : Nat)
  deriving DecidableEq

/- days into the year that begins with March, of the proleptic Gregorian calendar -/
def dayOfYear (days : Nat) : Nat :=
  let ofEra := (days + 719468) % 146097
  let year := (ofEra - ofEra / 1460 + ofEra / 36524 - ofEra / 146096) / 365
  ofEra - (365 * year + year / 4 - year / 100)

def civil (minutes : Nat) : Civil :=
  let days := minutes / 1440
  let shifted := (5 * dayOfYear days + 2) / 153
  { minute := minutes % 60
    hour := minutes / 60 % 24
    day := dayOfYear days - (153 * shifted + 2) / 5 + 1
    month := if shifted < 10 then shifted + 3 else shifted - 9
    weekday := (days + 4) % 7 }

def number (cs : List Char) : Option Nat :=
  if cs ≠ [] ∧ cs.all Char.isDigit then some (cs.foldl (fun n c => 10 * n + (c.toNat - 48)) 0) else none

/- the values that a range names: all, one, or those between two -/
def range (low high : Nat) (cs : List Char) : Option (Nat × Nat) :=
  match cs.splitOn '-' with
  | [['*']] => some (low, high)
  | [single] => (number single).map (fun n => (n, n))
  | [first, last] =>
    match number first, number last with
    | some first, some last => some (first, last)
    | _, _ => none
  | _ => none

/- an item of a list; a step after a single number goes up to the end -/
def itemMatches (low high value : Nat) (cs : List Char) : Bool :=
  match cs.splitOn '/' with
  | [base] => (range low high base).any (fun (first, last) => first ≤ value && value ≤ last)
  | [base, step] =>
    match range low high base, number step with
    | some (first, last), some step =>
      let last := if (number base).isSome then high else last
      0 < step && first ≤ value && value ≤ last && (value - first) % step == 0
    | _, _ => false
  | _ => false

def fieldMatches (low high value : Nat) (cs : List Char) : Bool :=
  (cs.splitOn ',').any (itemMatches low high value)

def fields (expression : String) : List (List Char) :=
  (expression.toList.splitOnP Char.isWhitespace).filter (fun field => field ≠ [])

def isMatch (expression : String) (minutes : Nat) : Bool :=
  let at_ := civil minutes
  match fields expression with
  | [minute, hour, day, month, weekday] =>
    fieldMatches 0 59 at_.minute minute && fieldMatches 0 23 at_.hour hour && fieldMatches 1 31 at_.day day &&
      fieldMatches 1 12 at_.month month &&
      (fieldMatches 0 7 at_.weekday weekday || at_.weekday == 0 && fieldMatches 0 7 7 weekday)
  | _ => false

/- noon of 29 February 2024, a Thursday -/
example : civil 28486800 = ⟨0, 12, 29, 2, 4⟩ := by decide

end HostingPlatform.Cron
