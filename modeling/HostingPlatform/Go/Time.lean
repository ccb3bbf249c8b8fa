import HostingPlatform.Calendar

/-! Go's times, in nanoseconds since the epoch, and their RFC 3339 text: what a time is written as,
and what is read, which is more than what is written. -/
namespace HostingPlatform.Go

open Calendar

def second : Int := 1000000000

/- the zero value of a time, the first of January of the year 1 -/
def zeroTime : Int := -62135596800 * second

def yearText (year : Int) : List Char :=
  let digits := if year.natAbs < 10000 then padded 4 year.natAbs else Nat.toDigits 10 year.natAbs
  if year < 0 then '-' :: digits else digits

/- `t.UTC().Format(time.RFC3339)` -/
def formatRFC3339 (t : Int) : String :=
  let m := gmtime (t / second)
  String.ofList (yearText m.year ++ '-' :: padded 2 m.month ++ '-' :: padded 2 m.day ++
    'T' :: padded 2 m.hour ++ ':' :: padded 2 m.minute ++ ':' :: padded 2 m.second ++ ['Z'])

def readHour (cs : List Char) : Option (Nat × List Char) :=
  match readDigits 2 cs with
  | some read => some read
  | none => readDigits 1 cs

/- nanoseconds, of which more than nine digits are read but do not count -/
def readFraction : List Char → Int × List Char
  | point :: d :: rest =>
    if (point = '.' ∨ point = ',') ∧ d.isDigit then
      let digits := ((d :: rest).takeWhile Char.isDigit).take 9
      (number digits * 10 ^ (9 - digits.length), (d :: rest).dropWhile Char.isDigit)
    else (0, point :: d :: rest)
  | cs => (0, cs)

/- the seconds east of UTC -/
def readZone : List Char → Option (Int × List Char)
  | [] => none
  | sign :: rest =>
    if sign = 'Z' then some (0, rest)
    else do
      let (hours, rest) ← readDigits 2 rest
      let (minutes, rest) ← readDigits 2 (← readChar ':' rest)
      let offset := (hours * 60 + minutes) * 60
      if 24 < hours ∨ 60 < minutes then none
      else if sign = '+' then some (offset, rest)
      else if sign = '-' then some (-offset, rest)
      else none

/- `time.Parse(time.RFC3339, s)` -/
def parseRFC3339 (s : String) : Option Int := do
  let (year, cs) ← readDigits 4 s.toList
  let (month, cs) ← readDigits 2 (← readChar '-' cs)
  let (day, cs) ← readDigits 2 (← readChar '-' cs)
  let (hour, cs) ← readHour (← readChar 'T' cs)
  let (minute, cs) ← readDigits 2 (← readChar ':' cs)
  let (sec, cs) ← readDigits 2 (← readChar ':' cs)
  let (nanoseconds, cs) := readFraction cs
  let (offset, cs) ← readZone cs
  if (1 ≤ month ∧ month ≤ 12) ∧ (1 ≤ day ∧ day ≤ monthDays year month) ∧ hour < 24 ∧ minute < 60 ∧
      sec < 60 ∧ cs = [] then
    some ((timegm year month day hour minute sec - offset) * second + nanoseconds)
  else none

example : parseRFC3339 "2026-05-08T14:00:00.5+02:00" = some (1778241600 * second + 500000000) := by
  decide +kernel

end HostingPlatform.Go
