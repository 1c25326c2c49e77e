import CrossClusterKeys.Failure

/-!
# Moments as timestamps

A moment is a number of seconds since 1970-01-01 in UTC.  Its timestamp has the proleptic Gregorian
date, the time of day and milliseconds, and ends in `Z`.

**Rules.**
* The seconds are rounded to microseconds, ties to even, and cut to milliseconds.
* The year is not filled with zeros; only the years 1 to 9999 have timestamps.

**Results.**
* `civil_epoch`, `civil_leapDay`: two dates that fix the calendar.
-/

namespace CrossClusterKeys
namespace Timestamp

/-- The year, month and day of a day, counted from 1970-01-01.  Years begin in March while the
date is worked out, so that a leap day is the last of its year. -/
def civil (day : Int) : Int × Nat × Nat :=
  let shifted := day + 719468
  let era := shifted.fdiv 146097
  let inEra := (shifted.fmod 146097).toNat
  let year := (inEra - inEra / 1460 + inEra / 36524 - inEra / 146096) / 365
  let inYear := inEra - (365 * year + year / 4 - year / 100)
  let month := (5 * inYear + 2) / 153
  let dayOfMonth := inYear - (153 * month + 2) / 5 + 1
  if month < 10 then (year + era * 400, month + 3, dayOfMonth)
  else (year + era * 400 + 1, month - 9, dayOfMonth)

theorem civil_epoch : civil 0 = (1970, 1, 1) := by decide

theorem civil_leapDay : civil 11016 = (2000, 2, 29) := by decide

/-- A number with leading zeros. -/
def padded (width n : Nat) : Text := Text.padLeft '0' width (Digits.ofNat n)

/-- The timestamp of whole seconds and microseconds. -/
def ofSeconds (seconds : Int) (micros : Nat) : Except Failure Text :=
  let (year, month, day) := civil (seconds.fdiv 86400)
  let inDay := (seconds.fmod 86400).toNat
  if seconds < -Int.pow 2 63 || Int.pow 2 63 ≤ seconds then
    .error (.basic .overflow [.text "timestamp out of range for platform time_t"])
  else if year < -Int.pow 2 31 + 1900 || Int.pow 2 31 + 1900 ≤ year then
    .error (.basic .system [.text "[Errno 75] Value too large for defined data type"])
  else if year < 1 || 9999 < year then
    .error (.ofValue ("year " ++ Digits.ofInt year ++ " is out of range"))
  else
    .ok (Digits.ofInt year ++ "-" ++ padded 2 month ++ "-" ++ padded 2 day ++ "T" ++
      padded 2 (inDay / 3600) ++ ":" ++ padded 2 (inDay / 60 % 60) ++ ":" ++
      padded 2 (inDay % 60) ++ "." ++ padded 3 (micros / 1000) ++ "Z")

/-- The timestamp of a binary64 number of seconds. -/
def ofReal (x : Binary64) : Except Failure Text :=
  match x with
  | .nan => .error (.ofValue "Invalid value NaN (not a number)")
  | .infinite negative => ofSeconds (if negative then -Int.pow 2 64 else Int.pow 2 64) 0
  | .finite .. =>
    let whole := x.truncate?.getD 0
    let micros := (x.fractional.mulNat 1000000).round?.getD 0
    if 1000000 ≤ micros then ofSeconds (whole + 1) (micros - 1000000).toNat
    else if micros < 0 then ofSeconds (whole - 1) (micros + 1000000).toNat
    else ofSeconds whole micros.toNat

/-- The timestamp of a value, which has to be a number. -/
def ofValue (v : Value) : Except Failure Text :=
  match v with
  | .int n => ofSeconds n 0
  | .bool b => ofSeconds (if b then 1 else 0) 0
  | .real x => ofReal x
  | v => .error (.ofArgument ("'" ++ v.kind ++ "' object cannot be interpreted as an integer"))

end Timestamp
end CrossClusterKeys
