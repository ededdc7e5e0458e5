import LayerPipeline.Text.Quoted

/-!
# Points in time as text

A point in time is written as a date and a time of day in universal time.
-/

namespace LayerPipeline

namespace Text

/-- Year, month and day of a number of days since the first of January 1970. Years are counted from
March on, so that a leap day is the last day of its year, in eras of 400 years. -/
def civilDate (days : Nat) : Nat × Nat × Nat :=
  let shifted := days + 719468
  let era := shifted / 146097
  let dayOfEra := shifted % 146097
  let yearOfEra := (dayOfEra - dayOfEra / 1460 + dayOfEra / 36524 - dayOfEra / 146096) / 365
  let dayOfYear := dayOfEra - (365 * yearOfEra + yearOfEra / 4 - yearOfEra / 100)
  let position := (5 * dayOfYear + 2) / 153
  let day := dayOfYear - (153 * position + 2) / 5 + 1
  let month := if position < 10 then position + 3 else position - 9
  (yearOfEra + 400 * era + (if month ≤ 2 then 1 else 0), month, day)

/-- A number with zeros in front. -/
def zeroPadded (width n : Nat) : String :=
  let ds := Nat.toDigits 10 n
  String.ofList (List.replicate (width - ds.length) '0' ++ ds)

/-- The time that is some nanoseconds after the start of 1970. -/
def timestamp (nanos : Nat) : String :=
  let seconds := nanos / 1000000000
  let (year, month, day) := civilDate (seconds / 86400)
  let ofDay := seconds % 86400
  zeroPadded 4 year ++ "-" ++ zeroPadded 2 month ++ "-" ++ zeroPadded 2 day ++ "T" ++
    zeroPadded 2 (ofDay / 3600) ++ ":" ++ zeroPadded 2 (ofDay / 60 % 60) ++ ":" ++
    zeroPadded 2 (ofDay % 60) ++ "." ++ zeroPadded 9 (nanos % 1000000000) ++ "+00:00"

example : timestamp 951782400000000001 = "2000-02-29T00:00:00.000000001+00:00" := by cbv

end Text

end LayerPipeline
