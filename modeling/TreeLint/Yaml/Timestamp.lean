import TreeLint.Yaml.Fault
import TreeLint.Yaml.Kind

/-!
# Dates and times

A scalar may stand for a date, or for a date with a time of day and perhaps a distance from
universal time. Its parts are numbers in fixed places, and they have to be those of a day that
there is: the zone is looked at first, then year, month, day, hour, minute and second.
-/

namespace TreeLint

namespace Yaml

/-- A time of day, in hours, minutes, seconds and microseconds. The zone is a distance in
minutes. -/
structure ClockTime where
  hour : Nat
  minute : Nat
  second : Nat
  micro : Nat := 0
  zone : Option Int := none
deriving DecidableEq, Repr

/-- A date, with a time of day if there is one. -/
structure Timestamp where
  year : Nat
  month : Nat
  day : Nat
  time : Option ClockTime := none
deriving DecidableEq, Repr

namespace Timestamp

/-- The digits at the front of a text, at most `n` of them, as a number, and what follows. -/
def digits? (least most : Nat) (t : Text) : Option (Nat × Text) :=
  let ds := (t.take most).takeWhile Char.isDigit
  if ds.length < least then none
  else some (ds.foldl (fun n c => 10 * n + (c.toNat - '0'.toNat)) 0, t.drop ds.length)

/-- The microseconds in the digits of a fraction of a second; further digits do not count. -/
def microOf (ds : Text) : Nat :=
  let ds := ds.take 6
  (ds ++ List.replicate (6 - ds.length) '0').foldl (fun n c => 10 * n + (c.toNat - '0'.toNat)) 0

/-- The zone at the end of a time, if the text is one. -/
def zone? (t : Text) : Option (Option Int) :=
  match withoutBlanks t with
  | [] => if t.isEmpty then some none else none
  | ['Z'] => some (some 0)
  | s :: rest =>
    if s == '-' || s == '+' then do
      let (hours, rest) ← digits? 1 2 rest
      let (minutes, rest) ← match rest with
        | ':' :: rest => digits? 2 2 rest
        | rest => some (0, rest)
      let distance : Int := 60 * hours + minutes
      if rest.isEmpty then some (some (if s == '-' then -distance else distance)) else none
    else none

/-- The time of day that a text is. -/
def time? (t : Text) : Option ClockTime := do
  let (hour, t) ← digits? 1 2 t
  let (minute, t) ← digits? 2 2 (← afterChar ':' t)
  let (second, t) ← digits? 2 2 (← afterChar ':' t)
  let (micro, t) := match t with
    | '.' :: rest => (microOf (rest.takeWhile Char.isDigit), rest.dropWhile Char.isDigit)
    | t => (0, t)
  let zone ← zone? t
  return { hour, minute, second, micro, zone }

/-- The time behind a date, which may be left out. -/
def timePart? : Text → Option (Option ClockTime)
  | [] => some none
  | c :: rest =>
    if c == 'T' || c == 't' then (time? rest).map some
    else if c == ' ' || c == '\t' then (time? (withoutBlanks rest)).map some
    else none

/-- The date that a text is, whether there is such a day or not. -/
def ofText? (t : Text) : Option Timestamp := do
  let (year, t) ← digits? 4 4 t
  let (month, t) ← digits? 1 2 (← afterChar '-' t)
  let (day, t) ← digits? 1 2 (← afterChar '-' t)
  let time ← timePart? t
  return { year, month, day, time }

/-- Whether a year has a day more than others. -/
def isLeap (year : Nat) : Bool := year % 4 == 0 && (year % 100 != 0 || year % 400 == 0)

/-- How many days a month has. -/
def daysIn (year month : Nat) : Nat :=
  if month = 2 then if isLeap year then 29 else 28
  else if [4, 6, 9, 11].contains month then 30
  else 31

/-- The first part that is out of range. -/
def badPart? (d : Timestamp) : Option DatePart :=
  if d.year = 0 then some .year
  else if d.month = 0 ∨ 12 < d.month then some .month
  else if d.day = 0 ∨ daysIn d.year d.month < d.day then some .day
  else
    match d.time with
    | none => none
    | some t =>
      if 24 ≤ t.hour then some .hour
      else if 60 ≤ t.minute then some .minute
      else if 60 ≤ t.second then some .second
      else none

/-- The zone of a date, if it is too far away. -/
def badZone? (d : Timestamp) : Option Int :=
  (d.time.bind ClockTime.zone).filter fun z => decide (1440 ≤ z.natAbs)

/-- The date that a text stands for. -/
def ofText (t : Text) : Except Fault Timestamp :=
  match ofText? (withoutLastLine t) with
  | none => .error .noDate
  | some d =>
    match d.badZone?, d.badPart? with
    | some z, _ => .error (.badZone z)
    | none, some part => .error (.badDatePart part)
    | none, none => .ok d

/-! ### Texts -/

/-- A number with at least `width` digits. -/
def padded (width n : Nat) : String :=
  let ds := Nat.toDigits 10 n
  String.ofList (List.replicate (width - ds.length) '0' ++ ds)

/-- The text of a zone behind a time. -/
def zoneText (z : Int) : String :=
  (if z < 0 then "-" else "+") ++ padded 2 (z.natAbs / 60) ++ ":" ++ padded 2 (z.natAbs % 60)

/-- The text of a time. -/
def timeText (t : ClockTime) : String :=
  padded 2 t.hour ++ ":" ++ padded 2 t.minute ++ ":" ++ padded 2 t.second ++
    (if t.micro = 0 then "" else "." ++ padded 6 t.micro) ++ (t.zone.map zoneText).getD ""

/-- The text of a date by itself. -/
def text (d : Timestamp) : String :=
  padded 4 d.year ++ "-" ++ padded 2 d.month ++ "-" ++ padded 2 d.day ++
    (d.time.map fun t => " " ++ timeText t).getD ""

/-- How a zone is shown in a message. -/
def zoneDisplay (z : Int) : String :=
  "tzinfo=" ++
    if z = 0 then "datetime.timezone.utc" else "datetime.timezone(" ++ durationText z ++ ")"

/-- How a date is shown in a message. Seconds and microseconds are left out when they are zero. -/
def display (d : Timestamp) : String :=
  let date := [toString d.year, toString d.month, toString d.day]
  match d.time with
  | none => "datetime.date(" ++ ", ".intercalate date ++ ")"
  | some t =>
    let clock := [toString t.hour, toString t.minute]
    let fine :=
      if t.micro ≠ 0 then [toString t.second, toString t.micro]
      else if t.second ≠ 0 then [toString t.second]
      else []
    let zone := (t.zone.map fun z => [zoneDisplay z]).getD []
    "datetime.datetime(" ++ ", ".intercalate (date ++ clock ++ fine ++ zone) ++ ")"

end Timestamp

end Yaml

end TreeLint
