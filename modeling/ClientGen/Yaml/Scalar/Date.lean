import ClientGen.Number.Reading

/-!
# Dates in YAML

A date, possibly with a time and the distance of its zone. No `Node` is a date, so dates stay texts,
spelled as they are: two spellings of one date are two texts, and so are a date and a time on that
date. But a spelling that announces a date must be one.

* `Moment`: a date with a time.
* `Moment.ofText?`: what a spelling that looks like a date says.
* `Moment.isReal`: is there such a day, time and zone?
* `Moment.announces`: does a plain spelling announce a date?
-/

namespace ClientGen.Yaml

/-- A date with a time. -/
structure Moment where
  /-- The year. -/
  year : Nat
  /-- The month. -/
  month : Nat
  /-- The day of the month. -/
  day : Nat
  /-- The hour, the minute and the second. -/
  time : Nat × Nat × Nat := (0, 0, 0)
  /-- The distance of the zone in minutes. -/
  zone : Nat := 0

namespace Moment

/-- The number of some digits at the beginning of a text, at least `least` and at most `most` of
them, and what follows. -/
def digits? (least most : Nat) (cs : List Char) : Option (Nat × List Char) :=
  let ds := (cs.take most).takeWhile Text.isAsciiDigit
  if least ≤ ds.length then (readAll ds).map (·, cs.drop ds.length) else none

/-- What follows a character that has to come next. -/
def after? (c : Char) : List Char → Option (List Char)
  | d :: cs => if c = d then some cs else none
  | [] => none

/-- A blank in a date. -/
def isGap (c : Char) : Bool := c == ' ' || c == '\t'

/-- The distance of a zone, if that is all that is left. -/
def zone? (cs : List Char) : Option Nat :=
  match cs.dropWhile isGap with
  | [] => if cs.isEmpty then some 0 else none
  | ['Z'] => some 0
  | c :: cs => do
    if c ≠ '+' && c ≠ '-' then none
    else
      let (hours, rest) ← digits? 1 2 cs
      if rest.isEmpty then return hours * 60
      else
        let (minutes, rest) ← digits? 2 2 (← after? ':' rest)
        if rest.isEmpty then return hours * 60 + minutes else none

/-- A time and a zone, if that is all that is left. -/
def time? (cs : List Char) : Option ((Nat × Nat × Nat) × Nat) := do
  let (hour, cs) ← digits? 1 2 cs
  let (minute, cs) ← digits? 2 2 (← after? ':' cs)
  let (second, cs) ← digits? 2 2 (← after? ':' cs)
  let cs := match cs with
    | '.' :: cs => cs.dropWhile Text.isAsciiDigit
    | cs => cs
  return ((hour, minute, second), ← zone? cs)

/-- What a spelling that looks like a date says. -/
def ofText? (cs : List Char) : Option Moment := do
  let (year, cs) ← digits? 4 4 cs
  let (month, cs) ← digits? 1 2 (← after? '-' cs)
  let (day, cs) ← digits? 1 2 (← after? '-' cs)
  match cs with
  | [] => return { year, month, day }
  | c :: rest =>
    let rest := if c = 'T' || c = 't' then some rest
      else if isGap c then some (rest.dropWhile isGap) else none
    let (time, zone) ← time? (← rest)
    return { year, month, day, time, zone }

/-- Does a year have a day more than others? -/
def isLeap (year : Nat) : Bool := year % 4 = 0 && (year % 100 ≠ 0 || year % 400 = 0)

/-- The number of days of a month. -/
def daysOf (year month : Nat) : Nat :=
  if month = 2 then if isLeap year then 29 else 28
  else if [4, 6, 9, 11].contains month then 30 else 31

/-- Is there such a day, time and zone? Years start with 1, and no zone is a day away. -/
def isReal (m : Moment) : Bool :=
  1 ≤ m.year && 1 ≤ m.month && m.month ≤ 12 && 1 ≤ m.day && m.day ≤ daysOf m.year m.month
    && m.time.1 ≤ 23 && m.time.2.1 ≤ 59 && m.time.2.2 ≤ 59 && m.zone < 24 * 60

/-- Does a plain spelling announce a date? Without a time, month and day need two digits. -/
def announces (cs : List Char) : Bool :=
  (ofText? cs).isSome && (cs.contains ':' || cs.length = "yyyy-mm-dd".length)

end Moment

end ClientGen.Yaml
