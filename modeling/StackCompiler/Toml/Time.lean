import StackCompiler.Number.Numeral

/-!
Dates and times as TOML writes them: a date, a time of day, or both. After both there
may be the distance from universal time. Seconds may be left out.
-/
namespace StackCompiler.Toml

/-- The number that digits name at the start of a text, exactly `width` of them, and the text after
    these. -/
def numberOf? (width : Nat) (cs : List Char) : Option (Nat × List Char) :=
  let digits := cs.takeWhile Char.isDigit
  if digits.length == width then some (digitsValue digits, cs.drop width) else none

/-- The text after `c` at its start. -/
def after? (c : Char) (cs : List Char) : Option (List Char) :=
  if cs.head? == some c then some cs.tail else none

def isLeapYear (year : Nat) : Bool :=
  year % 4 == 0 && (year % 100 != 0 || year % 400 == 0)

def daysIn (year month : Nat) : Nat :=
  if month == 2 then if isLeapYear year then 29 else 28
  else if [4, 6, 9, 11].contains month then 30
  else 31

/-- The text after a date at its start, which must be a day of the calendar. -/
def afterDate? (cs : List Char) : Option (List Char) := do
  let (year, cs) ← numberOf? 4 cs
  let (month, cs) ← numberOf? 2 (← after? '-' cs)
  let (day, cs) ← numberOf? 2 (← after? '-' cs)
  if 1 ≤ month && month ≤ 12 && 1 ≤ day && day ≤ daysIn year month then some cs else none

/-- The text after an hour and a minute at its start. -/
def afterMinute? (cs : List Char) : Option (List Char) := do
  let (hour, cs) ← numberOf? 2 cs
  let (minute, cs) ← numberOf? 2 (← after? ':' cs)
  if hour ≤ 23 && minute ≤ 59 then some cs else none

/-- The text after a point and digits, if a point is next. -/
def afterFraction? : List Char → Option (List Char)
  | '.' :: cs => if cs.head?.any Char.isDigit then some (cs.dropWhile Char.isDigit) else none
  | cs => some cs

/-- The text after a time of day at its start. A minute may have a leap second. -/
def afterTime? (cs : List Char) : Option (List Char) := do
  let cs ← afterMinute? cs
  match after? ':' cs with
  | none => some cs
  | some cs =>
    let (second, cs) ← numberOf? 2 cs
    if second ≤ 60 then afterFraction? cs else none

/-- The text after the distance from universal time, if there is one. -/
def afterOffset? : List Char → Option (List Char)
  | [] => some []
  | c :: cs =>
    if c == 'Z' || c == 'z' then some cs
    else if c == '+' || c == '-' then afterMinute? cs
    else none

/-- Whether a date may end and a time of day begin with `c` between them. -/
def isTimeMark (c : Char) : Bool :=
  c == 'T' || c == 't' || c == ' '

def isDate (cs : List Char) : Bool :=
  afterDate? cs == some []

/-- Whether a text is a date, a time of day, or both. -/
def isTime (cs : List Char) : Bool :=
  match afterDate? cs with
  | none => afterTime? cs == some []
  | some [] => true
  | some (c :: cs) => isTimeMark c && (afterTime? cs).bind afterOffset? == some []

end StackCompiler.Toml
