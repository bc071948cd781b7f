import EidMap.Text.Cut
import EidMap.Text.Numeral

/-!
Instants in time and their RFC 3339 text. An instant is a second of Unix time with a fraction in
nanoseconds; a fraction of a second or more is a leap second. The calendar is the Gregorian one, from
the year -262143 to the year 262142.
-/

namespace EidMap

structure Instant where
  second : Int
  nano : Nat
deriving DecidableEq

namespace Instant

structure Date where
  year : Int
  month : Nat
  day : Nat

def isLeap (y : Int) : Bool := y % 4 = 0 && (y % 100 ≠ 0 || y % 400 = 0)

def monthLength (y : Int) (m : Nat) : Nat :=
  match m with
  | 2 => if isLeap y then 29 else 28
  | 4 | 6 | 9 | 11 => 30
  | _ => 31

/-- Days since 1970-01-01; years are counted from March, in eras of 400 years. -/
def Date.days (d : Date) : Int :=
  let y := if d.month ≤ 2 then d.year - 1 else d.year
  let era := y / 400
  let yearOfEra := y - era * 400
  let month : Int := ((d.month + 9) % 12 : Nat)
  let dayOfYear := (153 * month + 2) / 5 + (d.day - 1)
  let dayOfEra := yearOfEra * 365 + yearOfEra / 4 - yearOfEra / 100 + dayOfYear
  era * 146097 + dayOfEra - 719468

def Date.ofDays (days : Int) : Date :=
  let z := days + 719468
  let era := z / 146097
  let dayOfEra := z - era * 146097
  let yearOfEra := (dayOfEra - dayOfEra / 1460 + dayOfEra / 36524 - dayOfEra / 146096) / 365
  let dayOfYear := dayOfEra - (365 * yearOfEra + yearOfEra / 4 - yearOfEra / 100)
  let month := (5 * dayOfYear + 2) / 153
  let day := dayOfYear - (153 * month + 2) / 5 + 1
  let m := if month < 10 then month + 3 else month - 9
  ⟨yearOfEra + era * 400 + (if m ≤ 2 then 1 else 0), m.toNat, day.toNat⟩

def minYear : Int := -262143
def maxYear : Int := 262142

def inRange (second : Int) : Bool :=
  let year := (Date.ofDays (second / 86400)).year
  minYear ≤ year && year ≤ maxYear

def ofMillis? (ms : Int) : Option Instant :=
  let second := ms / 1000
  if inRange second then some ⟨second, ((ms % 1000) * 1000000).toNat⟩ else none

def two (n : Nat) : List Char := Text.padZeros 2 (Text.digits n)

/-- Four digits, or a sign and at least four where the year has more or is negative. -/
def yearText (y : Int) : List Char :=
  if 0 ≤ y && y ≤ 9999 then Text.padZeros 4 (Text.digits y.toNat)
  else (if y < 0 then '-' else '+') :: Text.padZeros 4 (Text.digits y.natAbs)

def fractionText (nano : Nat) : List Char :=
  if nano = 0 then []
  else if nano % 1000000 = 0 then '.' :: Text.padZeros 3 (Text.digits (nano / 1000000))
  else if nano % 1000 = 0 then '.' :: Text.padZeros 6 (Text.digits (nano / 1000))
  else '.' :: Text.padZeros 9 (Text.digits nano)

def civilText (t : Instant) : List Char :=
  let date := Date.ofDays (t.second / 86400)
  let s := (t.second % 86400).toNat
  let leap := 1000000000 ≤ t.nano
  let nano := if leap then t.nano - 1000000000 else t.nano
  yearText date.year ++ '-' :: two date.month ++ '-' :: two date.day ++ 'T' ::
    two (s / 3600) ++ ':' :: two (s / 60 % 60) ++ ':' :: two (s % 60 + if leap then 1 else 0) ++
    fractionText nano

def text (t : Instant) : String := String.ofList (t.civilText ++ ['Z'])

def offsetText (t : Instant) : String := String.ofList (t.civilText ++ "+00:00".toList)

inductive ReadError
  | outOfRange
  | impossible
  | invalid
  | tooShort
  | tooLong
deriving DecidableEq

def ReadError.message : ReadError → String
  | .outOfRange => "input is out of range"
  | .impossible => "no possible date and time matching input"
  | .invalid => "input contains invalid characters"
  | .tooShort => "premature end of input"
  | .tooLong => "trailing input"

def dropBlank (cs : List Char) : List Char := cs.dropWhile Text.isBlank

def number (width : Option Nat) (cs : List Char) : Except ReadError (Nat × List Char) :=
  match cs with
  | [] => .error .tooShort
  | c :: _ =>
    if !c.isDigit then .error .invalid
    else
      let all := cs.takeWhile Char.isDigit
      let ds := match width with
        | some w => all.take w
        | none => all
      let n := Text.ofDigits ds
      if n < Number.twoPow 63 then .ok (n, cs.drop ds.length) else .error .outOfRange

def literal (c : Char) : List Char → Except ReadError (List Char)
  | [] => .error .tooShort
  | d :: cs => if c = d then .ok cs else .error .invalid

def bounded (low high : Nat) (cs : List Char) : Except ReadError (Nat × List Char) := do
  let (n, cs) ← number (some 2) (dropBlank cs)
  if low ≤ n && n ≤ high then .ok (n, cs) else .error .outOfRange

def year (cs : List Char) : Except ReadError (Int × List Char) := do
  let (y, cs) ← match dropBlank cs with
    | '-' :: cs => (number none cs).map fun (n, cs) => (-(n : Int), cs)
    | '+' :: cs => (number none cs).map fun (n, cs) => ((n : Int), cs)
    | cs => (number (some 4) cs).map fun (n, cs) => ((n : Int), cs)
  if -(Number.twoPow 31 : Int) ≤ y && y < Number.twoPow 31 then .ok (y, cs) else .error .outOfRange

/-- Digits after a point; those past the ninth are dropped. -/
def fraction (cs : List Char) : Except ReadError (Nat × List Char) :=
  match cs with
  | '.' :: cs => do
    let (n, rest) ← number (some 9) cs
    let count := cs.length - rest.length
    return (n * Number.tenPow (9 - count), rest.dropWhile Char.isDigit)
  | cs => .ok (0, cs)

/-- Seconds east of Greenwich: `Z`, `UTC`, or a sign, two digits of hours and two of minutes. -/
def offset (cs : List Char) : Except ReadError (Int × List Char) :=
  match cs with
  | 'Z' :: cs => .ok (0, cs)
  | 'z' :: cs => .ok (0, cs)
  | [] => .error .tooShort
  | c :: rest =>
    if Text.lower (cs.take 3) = ['u', 't', 'c'] then .ok (0, cs.drop 3)
    else if c = '+' then clock 1 rest
    else if c = '-' || c = '−' then clock (-1) rest
    else .error .invalid
where
  clock (sign : Int) (cs : List Char) : Except ReadError (Int × List Char) := do
    let (h, cs) ← pair cs
    let (m, cs) ← pair (cs.dropWhile fun c => c = ':' || Text.isBlank c)
    if 60 ≤ m then .error .outOfRange
    else .ok (sign * (h * 3600 + m * 60 : Nat), cs)
  pair : List Char → Except ReadError (Nat × List Char)
    | a :: b :: cs =>
      if a.isDigit && b.isDigit then .ok (Text.ofDigits [a, b], cs) else .error .invalid
    | [c] => if 1 < c.utf8Size then .error .invalid else .error .tooShort
    | [] => .error .tooShort

/-- The instant of a date and a time of day at an offset; second 60 is the leap second after 59. -/
def ofParts (date : Date) (hour minute second nano : Nat) (offset : Int) :
    Except ReadError Instant :=
  if date.year < minYear || maxYear < date.year || monthLength date.year date.month < date.day then
    .error .outOfRange
  else if offset.natAbs ≥ 86400 then .error .outOfRange
  else
    let leap := second = 60
    let s := hour * 3600 + minute * 60 + (if leap then 59 else second)
    let civil : Int := date.days * 86400 + s
    if inRange (civil - offset) then
      .ok ⟨civil - offset, nano + if leap then 1000000000 else 0⟩
    else .error .impossible

/-- Reads RFC 3339, with white space allowed between the parts and in place of the `T`. -/
def read (s : String) : Except ReadError Instant := do
  let (y, cs) ← year s.toList
  let cs ← literal '-' (dropBlank cs)
  let (month, cs) ← bounded 1 12 cs
  let cs ← literal '-' (dropBlank cs)
  let (day, cs) ← bounded 1 31 cs
  let cs ← match cs with
    | [] => .error .tooShort
    | c :: cs => if c = 't' || c = 'T' || c = ' ' then .ok cs else .error .invalid
  let (hour, cs) ← bounded 0 23 cs
  let cs ← literal ':' (dropBlank cs)
  let (minute, cs) ← bounded 0 59 cs
  let cs ← literal ':' (dropBlank cs)
  let (second, cs) ← bounded 0 60 cs
  let (nano, cs) ← fraction cs
  let (east, cs) ← offset (dropBlank cs)
  if !(dropBlank cs).isEmpty then .error .tooLong
  else ofParts ⟨y, month, day⟩ hour minute second nano east

end Instant

end EidMap
