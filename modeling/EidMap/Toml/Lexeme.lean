import EidMap.Json.Lexeme
import EidMap.Text.Cut
import EidMap.Toml.Basic

/-!
Strings, numbers, dates and times of TOML. A reader takes the characters from where its lexeme starts
and gives its value and the rest; it gives nothing where the lexeme is not well formed.
-/

namespace EidMap.Toml

def isGap (c : Char) : Bool := c == ' ' || c == '\t'

def dropGap (cs : List Char) : List Char := cs.dropWhile isGap

def isPlain (c : Char) : Bool := c == '\t' || (0x20 ≤ c.toNat && c.toNat != 0x7F)

def dropLines : (comment : Bool) → List Char → List Char
  | _, [] => []
  | comment, c :: cs =>
    if comment && isPlain c then dropLines true cs
    else if c = '\n' || isGap c then dropLines false cs
    else if c = '\r' && cs.head? == some '\n' then dropLines false cs
    else if c = '#' then dropLines true cs
    else c :: cs

def lineEnd? (cs : List Char) : Option (List Char) :=
  let cs := match dropGap cs with
    | '#' :: cs => cs.dropWhile isPlain
    | cs => cs
  match cs with
  | [] => some []
  | '\n' :: cs => some cs
  | '\r' :: '\n' :: cs => some cs
  | _ => none

def hexChar? (width : Nat) (cs : List Char) : Option (Char × List Char) :=
  let ds := cs.take width
  let n := Text.ofHex ds
  if ds.length = width && ds.all Text.isHex && n.isValidChar then
    some (Char.ofNat n, cs.drop width)
  else none

def escape? : List Char → Option (Char × List Char)
  | 'b' :: cs => some (Char.ofNat 8, cs)
  | 't' :: cs => some ('\t', cs)
  | 'n' :: cs => some ('\n', cs)
  | 'f' :: cs => some (Char.ofNat 12, cs)
  | 'r' :: cs => some ('\r', cs)
  | '"' :: cs => some ('"', cs)
  | '\\' :: cs => some ('\\', cs)
  | 'u' :: cs => hexChar? 4 cs
  | 'U' :: cs => hexChar? 8 cs
  | _ => none

def basic? (cs : List Char) : Option (List Char × List Char) :=
  match cs with
  | [] => none
  | '"' :: cs => some ([], cs)
  | '\\' :: cs =>
    match escape? cs with
    | none => none
    | some (c, rest) =>
      if _h : rest.length < cs.length then (basic? rest).map fun (s, r) => (c :: s, r) else none
  | c :: cs => if isPlain c then (basic? cs).map fun (s, r) => (c :: s, r) else none
termination_by cs.length

def literal? : List Char → Option (List Char × List Char)
  | [] => none
  | c :: cs =>
    if c = '\'' then some ([], cs)
    else if isPlain c then (literal? cs).map fun (s, r) => (c :: s, r)
    else none

def lineFold? (cs : List Char) : Option (List Char) :=
  match dropGap cs with
  | '\n' :: cs => some (cs.dropWhile fun c => isGap c || c == '\n' || c == '\r')
  | '\r' :: '\n' :: cs => some (cs.dropWhile fun c => isGap c || c == '\n' || c == '\r')
  | _ => none

/-- A string over several lines after its opening quotes. Three quotes in a row close it; one or two
more before them belong to it. -/
def lines? (quote : Char) (escapes : Bool) (cs : List Char) : Option (List Char × List Char) :=
  match cs with
  | [] => none
  | '\r' :: '\n' :: cs => (lines? quote escapes cs).map fun (s, r) => ('\n' :: s, r)
  | c :: cs =>
    if c = quote then
      let more := (cs.takeWhile (· == quote)).length
      if 2 ≤ more then
        let kept := min more 4 - 2
        some (List.replicate kept quote, cs.drop (kept + 2))
      else (lines? quote escapes cs).map fun (s, r) => (c :: s, r)
    else if c = '\\' && escapes then
      match lineFold? cs, escape? cs with
      | some rest, _ => if _h : rest.length < cs.length then lines? quote escapes rest else none
      | none, some (e, rest) =>
        if _h : rest.length < cs.length then
          (lines? quote escapes rest).map fun (s, r) => (e :: s, r)
        else none
      | none, none => none
    else if isPlain c || c = '\n' then (lines? quote escapes cs).map fun (s, r) => (c :: s, r)
    else none
termination_by cs.length

def dropFirstLineEnd : List Char → List Char
  | '\n' :: cs => cs
  | '\r' :: '\n' :: cs => cs
  | cs => cs

def string? : List Char → Option (List Char × List Char)
  | '"' :: '"' :: '"' :: cs => lines? '"' true (dropFirstLineEnd cs)
  | '"' :: cs => basic? cs
  | '\'' :: '\'' :: '\'' :: cs => lines? '\'' false (dropFirstLineEnd cs)
  | '\'' :: cs => literal? cs
  | _ => none

def digits? (isDigit : Char → Bool) (cs : List Char) : Option (List Char) :=
  let groups := Text.pieces '_' cs
  if groups.all fun ds => !ds.isEmpty && ds.all isDigit then some groups.flatten else none

def inRange (z : Int) : Option Toml :=
  if -(Number.twoPow 63 : Int) ≤ z && z < Number.twoPow 63 then some (.integer z) else none

def whole? (cs : List Char) : Option (List Char) :=
  match digits? Char.isDigit cs with
  | some ('0' :: _ :: _) => none
  | ds => ds

def ofBase (base : Nat) (ds : List Char) : Nat :=
  ds.foldl (fun n c => base * n + (Text.hexValue? c).getD 0) 0

def cutSign : List Char → Bool × List Char
  | '-' :: cs => (true, cs)
  | '+' :: cs => (false, cs)
  | cs => (false, cs)

def prefixed? (base : Nat) (isDigit : Char → Bool) (cs : List Char) : Option Toml :=
  (digits? isDigit cs).bind fun ds => inRange (ofBase base ds)

def integer? (cs : List Char) : Option Toml :=
  match cs with
  | '0' :: 'x' :: cs => prefixed? 16 Text.isHex cs
  | '0' :: 'o' :: cs => prefixed? 8 (fun c => '0' ≤ c && c ≤ '7') cs
  | '0' :: 'b' :: cs => prefixed? 2 (fun c => c == '0' || c == '1') cs
  | cs =>
    let (negative, cs) := cutSign cs
    (whole? cs).bind fun ds =>
      let n : Int := Text.ofDigits ds
      inRange (if negative then -n else n)

def exponent? (cs : List Char) : Option (Bool × List Char) :=
  let (down, cs) := cutSign cs
  (digits? Char.isDigit cs).map fun ds => (down, ds)

def cutExponent (cs : List Char) : List Char × Option (List Char) :=
  match cs.dropWhile fun c => c != 'e' && c != 'E' with
  | _ :: e => (cs.takeWhile fun c => c != 'e' && c != 'E', some e)
  | [] => (cs, none)

def numeral? (cs : List Char) : Option Json.Numeral := do
  let (front, e) := cutExponent cs
  let exponent ← match e with
    | some e => (exponent? e).map some
    | none => some none
  match Text.cutFirst '.' front with
  | some (w, f) => return ⟨← whole? w, some (← digits? Char.isDigit f), exponent⟩
  | none => if exponent.isSome then return ⟨← whole? front, none, exponent⟩ else none

/-- A number that is not finite; the mark of one without a value is not told from infinity. -/
def real? (cs : List Char) : Option Toml :=
  let (negative, cs) := cutSign cs
  if cs = ['i', 'n', 'f'] || cs = ['n', 'a', 'n'] then
    some (.real (if negative then .neg .infinity else .infinity))
  else
    match numeral? cs with
    | none => none
    | some n =>
      match n.value negative with
      | .ok (.real d) => some (.real d)
      | _ => none

def nat? (width : Nat) (cs : List Char) : Option Nat :=
  if cs.length = width then Text.unsigned? cs else none

def isMonthLong (y m d : Nat) : Bool :=
  let leap := y % 4 = 0 && (y % 100 ≠ 0 || y % 400 = 0)
  let last := match m with
    | 2 => if leap then 29 else 28
    | 4 | 6 | 9 | 11 => 30
    | _ => 31
  1 ≤ d && d ≤ last

def isDate (cs : List Char) : Bool :=
  match (Text.pieces '-' cs) with
  | [y, m, d] =>
    match nat? 4 y, nat? 2 m, nat? 2 d with
    | some y, some m, some d => 1 ≤ m && m ≤ 12 && isMonthLong y m d
    | _, _, _ => false
  | _ => false

def isClock (cs : List Char) : Bool :=
  match cs with
  | [h, h', ':', m, m', ':', s, s'] =>
    match nat? 2 [h, h'], nat? 2 [m, m'], nat? 2 [s, s'] with
    | some h, some m, some s => h ≤ 23 && m ≤ 59 && s ≤ 60
    | _, _, _ => false
  | _ => false

def isTime (cs : List Char) : Bool :=
  isClock (cs.take 8) &&
    match cs.drop 8 with
    | [] => true
    | '.' :: ds => !ds.isEmpty && ds.all Char.isDigit
    | _ => false

def cutOffset (cs : List Char) : List Char :=
  match cs.reverse with
  | 'Z' :: rest => rest.reverse
  | 'z' :: rest => rest.reverse
  | m :: m' :: ':' :: h :: h' :: sign :: rest =>
    match nat? 2 [h', h], nat? 2 [m', m] with
    | some h, some m =>
      if (sign = '+' || sign = '-') && h ≤ 23 && m ≤ 59 then rest.reverse else cs
    | _, _ => cs
  | _ => cs

def isDatetime (cs : List Char) : Bool :=
  isDate cs || isTime cs ||
    (isDate (cs.take 10) &&
      match cs.drop 10 with
      | c :: time => (c == 'T' || c == 't' || c == ' ') && (isTime time || isTime (cutOffset time))
      | [] => false)

def endsWord (c : Char) : Bool :=
  isGap c || c == '\n' || c == '\r' || c == ',' || c == ']' || c == '\x7d' || c == '#'

def word (cs : List Char) : List Char × List Char :=
  let w := cs.takeWhile fun c => !endsWord c
  let rest := cs.dropWhile fun c => !endsWord c
  match rest with
  | ' ' :: d :: more =>
    if isDate w && d.isDigit then
      (w ++ ' ' :: (d :: more).takeWhile fun c => !endsWord c,
        (d :: more).dropWhile fun c => !endsWord c)
    else (w, rest)
  | _ => (w, rest)

def ofWord (w : List Char) : Option Toml :=
  if w = ['t', 'r', 'u', 'e'] then some (.boolean true)
  else if w = ['f', 'a', 'l', 's', 'e'] then some (.boolean false)
  else if isDatetime w then some (.datetime (String.ofList w))
  else integer? w <|> real? w

end EidMap.Toml
