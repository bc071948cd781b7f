import EidMap.Json.Basic
import EidMap.Json.Fault

/-!
Strings and numbers of JSON text. Each has two readers: one that takes the value, and one that only
finds where it ends and so passes over what makes no sense as a value, such as half a surrogate
pair or a number out of range.
-/

namespace EidMap.Json

def isSpace (c : Char) : Bool := c == ' ' || c == '\n' || c == '\t' || c == '\r'

def dropSpace (cs : List Char) : List Char := cs.dropWhile isSpace

def wordRest : List Char → List Char → Except Fault (List Char)
  | [], cs => .ok cs
  | _ :: _, [] => .error .endInValue
  | w :: ws, c :: cs => if w = c then wordRest ws cs else .error .expectedIdent

def hexFour (cs : List Char) : Except Fault (Nat × List Char) :=
  match cs with
  | a :: b :: c :: d :: rest =>
    match hexValue4? a b c d with
    | some n => .ok (n, rest)
    | none => .error .invalidEscape
  | cs =>
    let size := cs.foldl (fun n c => n + c.utf8Size) 0
    if 4 ≤ size then .error .invalidEscape else .error .endInString
where
  hexValue4? (a b c d : Char) : Option Nat := do
    return (((← Text.hexValue? a) * 16 + (← Text.hexValue? b)) * 16 + (← Text.hexValue? c)) * 16 +
      (← Text.hexValue? d)

def simpleEscape? (c : Char) : Option Char :=
  match c with
  | '"' => some '"'
  | '\\' => some '\\'
  | '/' => some '/'
  | 'b' => some (Char.ofNat 8)
  | 'f' => some (Char.ofNat 12)
  | 'n' => some '\n'
  | 'r' => some '\r'
  | 't' => some '\t'
  | _ => none

def unicodeEscape (cs : List Char) : Except Fault (Char × List Char) := do
  let (n, rest) ← hexFour cs
  if 0xDC00 ≤ n && n ≤ 0xDFFF then .error .loneSurrogate
  else if n < 0xD800 || 0xDBFF < n then .ok (Char.ofNat n, rest)
  else
    match rest with
    | [] => .error .endInString
    | ['\\'] => .error .endInString
    | '\\' :: 'u' :: rest =>
      let (m, rest) ← hexFour rest
      if m < 0xDC00 || 0xDFFF < m then .error .loneSurrogate
      else .ok (Char.ofNat (0x10000 + (n - 0xD800) * 0x400 + (m - 0xDC00)), rest)
    | _ => .error .endOfHexEscape

def stringBody (cs : List Char) : Except Fault (List Char × List Char) :=
  match cs with
  | [] => .error .endInString
  | '"' :: rest => .ok ([], rest)
  | ['\\'] => .error .endInString
  | '\\' :: 'u' :: rest =>
    match unicodeEscape rest with
    | .error f => .error f
    | .ok (c, after) =>
      if _h : after.length < rest.length then (stringBody after).map fun (s, r) => (c :: s, r)
      else .error .invalidEscape
  | '\\' :: e :: rest =>
    match simpleEscape? e with
    | none => .error .invalidEscape
    | some c => (stringBody rest).map fun (s, r) => (c :: s, r)
  | c :: rest =>
    if c.toNat < 32 then .error .controlCharacter
    else (stringBody rest).map fun (s, r) => (c :: s, r)
termination_by cs.length

def stringRest (cs : List Char) : Except Fault (List Char) :=
  match cs with
  | [] => .error .endInString
  | '"' :: rest => .ok rest
  | ['\\'] => .error .endInString
  | '\\' :: 'u' :: rest =>
    match hexFour rest with
    | .error f => .error f
    | .ok (_, after) =>
      if _h : after.length < rest.length then stringRest after else .error .invalidEscape
  | '\\' :: e :: rest =>
    match simpleEscape? e with
    | none => .error .invalidEscape
    | some _ => stringRest rest
  | c :: rest => if c.toNat < 32 then .error .controlCharacter else stringRest rest
termination_by cs.length

/-- Reads digits into a number of 64 bits while they fit. The digits that fit no more are dropped;
the result is the number, how many digits it took and how many were dropped. -/
def takeDigits (n : Nat) : List Char → Nat × Nat × Nat
  | [] => (n, 0, 0)
  | d :: ds =>
    let next := 10 * n + (d.toNat - 48)
    if next < UInt64.size then
      let (m, taken, dropped) := takeDigits next ds
      (m, taken + 1, dropped)
    else (n, 0, ds.length + 1)

def powerOfTen (k : Nat) : Number.Double := Number.Double.ofNat (Number.tenPow k)

/-- `x` times a power of ten: one multiplication or division by a power up to 308. -/
def scale (x : Number.Double) (exponent : Int) : Except Fault Number.Double :=
  if exponent < -308 then
    if x.isZero then .ok x else scale (x.div (powerOfTen 308)) (exponent + 308)
  else if exponent < 0 then .ok (x.div (powerOfTen exponent.natAbs))
  else if 308 < exponent then
    if x.isZero then .ok x else .error .numberOutOfRange
  else
    let y := x.mul (powerOfTen exponent.toNat)
    if y.isInfinite then .error .numberOutOfRange else .ok y
termination_by exponent.natAbs

def exponentValue? (ds : List Char) : Option Nat :=
  let n := Text.ofDigits ds
  if n < Number.twoPow 31 then some n else none

structure Numeral where
  whole : List Char
  fraction : Option (List Char)
  exponent : Option (Bool × List Char)

namespace Numeral

def signed (negative : Bool) (x : Number.Double) : Number :=
  .real (if negative then x.neg else x)

/-- An integer where it fits into 64 bits, else a double. -/
def value (negative : Bool) (x : Numeral) : Except Fault Number :=
  let (n, _, excess) := takeDigits 0 x.whole
  match x.fraction, x.exponent, excess with
  | none, none, 0 =>
    if !negative then .ok (.integer n)
    else if n = 0 || Number.twoPow 63 < n then .ok (signed true (Number.Double.ofNat n))
    else .ok (.integer (-n))
  | fraction, exponent, excess =>
    let (n, taken, _) := takeDigits n (fraction.getD [])
    let start : Int := (excess : Int) - taken
    match exponent with
    | none => (scale (Number.Double.ofNat n) start).map (signed negative)
    | some (down, ds) =>
      match exponentValue? ds with
      | none =>
        if n ≠ 0 && !down then .error .numberOutOfRange
        else .ok (signed negative Number.Double.zero)
      | some e =>
        (scale (Number.Double.ofNat n) (if down then start - e else start + e)).map
          (signed negative)

end Numeral

inductive DigitGap
  | atEnd
  | atCharacter

def DigitGap.readFault : DigitGap → Fault
  | .atEnd => .endInValue
  | .atCharacter => .invalidNumber

def digitsHead (cs : List Char) : Except DigitGap (List Char × List Char) :=
  match cs with
  | [] => .error .atEnd
  | c :: _ =>
    if c.isDigit then .ok (cs.takeWhile Char.isDigit, cs.dropWhile Char.isDigit)
    else .error .atCharacter

def numeralHead (cs : List Char) : Except DigitGap (Numeral × List Char) := do
  let (whole, cs) ← match cs with
    | '0' :: rest =>
      match rest with
      | c :: _ => if c.isDigit then .error .atCharacter else .ok (['0'], rest)
      | [] => .ok (['0'], rest)
    | cs => digitsHead cs
  let (fraction, cs) ← match cs with
    | '.' :: rest => (digitsHead rest).map fun (ds, rest) => (some ds, rest)
    | cs => .ok (none, cs)
  let (exponent, cs) ← match cs with
    | c :: rest =>
      if c = 'e' || c = 'E' then
        match rest with
        | '+' :: rest => (digitsHead rest).map fun (ds, rest) => (some (false, ds), rest)
        | '-' :: rest => (digitsHead rest).map fun (ds, rest) => (some (true, ds), rest)
        | rest => (digitsHead rest).map fun (ds, rest) => (some (false, ds), rest)
      else .ok (none, c :: rest)
    | [] => .ok (none, [])
  return (⟨whole, fraction, exponent⟩, cs)

end EidMap.Json
