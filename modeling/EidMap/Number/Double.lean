import EidMap.Text.Numeral

/-!
Doubles as their 64 bits, computed on natural numbers alone. `ofRatio` rounds a ratio to the nearest
double, ties to the even one; `shortest` gives the fewest decimal digits that read back to a double;
`text` writes them positionally from `1e-5` to below `1e16` and with a signed exponent elsewhere.
-/

namespace EidMap.Number

structure Double where
  bits : UInt64
deriving DecidableEq

namespace Double

def signBit : Nat := twoPow 63
def infinityBits : Nat := 0x7ff * twoPow 52

def isNegative (d : Double) : Bool := signBit ≤ d.bits.toNat
def magnitude (d : Double) : Nat := d.bits.toNat % signBit
def isZero (d : Double) : Bool := d.magnitude == 0
def isInfinite (d : Double) : Bool := infinityBits ≤ d.magnitude

def zero : Double := ⟨0⟩
def infinity : Double := ⟨UInt64.ofNat infinityBits⟩
def neg (d : Double) : Double := ⟨d.bits ^^^ UInt64.ofNat signBit⟩

/-- A finite magnitude is `m * 2 ^ (q - 1074)`. -/
def parts (d : Double) : Nat × Nat :=
  let field := d.magnitude / twoPow 52
  let fraction := d.magnitude % twoPow 52
  if field = 0 then (fraction, 0) else (twoPow 52 + fraction, field - 1)

def nearest (num den : Nat) : Nat :=
  let n := num / den
  let r := 2 * (num % den)
  if den < r || (r == den && n % 2 == 1) then n + 1 else n

def ofRatio (num den : Nat) : Double :=
  if num = 0 then zero
  else
    -- `num / den * 2 ^ 1074` in units of the last place of a number of 53 bits
    let num := num * twoPow 1074
    let size := (num / den).log2
    let q := size - 52
    let bits := q * twoPow 52 + nearest num (den * twoPow q)
    if infinityBits ≤ bits then infinity else ⟨UInt64.ofNat bits⟩

def ofNat (n : Nat) : Double := ofRatio n 1

def mul (x y : Double) : Double :=
  let (m, q) := x.parts
  let (n, r) := y.parts
  ofRatio (m * n * twoPow (q + r)) (twoPow 2148)

def div (x y : Double) : Double :=
  let (m, q) := x.parts
  let (n, r) := y.parts
  ofRatio (m * twoPow q) (n * twoPow r)

/-- Digits `n` and exponent `k` of a decimal `n * 10 ^ k`. -/
structure Decimal where
  digits : Nat
  exponent : Int

def decimalSize (num den : Nat) : Int :=
  if den ≤ num then ((Text.digits (num / den)).length : Int) - 1
  else
    let k := (Text.digits (den / num)).length
    -- `10 ^ (k - 1) ≤ den / num < 10 ^ k`, and equality only for an exact power
    if num * tenPow (k - 1) = den then -((k : Int) - 1) else -(k : Int)

def atDigits (num den low high : Nat) (inclusive : Bool) (size : Int) (count : Nat) :
    Option Decimal :=
  let k : Int := size + 1 - count
  let (scaled, unit) := if 0 ≤ k then (1, tenPow k.toNat) else (tenPow (-k).toNat, 1)
  let n := num * scaled / (den * unit)
  let within (n : Nat) : Bool :=
    let x := n * unit * den
    let lo := low * scaled
    let hi := high * scaled
    if inclusive then lo ≤ x && x ≤ hi else lo < x && x < hi
  let closerAbove : Bool := num * scaled * 2 > (2 * n + 1) * unit * den
  let tie : Bool := num * scaled * 2 == (2 * n + 1) * unit * den
  let above := closerAbove || (tie && n % 2 == 1)
  match within n, within (n + 1) with
  | true, true => some ⟨if above then n + 1 else n, k⟩
  | true, false => some ⟨n, k⟩
  | false, true => some ⟨n + 1, k⟩
  | false, false => none

def dropZeros (fuel n : Nat) (k : Int) : Decimal :=
  match fuel with
  | 0 => ⟨n, k⟩
  | fuel + 1 => if n % 10 = 0 then dropZeros fuel (n / 10) (k + 1) else ⟨n, k⟩

/-- The shortest decimal that lies in the interval of numbers that round to `d`; of the shortest
the nearest. For a finite `d` other than zero. -/
def shortest (d : Double) : Decimal :=
  let (m, q) := d.parts
  -- everything in quarters of the last place
  let unit := twoPow q
  let den := 4 * twoPow 1074
  let num := 4 * m * unit
  let low := (4 * m - if m = twoPow 52 && q ≠ 0 then 1 else 2) * unit
  let high := (4 * m + 2) * unit
  let size := decimalSize num den
  let found := (List.range 17).findSome? fun i =>
    atDigits num den low high (m % 2 == 0) size (i + 1)
  match found with
  | some x => dropZeros 20 x.digits x.exponent
  | none => ⟨0, 0⟩

def Decimal.text (x : Decimal) : List Char :=
  let ds := Text.digits x.digits
  let point : Int := ds.length + x.exponent
  if 0 ≤ x.exponent && point ≤ 16 then
    ds ++ List.replicate x.exponent.toNat '0' ++ ['.', '0']
  else if 0 < point && point ≤ 16 then
    ds.take point.toNat ++ '.' :: ds.drop point.toNat
  else if -5 < point && point ≤ 0 then
    '0' :: '.' :: List.replicate (-point).toNat '0' ++ ds
  else
    let exponent := (if point ≤ 0 then '-' else '+') :: Text.digits (point - 1).natAbs
    match ds with
    | [d] => d :: 'e' :: exponent
    | d :: ds => d :: '.' :: ds ++ 'e' :: exponent
    | [] => []

def text (d : Double) : List Char :=
  let body := if d.isZero then ['0', '.', '0'] else d.shortest.text
  if d.isNegative then '-' :: body else body

end Double

end EidMap.Number
