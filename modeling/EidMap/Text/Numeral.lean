/-!
Decimal numerals: the digits of a number, and the numbers a text spells. A numeral may start with
one plus sign and may have leading zeros; the words of 8, 16 and 32 bits refuse what does not fit.
Powers of two and of ten are natural numbers, for widths of words and places of digits.
-/

namespace EidMap

namespace Number

def twoPow (k : Nat) : Nat := Nat.pow 2 k

def tenPow (k : Nat) : Nat := Nat.pow 10 k

end Number

namespace Text

def digit (n : Nat) : Char := Char.ofNat (48 + n)

def digits (n : Nat) : List Char :=
  if n < 10 then [digit n] else digits (n / 10) ++ [digit (n % 10)]

def ofDigits (cs : List Char) : Nat := cs.foldl (fun n c => 10 * n + (c.toNat - 48)) 0

def unsigned? (cs : List Char) : Option Nat :=
  if !cs.isEmpty && cs.all Char.isDigit then some (ofDigits cs) else none

def natural? : List Char → Option Nat
  | '+' :: cs => unsigned? cs
  | cs => unsigned? cs

def uint8? (cs : List Char) : Option UInt8 :=
  (natural? cs).bind fun n => if n < UInt8.size then some (UInt8.ofNat n) else none

def uint16? (cs : List Char) : Option UInt16 :=
  (natural? cs).bind fun n => if n < UInt16.size then some (UInt16.ofNat n) else none

def uint32? (cs : List Char) : Option UInt32 :=
  (natural? cs).bind fun n => if n < UInt32.size then some (UInt32.ofNat n) else none

def uint64? (cs : List Char) : Option UInt64 :=
  (natural? cs).bind fun n => if n < UInt64.size then some (UInt64.ofNat n) else none

def natText (n : Nat) : String := String.ofList (digits n)

def intText (z : Int) : String :=
  match z with
  | .ofNat n => natText n
  | .negSucc n => "-" ++ natText (n + 1)

def hexDigit (n : Nat) : Char := if n < 10 then Char.ofNat (48 + n) else Char.ofNat (87 + n)

def hexDigits (n : Nat) : List Char :=
  if n < 16 then [hexDigit n] else hexDigits (n / 16) ++ [hexDigit (n % 16)]

def hexValue? (c : Char) : Option Nat :=
  if c.isDigit then some (c.toNat - 48)
  else if 'a' ≤ c && c ≤ 'f' then some (c.toNat - 87)
  else if 'A' ≤ c && c ≤ 'F' then some (c.toNat - 55)
  else none

def isHex (c : Char) : Bool := (hexValue? c).isSome

def ofHex (cs : List Char) : Nat := cs.foldl (fun n c => 16 * n + (hexValue? c).getD 0) 0

def padZeros (width : Nat) (cs : List Char) : List Char :=
  List.replicate (width - cs.length) '0' ++ cs

end Text

end EidMap
