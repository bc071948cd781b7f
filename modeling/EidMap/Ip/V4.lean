import EidMap.Text.Cut
import EidMap.Text.Numeral

/-!
IPv4 addresses and their dotted text: four octets in decimal, none with a leading zero.
-/

namespace EidMap.Ip

structure V4 where
  a : UInt8
  b : UInt8
  c : UInt8
  d : UInt8
deriving DecidableEq

namespace V4

def octets (v : V4) : List UInt8 := [v.a, v.b, v.c, v.d]

/-- An octet has one to three digits, no needless zero and at most the value 255. -/
def octet? (cs : List Char) : Option UInt8 :=
  match cs with
  | [] => none
  | '0' :: _ :: _ => none
  | _ => if cs.all Char.isDigit && cs.length ≤ 3 then Text.uint8? cs else none

def ofPieces? : List (List Char) → Option V4
  | [a, b, c, d] => do return ⟨← octet? a, ← octet? b, ← octet? c, ← octet? d⟩
  | _ => none

def read? (cs : List Char) : Option V4 := ofPieces? (Text.pieces '.' cs)

def readHead? (cs : List Char) : Option (V4 × List Char) := do
  let (a, cs) ← octetHead? cs
  let (b, cs) ← octetHead? (← dot? cs)
  let (c, cs) ← octetHead? (← dot? cs)
  let (d, cs) ← octetHead? (← dot? cs)
  return (⟨a, b, c, d⟩, cs)
where
  octetHead? (cs : List Char) : Option (UInt8 × List Char) :=
    (octet? (cs.takeWhile Char.isDigit)).map (·, cs.dropWhile Char.isDigit)
  dot? : List Char → Option (List Char)
    | '.' :: cs => some cs
    | _ => none

def text (v : V4) : List Char :=
  Text.digits v.a.toNat ++ '.' :: Text.digits v.b.toNat ++ '.' :: Text.digits v.c.toNat ++
    '.' :: Text.digits v.d.toNat

end V4

end EidMap.Ip
