import EidMap.Text.Cut
import EidMap.Text.Numeral

/-!
Percent-encoding: the characters that each part of a URL has to encode, and decoding to bytes.
-/

namespace EidMap.Url

def percentByte (b : UInt8) : List Char :=
  let digits := Text.padZeros 2 (Text.hexDigits b.toNat)
  '%' :: digits.map Char.toUpper

def utf8 (c : Char) : List UInt8 := (String.singleton c).toUTF8.toList

def encode (set : Char → Bool) (cs : List Char) : List Char :=
  cs.flatMap fun c => if set c then (utf8 c).flatMap percentByte else [c]

def controlSet (c : Char) : Bool := c.toNat < 0x20 || 0x7E < c.toNat
def fragmentSet (c : Char) : Bool := controlSet c || " \"<>`".toList.contains c
def querySet (c : Char) : Bool := controlSet c || " \"#<>".toList.contains c
def specialQuerySet (c : Char) : Bool := querySet c || c == '\''
def pathSet (c : Char) : Bool := fragmentSet c || "#?\x7b\x7d".toList.contains c
def userinfoSet (c : Char) : Bool := pathSet c || "/:;=@[\\]^|".toList.contains c

def decodeBytes : List Char → List UInt8
  | [] => []
  | c :: cs =>
    match c, cs with
    | '%', a :: b :: rest =>
      match Text.hexValue? a, Text.hexValue? b with
      | some x, some y => UInt8.ofNat (16 * x + y) :: decodeBytes rest
      | _, _ => utf8 '%' ++ decodeBytes (a :: b :: rest)
    | c, cs => utf8 c ++ decodeBytes cs

def decode? (cs : List Char) : Option (List Char) :=
  (String.fromUTF8? ⟨(decodeBytes cs).toArray⟩).map String.toList

end EidMap.Url
