import EidMap.Ip.V6
import EidMap.Text.Numeral
import EidMap.Url.Domain

/-!
Hosts of a URL: names, IPv4 addresses in any of their number forms, and IPv6 addresses in brackets.
-/

namespace EidMap.Url

inductive Host
  | domain (name : String)
  | ipv4 (addr : Ip.V4)
  | ipv6 (addr : Ip.V6)
deriving DecidableEq

inductive ReadError
  | emptyHost
  | invalidName
  | invalidPort
  | invalidIpv4
  | invalidIpv6
  | invalidCharacter
  | relative
deriving DecidableEq

def ReadError.message : ReadError → String
  | .emptyHost => "empty host"
  | .invalidName => "invalid international domain name"
  | .invalidPort => "invalid port number"
  | .invalidIpv4 => "invalid IPv4 address"
  | .invalidIpv6 => "invalid IPv6 address"
  | .invalidCharacter => "invalid domain character"
  | .relative => "relative URL without a base"

namespace Host

def number? (cs : List Char) : Option Nat :=
  match cs with
  | [] => none
  | '0' :: 'x' :: ds => hex ds
  | '0' :: 'X' :: ds => hex ds
  | '0' :: d :: ds => if (d :: ds).all isOctal then some (octal (d :: ds)) else none
  | ds => Text.unsigned? ds
where
  hex (ds : List Char) : Option Nat := if ds.all Text.isHex then some (Text.ofHex ds) else none
  isOctal (c : Char) : Bool := '0' ≤ c && c ≤ '7'
  octal (ds : List Char) : Nat := ds.foldl (fun n c => 8 * n + (c.toNat - 48)) 0

def numberParts (cs : List Char) : List (List Char) :=
  let parts := Text.pieces '.' cs
  if 1 < parts.length && parts.getLast? == some [] then parts.dropLast else parts

/-- A name whose last part is a number is an IPv4 address or nothing. -/
def endsInNumber (cs : List Char) : Bool :=
  match (numberParts cs).getLast? with
  | some last => (!last.isEmpty && last.all Char.isDigit) || (number? last).isSome
  | none => false

def ofIpv4Number (n : Nat) : Ip.V4 :=
  ⟨UInt8.ofNat (n / 0x1000000), UInt8.ofNat (n / 0x10000), UInt8.ofNat (n / 0x100), UInt8.ofNat n⟩

/-- One to four numbers; the last one fills the octets that are left. -/
def ipv4? (cs : List Char) : Option Ip.V4 := do
  let numbers ← (numberParts cs).mapM number?
  if 4 < numbers.length then none
  else
    let last ← numbers.getLast?
    let front := numbers.dropLast
    if Number.twoPow (8 * (4 - front.length)) ≤ last || front.any (255 < ·) then none
    else
      let high := front.foldl (fun n x => 256 * n + x) 0
      return ofIpv4Number (high * Number.twoPow (8 * (4 - front.length)) + last)

def ipv6? (cs : List Char) : Except ReadError Host :=
  match Ip.V6.read? cs with
  | some v => .ok (.ipv6 v)
  | none => .error .invalidIpv6

def bracketed (cs : List Char) : Option (List Char) :=
  if cs.getLast? == some ']' then some cs.dropLast else none

def read (cs : List Char) : Except ReadError Host :=
  match cs with
  | '[' :: rest =>
    match bracketed rest with
    | some inner => ipv6? inner
    | none => .error .invalidIpv6
  | cs =>
    match (decode? cs).bind asciiName? with
    | none => .error .invalidName
    | some [] => .error .emptyHost
    | some name =>
      if endsInNumber name then
        match ipv4? name with
        | some v => .ok (.ipv4 v)
        | none => .error .invalidIpv4
      else .ok (.domain (String.ofList name))

def isOpaqueForbidden (c : Char) : Bool :=
  c.toNat == 0 || "\t\n\r #/:<>?@[\\]^|".toList.contains c

def readOpaque (cs : List Char) : Except ReadError Host :=
  match cs with
  | '[' :: rest =>
    match bracketed rest with
    | some inner => ipv6? inner
    | none => .error .invalidIpv6
  | cs =>
    if cs.any isOpaqueForbidden then .error .invalidCharacter
    else .ok (.domain (String.ofList (encode controlSet cs)))

def groupsText (gs : List UInt16) : List Char :=
  let (start, length) := Ip.V6.longestZeros 0 gs
  if 1 < length then
    Ip.V6.joined (gs.take start) ++ ':' :: ':' :: Ip.V6.joined (gs.drop (start + length))
  else Ip.V6.joined gs

def text : Host → String
  | .domain name => name
  | .ipv4 addr => String.ofList addr.text
  | .ipv6 addr => String.ofList ('[' :: groupsText addr.groups ++ [']'])

end Host

end EidMap.Url
