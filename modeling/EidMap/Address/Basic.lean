import EidMap.Ip.V6
import EidMap.Json.Decode

/-!
Addresses of the locator/ID separation protocol: plain address families and the nested canonical
address formats (LCAF), with the code numbers under which they are registered.
-/

namespace EidMap

structure Hop (α : Type) where
  id : Option String
  address : α
  lrsBits : Option String

structure Flow where
  tos : UInt32
  protocol : UInt8
  localLow : UInt16
  localHigh : UInt16
  remoteLow : UInt16
  remoteHigh : UInt16
deriving DecidableEq

structure Unreadable where
  message : String
deriving DecidableEq

namespace Unreadable

def notAddress : Unreadable := ⟨"not an address"⟩
def missingType : Unreadable := ⟨"missing address-type"⟩
def missingPayload : Unreadable := ⟨"missing payload"⟩
def asNumberOutOfRange : Unreadable := ⟨"AS number out of range"⟩
def notIpv4 (payload : Json) : Unreadable := ⟨"not an IPv4 address: " ++ payload.compact⟩
def notIpv6 (payload : Json) : Unreadable := ⟨"not an IPv6 address: " ++ payload.compact⟩
def notString (payload : Json) : Unreadable := ⟨"expected a string, got " ++ payload.compact⟩
def notAsNumber (payload : Json) : Unreadable := ⟨"not an AS number: " ++ payload.compact⟩
def unsupported (tag : String) : Unreadable := ⟨"unsupported address type '" ++ tag ++ "'"⟩
def undecodable (e : Json.DecodeError) : Unreadable := ⟨e.message⟩

end Unreadable

/-- An address: a plain family, or a canonical format around other addresses. What cannot be read is
kept with the JSON value it came from. -/
inductive Address
  | noAddress
  | ipv4 (addr : Ip.V4) (length : Option UInt8)
  | ipv6 (addr : Ip.V6) (length : Option UInt8)
  | mac (text : String)
  | distinguishedName (name : String)
  | asNumber (number : UInt32)
  | list (members : List Address)
  | instanceId (iid : UInt32) (mask : UInt8) (address : Address)
  | applicationData (address : Address) (flow : Flow)
  | locatorPath (hops : List (Hop Address))
  | sourceDest (source : Address) (sourceMask : UInt8) (dest : Address) (destMask : UInt8)
  | keyValue (key value : Address)
  | unrenderable (tag : String) (reason : Unreadable) (raw : Json)

namespace Address

mutual
def beq : Address → Address → Bool
  | .noAddress, .noAddress => true
  | .ipv4 a m, .ipv4 b n => a == b && m == n
  | .ipv6 a m, .ipv6 b n => a == b && m == n
  | .mac s, .mac t => s == t
  | .distinguishedName s, .distinguishedName t => s == t
  | .asNumber m, .asNumber n => m == n
  | .list xs, .list ys => beqMembers xs ys
  | .instanceId i m x, .instanceId j n y => i == j && m == n && beq x y
  | .applicationData x f, .applicationData y g => beq x y && f == g
  | .locatorPath xs, .locatorPath ys => beqHops xs ys
  | .sourceDest s m d n, .sourceDest s' m' d' n' => beq s s' && m == m' && beq d d' && n == n'
  | .keyValue k v, .keyValue k' v' => beq k k' && beq v v'
  | .unrenderable s r v, .unrenderable t q w => s == t && r == q && v == w
  | _, _ => false

def beqMembers : List Address → List Address → Bool
  | [], [] => true
  | x :: xs, y :: ys => beq x y && beqMembers xs ys
  | _, _ => false

def beqHops : List (Hop Address) → List (Hop Address) → Bool
  | [], [] => true
  | ⟨i, x, a⟩ :: xs, ⟨j, y, b⟩ :: ys => i == j && beq x y && a == b && beqHops xs ys
  | _, _ => false
end

instance : BEq Address := ⟨beq⟩

def afi : Address → Option UInt16
  | .noAddress => some 0
  | .ipv4 .. => some 1
  | .ipv6 .. => some 2
  | .distinguishedName _ => some 17
  | .asNumber _ => some 18
  | .mac _ => some 16389
  | .unrenderable .. => none
  | _ => some 16387

def lcafType : Address → Option UInt8
  | .list _ => some 1
  | .instanceId .. => some 2
  | .applicationData .. => some 4
  | .locatorPath _ => some 10
  | .sourceDest .. => some 12
  | .keyValue .. => some 15
  | _ => none

def isScalar : Address → Bool
  | .noAddress | .ipv4 .. | .ipv6 .. | .mac _ | .distinguishedName _ | .asNumber _ => true
  | _ => false

def hostMask : Address → UInt8
  | .ipv4 .. => 32
  | .ipv6 .. => 128
  | _ => 0

def splitPrefix : Address → Address × UInt8
  | .ipv4 addr length => (.ipv4 addr none, length.getD 32)
  | .ipv6 addr length => (.ipv6 addr none, length.getD 128)
  | a => (a, a.hostMask)

/-- The address inside an instance; one that is in an instance stays there. -/
def withInstanceId (a : Address) (iid : UInt32) (mask : UInt8) : Address :=
  match a with
  | .instanceId .. => a
  | a => .instanceId iid mask a

def scopeToVni (a : Address) (vni : UInt32) : Address :=
  if vni = 0 then a else a.withInstanceId vni 32

/-- Six pairs of hexadecimal digits between colons, or between hyphens if there is no colon. -/
def isMac (cs : List Char) : Bool :=
  let sep := if cs.contains ':' then ':' else '-'
  let octets := Text.pieces sep cs
  octets.length == 6 && octets.all fun o => o.length == 2 && o.all Text.isHex

def cutLength (cs : List Char) : List Char × Option UInt8 :=
  match Text.cutLast '/' cs with
  | none => (cs, none)
  | some (before, after) =>
    match Text.uint8? after with
    | some n => (before, some n)
    | none => (cs, none)

/-- The address that a bare text is: IPv4 or IPv6 with a mask length in range, a MAC address, or
else a name. -/
def ofSimple (cs : List Char) : Address :=
  let (host, length) := cutLength cs
  match Ip.V4.read? host with
  | some v => if length.all (· ≤ 32) then .ipv4 v length else other host length
  | none => other host length
where
  other (host : List Char) (length : Option UInt8) : Address :=
    match Ip.V6.read? host with
    | some v => if length.all (· ≤ 128) then .ipv6 v length else named
    | none => named
  named : Address :=
    if isMac cs then .mac (String.ofList cs) else .distinguishedName (String.ofList cs)

end Address

end EidMap
