import EidMap.Ip.V4

/-!
IPv6 addresses and their text: eight groups of up to four hexadecimal digits, one run of zero
groups written as a double colon, and the last two groups possibly as an IPv4 address. The text of an
address shortens its longest run of zeros, the first of equal runs; an IPv4-mapped address shows its
IPv4 part.
-/

namespace EidMap.Ip

structure V6 where
  groups : List UInt16
  eight : groups.length = 8
deriving DecidableEq

namespace V6

def ofGroups? (gs : List UInt16) : Option V6 :=
  if h : gs.length = 8 then some ⟨gs, h⟩ else none

def pair (hi lo : UInt8) : UInt16 := hi.toUInt16 * 256 + lo.toUInt16

def groupHead? (cs : List Char) : Option (UInt16 × List Char) :=
  let ds := cs.takeWhile Text.isHex
  if ds.isEmpty || 4 < ds.length then none
  else some (UInt16.ofNat (Text.ofHex ds), cs.dropWhile Text.isHex)

def separated? (first : Bool) : List Char → Option (List Char)
  | cs => if first then some cs else match cs with
    | ':' :: cs => some cs
    | _ => none

def groupsHead (room : Nat) (first : Bool) (cs : List Char) :
    List UInt16 × Bool × List Char :=
  match room with
  | 0 => ([], false, cs)
  | room + 1 =>
    match if room = 0 then none else separated? first cs >>= V4.readHead? with
    | some (v, rest) => ([pair v.a v.b, pair v.c v.d], true, rest)
    | none =>
      match separated? first cs >>= groupHead? with
      | none => ([], false, cs)
      | some (g, rest) =>
        let (gs, four, rest) := groupsHead room false rest
        (g :: gs, four, rest)

/-- A double colon stands for at least one zero group. -/
def read? (cs : List Char) : Option V6 :=
  match groupsHead 8 true cs with
  | (head, four, rest) =>
    if head.length = 8 then if rest.isEmpty then ofGroups? head else none
    else if four then none
    else
      match rest with
      | ':' :: ':' :: rest =>
        match groupsHead (7 - head.length) true rest with
        | (tail, _, []) =>
          ofGroups? (head ++ List.replicate (8 - head.length - tail.length) 0 ++ tail)
        | _ => none
      | _ => none

def zeroRun (gs : List UInt16) : Nat := (gs.takeWhile (· == 0)).length

/-- Start and length of the longest run of zeros; of equal runs the first. -/
def longestZeros : (start : Nat) → List UInt16 → Nat × Nat
  | _, [] => (0, 0)
  | start, g :: gs =>
    let here := zeroRun (g :: gs)
    let later := longestZeros (start + 1) gs
    if later.2 ≤ here then (start, here) else later

def joined : List UInt16 → List Char
  | [] => []
  | [g] => Text.hexDigits g.toNat
  | g :: gs => Text.hexDigits g.toNat ++ ':' :: joined gs

def high (g : UInt16) : UInt8 := (g / 256).toUInt8
def low (g : UInt16) : UInt8 := g.toUInt8

def groupsText (gs : List UInt16) : List Char :=
  match gs with
  | [0, 0, 0, 0, 0, 0xffff, g, h] =>
    "::ffff:".toList ++ V4.text ⟨high g, low g, high h, low h⟩
  | gs =>
    let (start, length) := longestZeros 0 gs
    if 1 < length then
      joined (gs.take start) ++ ':' :: ':' :: joined (gs.drop (start + length))
    else joined gs

def text (v : V6) : List Char := groupsText v.groups

end V6

end EidMap.Ip
