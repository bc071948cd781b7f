import EidMap.Url.Percent

/-!
Domain names of a URL. ASCII names are put into lower case and must hold none of the forbidden
characters; a label with other characters is put into lower case by simple rules for Latin, Greek,
Cyrillic and full-width letters, and is written in its ASCII-compatible encoding.

This is less than what the tables of Unicode ask of a name. Letters are not composed with the marks
behind them, a character outside those rules stays as it is where it should be mapped or refused, and
a label that already is in the ASCII-compatible encoding is not looked into. Names of ASCII without
such labels, and names of those letters, come out as they should.
-/

namespace EidMap.Url

namespace Punycode

def digitChar (d : Nat) : Char :=
  if d < 26 then Char.ofNat (97 + d) else Char.ofNat (22 + d)

def threshold (k bias : Nat) : Nat :=
  if k ≤ bias then 1 else if bias + 26 ≤ k then 26 else k - bias

theorem threshold_pos (k bias : Nat) : 1 ≤ threshold k bias := by
  unfold threshold
  split
  · omega
  · split <;> omega

def differenceDigits (bias k q : Nat) : List Char :=
  let t := threshold k bias
  if q < t then [digitChar q]
  else
    digitChar (t + (q - t) % (36 - t)) :: differenceDigits bias (k + 36) ((q - t) / (36 - t))
termination_by q
decreasing_by
  have h := threshold_pos k bias
  have := Nat.div_le_self (q - threshold k bias) (36 - threshold k bias)
  omega

def settle (delta k : Nat) : Nat × Nat :=
  if 455 < delta then settle (delta / 35) (k + 36) else (delta, k)
termination_by delta
decreasing_by omega

def adapt (delta count : Nat) (first : Bool) : Nat :=
  let delta := if first then delta / 700 else delta / 2
  let (delta, k) := settle (delta + delta / count) 0
  k + 36 * delta / (delta + 38)

structure State where
  out : List Char
  delta : Nat
  bias : Nat
  handled : Nat

def visit (basic point : Nat) (s : State) (c : Char) : State :=
  if c.toNat < point then { s with delta := s.delta + 1 }
  else if c.toNat = point then
    ⟨s.out ++ differenceDigits s.bias 36 s.delta, 0,
      adapt s.delta (s.handled + 1) (s.handled == basic),
      s.handled + 1⟩
  else s

def points (cs : List Char) : List Nat :=
  cs.foldl (fun ps c => if c.toNat < 128 then ps else insert c.toNat ps) []
where
  insert (n : Nat) : List Nat → List Nat
    | [] => [n]
    | p :: ps => if n < p then n :: p :: ps else if n = p then p :: ps else p :: insert n ps

def encode (cs : List Char) : List Char :=
  let basic := cs.filter fun c => c.toNat < 128
  let start : State × Nat := (⟨[], 0, 72, basic.length⟩, 128)
  let (s, _) := (points cs).foldl (fun (s, next) point =>
    let s := { s with delta := s.delta + (point - next) * (s.handled + 1) }
    let s := cs.foldl (visit basic.length point) s
    ({ s with delta := s.delta + 1 }, point + 1)) start
  basic ++ (if basic.isEmpty then [] else ['-']) ++ s.out

end Punycode

/-- Lower case of a letter: the neighbour, or the letter at a fixed distance. -/
def lowerChar (c : Char) : Char :=
  let n := c.toNat
  if n < 128 then c.toLower
  else if (0xC0 ≤ n && n ≤ 0xDE && n ≠ 0xD7) || (0x391 ≤ n && n ≤ 0x3AB) || (0x410 ≤ n && n ≤ 0x42F)
  then Char.ofNat (n + 32)
  else if 0x400 ≤ n && n ≤ 0x40F then Char.ofNat (n + 80)
  else if (0x100 ≤ n && n ≤ 0x137 && n ≠ 0x130) || (0x14A ≤ n && n ≤ 0x177) then
    Char.ofNat (n + (n + 1) % 2)
  else if (0x139 ≤ n && n ≤ 0x148) || (0x179 ≤ n && n ≤ 0x17E) then Char.ofNat (n + n % 2)
  else if 0xFF01 ≤ n && n ≤ 0xFF5E then (Char.ofNat (n - 0xFEE0)).toLower
  else if n = 0x3002 || n = 0xFF0E || n = 0xFF61 then '.'
  else c

def isForbidden (c : Char) : Bool :=
  c.toNat < 0x20 || c.toNat == 0x7F || " #%/:<>?@[\\]^|".toList.contains c

def asciiLabel (cs : List Char) : List Char :=
  if cs.all (·.toNat < 128) then cs else 'x' :: 'n' :: '-' :: '-' :: Punycode.encode cs

/-- The ASCII form of a name, unless it holds a forbidden character; of names beyond ASCII this is the
part that the head of the module tells. -/
def asciiName? (cs : List Char) : Option (List Char) :=
  let mapped := (cs.filter fun c => c.toNat ≠ 0xAD && c.toNat ≠ 0x200B).map lowerChar
  let labels := (Text.pieces '.' mapped).map asciiLabel
  let name := List.intercalate ['.'] labels
  if name.any isForbidden then none else some name

end EidMap.Url
