import EidMap.Json.Basic
import EidMap.Json.Lexeme
import EidMap.Text.Cut

/-!
The text of a JSON value as YAML in block style. A string stands as it is unless it would be read as
something else; then it is put between apostrophes, or between quotes with escapes where a character
does not print. Text with line ends is written line by line.
-/

namespace EidMap.Yaml

def isBased (isDigit : Char → Bool) (ds : List Char) : Bool := !ds.isEmpty && ds.all isDigit

def isInteger (cs : List Char) : Bool :=
  match cs with
  | '0' :: 'x' :: ds => isBased Text.isHex ds
  | '0' :: 'o' :: ds => isBased (fun c => '0' ≤ c && c ≤ '7') ds
  | '0' :: 'b' :: ds => isBased (fun c => c == '0' || c == '1') ds
  | ds => isBased Char.isDigit ds

def isExponent (cs : List Char) : Bool :=
  match cs with
  | [] => true
  | _ :: '+' :: ds => isBased Char.isDigit ds
  | _ :: '-' :: ds => isBased Char.isDigit ds
  | _ :: ds => isBased Char.isDigit ds

def isFraction (cs : List Char) : Bool :=
  let front := cs.takeWhile fun c => c != 'e' && c != 'E'
  let digits := match Text.cutFirst '.' front with
    | some (w, f) => w ++ f
    | none => front
  isBased Char.isDigit digits && isExponent (cs.dropWhile fun c => c != 'e' && c != 'E')

def unsigned : List Char → List Char
  | '+' :: cs => cs
  | '-' :: cs => cs
  | cs => cs

def isNumber (cs : List Char) : Bool := isInteger (unsigned cs) || isFraction (unsigned cs)

def reserved : List String :=
  ["", "~", "null", "Null", "NULL", "true", "True", "TRUE", "false", "False", "FALSE", ".inf",
    ".Inf", ".INF", "+.inf", "+.Inf", "+.INF", "-.inf", "-.Inf", "-.INF", ".nan", ".NaN", ".NAN"]

def needsQuotes (s : String) : Bool := reserved.contains s || isNumber s.toList

def isBreak (c : Char) : Bool :=
  let n := c.toNat
  n == 10 || n == 13 || n == 0x85 || n == 0x2028 || n == 0x2029

def isBlank (c : Char) : Bool := c == ' ' || c == '\t' || isBreak c

/-- Does the character print, as far as the basic plane goes? -/
def prints (c : Char) : Bool :=
  let n := c.toNat
  n == 10 || (0x20 ≤ n && n ≤ 0x7E) || (0xA0 ≤ n && n ≤ 0xD7FF) ||
    (0xE000 ≤ n && n ≤ 0xFFFD && n != 0xFEFF)

def isIndicator (c : Char) : Bool := "#,[]\x7b\x7d&*!|>'\"%@`".toList.contains c

def hasIndicator : (afterBlank : Bool) → List Char → Bool
  | _, [] => false
  | afterBlank, c :: cs =>
    (c == ':' && (cs.head?.map isBlank).getD true) || (c == '#' && afterBlank) ||
      hasIndicator (isBlank c) cs

def startsLikeMark (cs : List Char) : Bool :=
  cs.take 3 == ['-', '-', '-'] || cs.take 3 == ['.', '.', '.']

def hasMeaning (cs : List Char) : Bool :=
  match cs with
  | [] => false
  | c :: rest =>
    let blankNext := (rest.head?.map isBlank).getD true
    startsLikeMark cs || isIndicator c ||
      ((c == '?' || c == ':' || c == '-') && blankNext) || hasIndicator (isBlank c) rest

def adjacent (p q : Char → Bool) : List Char → Bool
  | c :: d :: cs => (p c && q d) || adjacent p q (d :: cs)
  | _ => false

def isSpace (c : Char) : Bool := c == ' '

def isSpecial (cs : List Char) : Bool := adjacent isSpace isBreak cs || !cs.all prints

def mayBePlain (cs : List Char) : Bool :=
  let edge (c? : Option Char) := (c?.map fun c => isSpace c || isBreak c).getD false
  !edge cs.head? && !edge cs.getLast? && !cs.any isBreak && !hasMeaning cs && !isSpecial cs

def mayBeQuotedSimply (cs : List Char) : Bool := !adjacent isBreak isSpace cs && !isSpecial cs

def mayBeLines (cs : List Char) : Bool :=
  !cs.isEmpty && cs.getLast? != some ' ' && !isSpecial cs

def simplyQuoted (cs : List Char) : List Char :=
  '\'' :: cs.flatMap (fun c => if c = '\'' then ['\'', '\''] else [c]) ++ ['\'']

def hexText (width n : Nat) : List Char :=
  Text.padZeros width ((Text.hexDigits n).map Char.toUpper)

def letters : List (Nat × Char) :=
  [(0, '0'), (7, 'a'), (8, 'b'), (9, 't'), (10, 'n'), (11, 'v'), (12, 'f'), (13, 'r'), (27, 'e'),
    (0x22, '"'), (0x5C, '\\'), (0x85, 'N'), (0x2028, 'L'), (0x2029, 'P')]

def escaped (c : Char) : List Char :=
  let n := c.toNat
  if prints c && !isBreak c && c != '"' && c != '\\' then [c]
  else
    match letters.lookup n with
    | some l => ['\\', l]
    | none =>
      if n ≤ 0xFF then ['\\', 'x'] ++ hexText 2 n
      else if n ≤ 0xFFFF then ['\\', 'u'] ++ hexText 4 n
      else ['\\', 'U'] ++ hexText 8 n

def fullyQuoted (cs : List Char) : List Char := '"' :: cs.flatMap escaped ++ ['"']

/-- The head of a text written line by line: how far it is indented where its first line does not
show it, and what becomes of the line ends at its end. -/
def linesHead (cs : List Char) : List Char :=
  let hint := if (cs.head?.map fun c => isSpace c || isBreak c).getD false then ['2'] else []
  let keep := match cs.reverse with
    | c :: rest =>
      if !isBreak c then ['-']
      else
        match rest with
        | [] => ['+']
        | d :: _ => if isBreak d then ['+'] else []
    | [] => ['-']
  '|' :: hint ++ keep

def linesBody (cs : List Char) : List (List Char) :=
  let lines := Text.pieces '\n' cs
  if cs.getLast? == some '\n' then lines.dropLast else lines

def indented (width : Nat) (line : List Char) : List Char :=
  if line.isEmpty then [] else List.replicate width ' ' ++ line

def onLine (s : String) : List Char :=
  let cs := s.toList
  if !needsQuotes s && mayBePlain cs then cs
  else if mayBeQuotedSimply cs then simplyQuoted cs
  else fullyQuoted cs

/-- The lines of a string; those after the first stand two columns further right than their
container. -/
def stringLines (s : String) : List (List Char) :=
  let cs := s.toList
  if !cs.contains '\n' then [onLine s]
  else if mayBeLines cs then linesHead cs :: (linesBody cs).map (indented 2)
  else [fullyQuoted cs]

def scalarLines : Json → List (List Char)
  | .null => ["null".toList]
  | .bool b => [(if b then "true" else "false").toList]
  | .number (.integer z) => [(Text.intText z).toList]
  | .number (.real d) => [d.text.filter (· != '+')]
  | .string s => stringLines s
  | .array _ => [['[', ']']]
  | .object _ => [['\x7b', '\x7d']]

def behind (mark : List Char) : List (List Char) → List (List Char)
  | [] => []
  | l :: ls => (mark ++ l) :: ls.map (indented 2)

def after (mark : List Char) : List (List Char) → List (List Char)
  | [] => []
  | l :: ls => (mark ++ l) :: ls

def isSimpleName (s : String) : Bool := s.utf8ByteSize ≤ 128 && !s.toList.any isBreak

mutual
def lines : Json → List (List Char)
  | .array (x :: xs) => itemLines (x :: xs)
  | .object (f :: fs) => fieldLines (f :: fs)
  | v => scalarLines v

def itemLines : List Json → List (List Char)
  | [] => []
  | .array (x :: xs) :: vs => behind ['-', ' '] (itemLines (x :: xs)) ++ itemLines vs
  | .object (f :: fs) :: vs => behind ['-', ' '] (fieldLines (f :: fs)) ++ itemLines vs
  | v :: vs => after ['-', ' '] (scalarLines v) ++ itemLines vs

def fieldLines : List (String × Json) → List (List Char)
  | [] => []
  | (k, v) :: fs =>
    let value := match v with
      | .array (x :: xs) =>
        if isSimpleName k then (onLine k ++ [':']) :: itemLines (x :: xs)
        else behind [':', ' '] (itemLines (x :: xs))
      | .object (g :: gs) =>
        if isSimpleName k then (onLine k ++ [':']) :: (fieldLines (g :: gs)).map (indented 2)
        else behind [':', ' '] (fieldLines (g :: gs))
      | v => after (if isSimpleName k then onLine k ++ [':', ' '] else [':', ' ']) (scalarLines v)
    (if isSimpleName k then [] else after ['?', ' '] (stringLines k)) ++ value ++ fieldLines fs
end

def text (v : Json) : String :=
  String.ofList ((lines v).flatMap fun l => l ++ ['\n'])

end EidMap.Yaml
