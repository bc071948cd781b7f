import EidMap.Toml.Basic

/-!
The text of a tree of settings. A table is written under its own header unless it holds nothing but
tables; the tables follow one another after blank lines. A string is written in the first form of
these that needs no escapes: between quotes, between apostrophes, and the two over several lines.
-/

namespace EidMap.Toml

def longestRun (q : Char) : (run : Nat) → List Char → Nat
  | run, [] => run
  | run, c :: cs => if c = q then longestRun q (run + 1) cs else max run (longestRun q 0 cs)

def isControl (c : Char) : Bool := c.toNat < 0x20 || c.toNat == 0x7F

def escaped (c : Char) : List Char :=
  match c with
  | '\t' => ['\\', 't']
  | '\n' => ['\\', 'n']
  | '\r' => ['\\', 'r']
  | '\\' => ['\\', '\\']
  | c =>
    if c.toNat = 8 then ['\\', 'b']
    else if c.toNat = 12 then ['\\', 'f']
    else if isControl c then
      ['\\', 'u'] ++ Text.padZeros 4 ((Text.hexDigits c.toNat).map Char.toUpper)
    else [c]

/-- The characters between quotes, of which `free` in a row need no escape; `run` came just before.
Over several lines a line end stands for itself. -/
def body (free : Nat) (lines : Bool) : (run : Nat) → List Char → List Char
  | _, [] => []
  | run, c :: cs =>
    if c = '"' then
      if run < free then c :: body free lines (run + 1) cs else '\\' :: c :: body free lines 0 cs
    else if c = '\n' && lines then c :: body free lines 0 cs
    else escaped c ++ body free lines 0 cs

def onLine (cs : List Char) : List Char := '"' :: body 0 false 0 cs ++ ['"']

def literal (cs : List Char) : List Char := '\'' :: cs ++ ['\'']

def fenced (fence cs inner : List Char) : List Char :=
  fence ++ (if cs.contains '\n' then ['\n'] else []) ++ inner ++ fence

def onLines (cs : List Char) : List Char := fenced ['"', '"', '"'] cs (body 2 true 0 cs)

def literalLines (cs : List Char) : List Char := fenced ['\'', '\'', '\''] cs cs

def stringText (cs : List Char) : List Char :=
  let coded := cs.any fun c => isControl c && c != '\t' && c != '\n'
  let escapes := coded || cs.contains '\\'
  let quotes := longestRun '"' 0 cs
  let apostrophes := longestRun '\'' 0 cs
  let broken := cs.contains '\n'
  if !escapes && quotes == 0 && !broken then onLine cs
  else if !coded && apostrophes == 0 && !broken then literal cs
  else if !escapes && quotes ≤ 2 then onLines cs
  else if !coded && apostrophes ≤ 2 then literalLines cs
  else if broken then onLines cs
  else onLine cs

def isBareName (cs : List Char) : Bool :=
  !cs.isEmpty && cs.all fun c => c.isAlphanum || c == '_' || c == '-'

def nameText (s : String) : List Char :=
  let cs := s.toList
  let coded := cs.any fun c => isControl c && c != '\t'
  if isBareName cs then cs
  else if !coded && !cs.contains '\\' && !cs.contains '"' then onLine cs
  else if !coded && !cs.contains '\'' then literal cs
  else onLine cs

def pathText (path : List String) : List Char :=
  List.intercalate ['.'] (path.map nameText)

mutual
def inlineText : Toml → List Char
  | .string s => stringText s.toList
  | .integer z => (Text.intText z).toList
  | .real d => d.text
  | .boolean b => (if b then "true" else "false").toList
  | .datetime s => s.toList
  | .array xs => '[' :: inlineItems xs ++ [']']
  | .table es => ['\x7b', ' '] ++ inlineEntries es ++ [' ', '\x7d']

def inlineItems : List Toml → List Char
  | [] => []
  | [x] => inlineText x
  | x :: xs => inlineText x ++ [',', ' '] ++ inlineItems xs

def inlineEntries : List (String × Toml) → List Char
  | [] => []
  | [(k, v)] => nameText k ++ [' ', '=', ' '] ++ inlineText v
  | (k, v) :: es => nameText k ++ [' ', '=', ' '] ++ inlineText v ++ [',', ' '] ++ inlineEntries es
end

def isTable : Toml → Bool
  | .table _ => true
  | _ => false

def ownLines (es : List (String × Toml)) : List Char :=
  (es.filter fun (_, v) => !isTable v).flatMap fun (k, v) =>
    nameText k ++ [' ', '=', ' '] ++ inlineText v ++ ['\n']

mutual
def blocks (path : List String) : Toml → List (List Char)
  | .table es =>
    let own := ownLines es
    let head := if own.isEmpty && !es.isEmpty then []
      else [['['] ++ pathText path ++ [']', '\n'] ++ own]
    head ++ blocksOf path es
  | _ => []

def blocksOf (path : List String) : List (String × Toml) → List (List Char)
  | [] => []
  | (k, v) :: es => blocks (path ++ [k]) v ++ blocksOf path es
end

def documentText (es : List (String × Toml)) : String :=
  let own := ownLines es
  let parts := (if own.isEmpty then [] else [own]) ++ blocksOf [] es
  String.ofList (List.intercalate ['\n'] parts)

end EidMap.Toml
