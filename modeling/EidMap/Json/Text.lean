import EidMap.Json.Basic

/-!
The text of a JSON value: on one line without spaces, or indented by some spaces a level. Fields keep
their order; of the characters only quotes, backslashes and those below U+0020 are escaped.
-/

namespace EidMap.Json

def Number.text : Number → String
  | .integer z => Text.intText z
  | .real d => String.ofList d.text

def escaped (c : Char) : List Char :=
  match c with
  | '"' => ['\\', '"']
  | '\\' => ['\\', '\\']
  | '\n' => ['\\', 'n']
  | '\r' => ['\\', 'r']
  | '\t' => ['\\', 't']
  | c =>
    if c.toNat = 8 then ['\\', 'b']
    else if c.toNat = 12 then ['\\', 'f']
    else if c.toNat < 32 then ['\\', 'u'] ++ Text.padZeros 4 (Text.hexDigits c.toNat)
    else [c]

def quoted (s : String) : String :=
  String.ofList ('"' :: s.toList.flatMap escaped ++ ['"'])

mutual
def compact : Json → String
  | .null => "null"
  | .bool b => if b then "true" else "false"
  | .number n => n.text
  | .string s => quoted s
  | .array xs => "[" ++ compactItems xs ++ "]"
  | .object fs => "\x7b" ++ compactFields fs ++ "\x7d"

def compactItems : List Json → String
  | [] => ""
  | [x] => compact x
  | x :: xs => compact x ++ "," ++ compactItems xs

def compactFields : List (String × Json) → String
  | [] => ""
  | [(k, v)] => quoted k ++ ":" ++ compact v
  | (k, v) :: fs => quoted k ++ ":" ++ compact v ++ "," ++ compactFields fs
end

def margin (width depth : Nat) : String :=
  "\n" ++ String.ofList (List.replicate (width * depth) ' ')

mutual
def indented (width depth : Nat) : Json → String
  | .array [] => "[]"
  | .array xs => "[" ++ indentedItems width (depth + 1) xs ++ margin width depth ++ "]"
  | .object [] => "\x7b\x7d"
  | .object fs => "\x7b" ++ indentedFields width (depth + 1) fs ++ margin width depth ++ "\x7d"
  | v => compact v

def indentedItems (width depth : Nat) : List Json → String
  | [] => ""
  | [x] => margin width depth ++ indented width depth x
  | x :: xs => margin width depth ++ indented width depth x ++ "," ++ indentedItems width depth xs

def indentedFields (width depth : Nat) : List (String × Json) → String
  | [] => ""
  | [(k, v)] => margin width depth ++ quoted k ++ ": " ++ indented width depth v
  | (k, v) :: fs =>
    margin width depth ++ quoted k ++ ": " ++ indented width depth v ++ "," ++
      indentedFields width depth fs
end

def pretty (width : Nat) (v : Json) : String := indented width 0 v

end EidMap.Json
