import EidMap.Json.Lexeme

/-!
JSON text as a tree in document order. The tree ends where the text stops to make sense; the place
of the fault is a part of it. So a reader that asks for the parts in order meets exactly the first
fault among those it visits, and one that passes over a part meets only the faults that keep it from
finding the part's end.
-/

namespace EidMap.Json

/-- A fault after which the text cannot go on, as asking for the value and passing over it see it. -/
structure Break where
  read : Fault
  skip : Fault

def Break.both (f : Fault) : Break := ⟨f, f⟩

inductive Doc
  | null
  | bool (b : Bool)
  | number (n : Number)
  | string (s : String)
  | array (depth : Nat) (items : List Doc) (close : Option Break)
  | object (depth : Nat) (fields : List (Except Fault String × Doc)) (close : Option Break)
  /-- Reading fails with the first fault; passing over fails with the second or goes on. -/
  | faulty (read : Fault) (skip : Option Fault)
deriving Inhabited

namespace Doc

def leaf (value : Except Fault Doc) (rest : Except Fault (List Char)) :
    Doc × Option (List Char) :=
  match value, rest with
  | .ok d, .ok r => (d, some r)
  | .error f, .ok r => (.faulty f none, some r)
  | .error f, .error g => (.faulty f (some g), none)
  | .ok _, .error g => (.faulty g (some g), none)

def word (w : List Char) (d : Doc) (cs : List Char) : Doc × Option (List Char) :=
  leaf ((wordRest w cs).map fun _ => d) (wordRest w cs)

def numeral (negative : Bool) (cs : List Char) : Doc × Option (List Char) :=
  match numeralHead cs with
  | .ok (x, rest) => leaf ((x.value negative).map .number) (.ok rest)
  | .error gap => leaf (.error gap.readFault) (.error .invalidNumber)

def text (cs : List Char) : Doc × Option (List Char) :=
  leaf ((stringBody cs).map fun (s, _) => .string (String.ofList s)) (stringRest cs)

mutual
def value (fuel depth : Nat) (cs : List Char) : Doc × Option (List Char) :=
  match fuel with
  | 0 => leaf (.error .endInValue) (.error .endInValue)
  | fuel + 1 =>
    match dropSpace cs with
    | [] => leaf (.error .endInValue) (.error .endInValue)
    | 'n' :: cs => word ['u', 'l', 'l'] .null cs
    | 't' :: cs => word ['r', 'u', 'e'] (.bool true) cs
    | 'f' :: cs => word ['a', 'l', 's', 'e'] (.bool false) cs
    | '-' :: cs => numeral true cs
    | '"' :: cs => text cs
    | '[' :: cs =>
      let (ds, close, rest) := items fuel (depth + 1) true cs
      (.array (depth + 1) ds close, rest)
    | '\x7b' :: cs =>
      let (fs, close, rest) := fields fuel (depth + 1) true cs
      (.object (depth + 1) fs close, rest)
    | c :: cs =>
      if c.isDigit then numeral false (c :: cs)
      else leaf (.error .expectedValue) (.error .expectedValue)

def items (fuel depth : Nat) (first : Bool) (cs : List Char) :
    List Doc × Option Break × Option (List Char) :=
  match fuel with
  | 0 => ([], some (.both .endInList), none)
  | fuel + 1 =>
    match dropSpace cs with
    | [] => ([], some (.both .endInList), none)
    | ']' :: cs => ([], none, some cs)
    | c :: cs =>
      if first then element fuel depth (c :: cs)
      else if c = ',' then
        match dropSpace cs with
        | [] => ([], some (.both .endInValue), none)
        | ']' :: _ => ([], some ⟨.trailingComma, .expectedValue⟩, none)
        | cs => element fuel depth cs
      else ([], some (.both .expectedListEnd), none)

def element (fuel depth : Nat) (cs : List Char) :
    List Doc × Option Break × Option (List Char) :=
  match fuel with
  | 0 => ([], some (.both .endInList), none)
  | fuel + 1 =>
    match value fuel depth cs with
    | (d, none) => ([d], none, none)
    | (d, some cs) =>
      let (ds, close, rest) := items fuel depth false cs
      (d :: ds, close, rest)

def fields (fuel depth : Nat) (first : Bool) (cs : List Char) :
    List (Except Fault String × Doc) × Option Break × Option (List Char) :=
  match fuel with
  | 0 => ([], some (.both .endInObject), none)
  | fuel + 1 =>
    match dropSpace cs with
    | [] => ([], some (.both .endInObject), none)
    | '\x7d' :: cs => ([], none, some cs)
    | c :: cs =>
      if first then
        if c = '"' then field fuel depth cs else ([], some (.both .keyNotString), none)
      else if c = ',' then
        match dropSpace cs with
        | [] => ([], some ⟨.endInValue, .endInObject⟩, none)
        | '"' :: cs => field fuel depth cs
        | '\x7d' :: _ => ([], some ⟨.trailingComma, .keyNotString⟩, none)
        | _ => ([], some (.both .keyNotString), none)
      else ([], some (.both .expectedObjectEnd), none)

def field (fuel depth : Nat) (cs : List Char) :
    List (Except Fault String × Doc) × Option Break × Option (List Char) :=
  match fuel with
  | 0 => ([], some (.both .endInObject), none)
  | fuel + 1 =>
    let key := (stringBody cs).map fun (s, _) => String.ofList s
    let uncoloned (f : Fault) : List (Except Fault String × Doc) := [(key, .faulty f (some f))]
    match stringRest cs with
    | .error g =>
      match key with
      | .error f => ([], some ⟨f, g⟩, none)
      | .ok _ => ([], some (.both g), none)
    | .ok rest =>
      match dropSpace rest with
      | [] => (uncoloned .endInObject, none, none)
      | c :: rest =>
        if c ≠ ':' then (uncoloned .expectedColon, none, none)
        else
          match value fuel depth rest with
          | (d, none) => ([(key, d)], none, none)
          | (d, some rest) =>
            let (fs, close, rest) := fields fuel depth false rest
            ((key, d) :: fs, close, rest)
end

/-- The document at the start of a text and what follows it. Every step takes a character after at
most two nested calls, so the length bounds the recursion. -/
def ofText (s : String) : Doc × Option (List Char) :=
  let cs := s.toList
  value (3 * cs.length + 3) 0 cs

mutual
def skip : Doc → Option Fault
  | .array _ ds close => skipItems ds <|> close.map Break.skip
  | .object _ fs close => skipFields fs <|> close.map Break.skip
  | .faulty _ f => f
  | _ => none

def skipItems : List Doc → Option Fault
  | [] => none
  | d :: ds => skip d <|> skipItems ds

def skipFields : List (Except Fault String × Doc) → Option Fault
  | [] => none
  | (_, d) :: fs => skip d <|> skipFields fs
end

def maxDepth : Nat := 127

mutual
def capture : Doc → Except Fault Json
  | .null => .ok .null
  | .bool b => .ok (.bool b)
  | .number n => .ok (.number n)
  | .string s => .ok (.string s)
  | .array depth ds close =>
    if maxDepth < depth then .error .tooDeep
    else
      match captureItems ds, close with
      | .error f, _ => .error f
      | .ok _, some b => .error b.read
      | .ok xs, none => .ok (.array xs)
  | .object depth fs close =>
    if maxDepth < depth then .error .tooDeep
    else
      match captureFields fs, close with
      | .error f, _ => .error f
      | .ok _, some b => .error b.read
      | .ok xs, none => .ok (Json.ofFields xs)
  | .faulty f _ => .error f

def captureItems : List Doc → Except Fault (List Json)
  | [] => .ok []
  | d :: ds =>
    match capture d with
    | .error f => .error f
    | .ok x => (captureItems ds).map (x :: ·)

def captureFields : List (Except Fault String × Doc) → Except Fault (List (String × Json))
  | [] => .ok []
  | (key, d) :: fs =>
    match key with
    | .error f => .error f
    | .ok k =>
      match capture d with
      | .error f => .error f
      | .ok x => (captureFields fs).map ((k, x) :: ·)
end

end Doc

def ofText (s : String) : Except Fault Json :=
  match Doc.ofText s with
  | (d, rest) =>
    match d.capture with
    | .error f => .error f
    | .ok v => if (dropSpace (rest.getD [])).isEmpty then .ok v else .error .trailingCharacters

end EidMap.Json
