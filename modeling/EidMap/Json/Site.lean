import EidMap.Json.Doc

/-!
Where in a text a decoder stops. A decoder sees a document as a tree, so it knows the value that it
was about and how far it had come with it; the line and the column are found in the text.
-/

namespace EidMap.Json

/-- How far a decoder had come with a value. -/
inductive Mark
  /-- Before its first character, which was not taken. -/
  | opening
  /-- At its first character, which was looked at. -/
  | facing
  /-- Behind it. -/
  | ending
  /-- Where it cannot be read as JSON, and where it cannot be passed over. -/
  | reading
  | skipping
  /-- Behind its last part, where it is neither closed nor goes on. -/
  | closing
  /-- Where the name in front of it cannot be read, and behind that name. -/
  | naming
  | named
  /-- Behind its name, and behind the end of the object if that comes next. -/
  | repeated
  /-- Behind it and the space after it. -/
  | leaving
  /-- Behind it and whatever of the end of the enclosing value comes next. -/
  | enclosed
  /-- At what follows the document. -/
  | trailing
deriving DecidableEq

/-- A value, by the places of its parts from the root on, and a mark at it. -/
structure Site where
  path : List Nat
  mark : Mark
deriving DecidableEq

namespace Site

def here (m : Mark) : Site := ⟨[], m⟩

def inside (i : Nat) (s : Site) : Site := { s with path := i :: s.path }

def later (s : Site) : Site :=
  match s.path with
  | [] => s
  | i :: path => { s with path := (i + 1) :: path }

end Site

/-- A place in a text: what is left of it, and how many bytes of that count as taken. -/
structure Stop where
  left : List Char
  taken : Nat

namespace Stop

def before (cs : List Char) : Stop := ⟨cs, 0⟩

def past (cs : List Char) : Stop := ⟨cs, 1⟩

end Stop

inductive Pass
  | read
  | skip
deriving DecidableEq

def wordStop : List Char → List Char → Stop
  | w :: ws, c :: cs => if w = c then wordStop ws cs else .past (c :: cs)
  | _, cs => .before cs

/-- Four digits are taken at once, wherever the wrong one is. -/
def hexStop (cs : List Char) : Stop :=
  match hexFour cs with
  | .ok (_, rest) => .before rest
  | .error .endInString => .before []
  | .error _ => ⟨cs, 4⟩

def unicodeStop (cs : List Char) : Stop :=
  match hexFour cs with
  | .error _ => hexStop cs
  | .ok (n, rest) =>
    if 0xDC00 ≤ n && n ≤ 0xDFFF then .before rest
    else
      match rest with
      | ['\\'] => .before []
      | '\\' :: 'u' :: rest => hexStop rest
      | '\\' :: rest => .past rest
      | rest => .past rest

def escapeStop : Pass → List Char → Stop
  | .read, cs => unicodeStop cs
  | .skip, cs => hexStop cs

def escapeRest : Pass → List Char → Except Fault (List Char)
  | .read, cs => (unicodeEscape cs).map Prod.snd
  | .skip, cs => (hexFour cs).map Prod.snd

def stringStop (pass : Pass) (cs : List Char) : Stop :=
  match cs with
  | [] => .before []
  | '"' :: rest => .before rest
  | ['\\'] => .before []
  | '\\' :: 'u' :: rest =>
    match escapeRest pass rest with
    | .error _ => escapeStop pass rest
    | .ok after =>
      if _h : after.length < rest.length then stringStop pass after else .before after
  | '\\' :: e :: rest =>
    match simpleEscape? e with
    | none => .past (e :: rest)
    | some _ => stringStop pass rest
  | c :: rest =>
    if c.toNat < 32 then
      match pass with
      | .read => .before rest
      | .skip => .before (c :: rest)
    else stringStop pass rest
termination_by cs.length

def gap (cs : List Char) : List Char :=
  let whole := match cs with
    | '0' :: rest => rest
    | cs => cs.dropWhile Char.isDigit
  match cs.head?.any Char.isDigit, whole with
  | true, '.' :: rest =>
    match rest.dropWhile Char.isDigit with
    | e :: more => if rest.head?.any Char.isDigit && (e = 'e' || e = 'E') then sign more else e :: more
    | [] => []
  | true, e :: rest => if e = 'e' || e = 'E' then sign rest else e :: rest
  | _, rest => rest
where
  sign : List Char → List Char
    | '+' :: rest | '-' :: rest => rest
    | rest => rest

def exponentLeft (ds : List Char) : List Char :=
  ds.drop (((List.range (ds.length + 1)).find? fun k =>
    (exponentValue? (ds.take k)).isNone).getD ds.length)

/-- Where a number without its sign stops: for want of a digit, or behind it when no number is that
large. An exponent is given up at the digit that makes it too large. -/
def numeralStop (cs : List Char) : Stop :=
  match numeralHead cs with
  | .error _ => .past (gap cs)
  | .ok (x, rest) =>
    match x.exponent with
    | some (_, ds) => .before (exponentLeft ds ++ rest)
    | none => .before rest

def leafStop (pass : Pass) (cs : List Char) : Stop :=
  match dropSpace cs with
  | 'n' :: cs => wordStop ['u', 'l', 'l'] cs
  | 't' :: cs => wordStop ['r', 'u', 'e'] cs
  | 'f' :: cs => wordStop ['a', 'l', 's', 'e'] cs
  | '-' :: cs => numeralStop cs
  | '"' :: cs => stringStop pass cs
  | c :: cs => if c.isDigit then numeralStop (c :: cs) else .past (c :: cs)
  | [] => .before []

def behind (cs : List Char) : List Char := ((Doc.value (3 * cs.length + 3) 0 cs).2).getD []

/-- A part of a list or an object: what follows the quote of its name, and the text of its value or
what stands where a colon should. -/
structure Part where
  name : Option (List Char)
  value : Except (List Char) (List Char)

def Part.left (p : Part) : List Char :=
  match p.value with
  | .ok cs => behind cs
  | .error cs => cs

def next? (first : Bool) (cs : List Char) : Option (List Char) :=
  if first then some (dropSpace cs)
  else
    match dropSpace cs with
    | ',' :: cs => some (dropSpace cs)
    | _ => none

def itemPart? (first : Bool) (cs : List Char) : Option Part :=
  match next? first cs with
  | none | some [] | some (']' :: _) => none
  | some cs => some ⟨none, .ok cs⟩

def fieldPart? (first : Bool) (cs : List Char) : Option Part :=
  match next? first cs with
  | some ('"' :: name) =>
    match stringRest name with
    | .error _ => none
    | .ok rest =>
      match dropSpace rest with
      | ':' :: value => some ⟨some name, .ok value⟩
      | rest => some ⟨some name, .error rest⟩
  | _ => none

def partsOf (part? : Bool → List Char → Option Part) :
    (fuel : Nat) → (first : Bool) → List Char → List Part × List Char
  | 0, _, cs => ([], cs)
  | fuel + 1, first, cs =>
    match part? first cs with
    | none => ([], cs)
    | some p =>
      let (ps, left) := partsOf part? fuel false p.left
      (p :: ps, left)

def contents (cs : List Char) : List Part × List Char :=
  match dropSpace cs with
  | '[' :: cs => partsOf itemPart? cs.length true cs
  | '\x7b' :: cs => partsOf fieldPart? cs.length true cs
  | _ => ([], [])

/-- Where a list or an object stops behind its last part; the name of a field may not end. -/
def closeStop (pass : Pass) (cs : List Char) : Stop :=
  let (ps, left) := contents cs
  match (dropSpace cs).head?, next? ps.isEmpty left with
  | some '\x7b', some ('"' :: name) => stringStop pass name
  | _, some next => .past next
  | _, none => .past (dropSpace left)

def fails (pass : Pass) (depth : Nat) (cs : List Char) : Bool :=
  let d := (Doc.value (3 * cs.length + 3) depth cs).1
  match pass with
  | .read => !d.capture.isOk
  | .skip => d.skip.isSome

namespace Part

def misnamed (pass : Pass) (p : Part) : Bool :=
  pass = .read && p.name.any fun name => !(stringBody name).isOk

def fails (pass : Pass) (depth : Nat) (p : Part) : Bool :=
  p.misnamed pass ||
    match p.value with
    | .ok cs => Json.fails pass depth cs
    | .error _ => true

end Part

def valueStop (pass : Pass) : (fuel depth : Nat) → List Char → Stop
  | 0, _, cs => .before cs
  | fuel + 1, depth, cs =>
    match (dropSpace cs).head? with
    | some '[' | some '\x7b' =>
      if pass = .read && Doc.maxDepth < depth + 1 then .past (dropSpace cs)
      else
        match (contents cs).1.find? (·.fails pass (depth + 1)) with
        | none => closeStop pass cs
        | some p =>
          if p.misnamed pass then stringStop pass (p.name.getD [])
          else
            match p.value with
            | .ok cs => valueStop pass fuel (depth + 1) cs
            | .error cs => .past cs
    | _ => leafStop pass cs

def dropOne (c : Char) : List Char → List Char
  | d :: cs => if d = c then cs else d :: cs
  | [] => []

/-- What is left where a value is left because of one of its parts: its end is taken, if that is
what comes next, and so is a comma in a list. -/
def leave (opening : Option Char) (cs : List Char) : List Char :=
  match opening, dropSpace cs with
  | some '[', ',' :: cs => dropSpace cs
  | some '[', cs => dropOne ']' cs
  | _, cs => dropOne '\x7d' cs

namespace Mark

def stop (depth : Nat) (cs : List Char) : Mark → Stop
  | .opening => .before (dropSpace cs)
  | .facing => .past (dropSpace cs)
  | .reading => valueStop .read (cs.length + 1) depth cs
  | .skipping => valueStop .skip (cs.length + 1) depth cs
  | .closing => closeStop .read cs
  | .leaving => .before (dropSpace (behind cs))
  | .trailing => .past (dropSpace (behind cs))
  | _ => .before (behind cs)

def partStop (whole : List Char) (depth : Nat) (p : Part) (m : Mark) : Stop :=
  match m, p.value with
  | .naming, _ => stringStop .read (p.name.getD [])
  | .named, _ => stringStop .skip (p.name.getD [])
  | .repeated, _ =>
    .before (leave (dropSpace whole).head? (((stringRest (p.name.getD [])).toOption).getD []))
  | .enclosed, _ => .before (leave (dropSpace whole).head? p.left)
  | m, .ok cs => m.stop depth cs
  | _, .error cs => .past cs

end Mark

def Site.stop? : (path : List Nat) → (depth : Nat) → List Char → Mark → Option Stop
  | [], depth, cs, m => some (m.stop depth cs)
  | [i], depth, cs, m => (contents cs).1[i]?.map fun p => m.partStop cs (depth + 1) p
  | i :: path, depth, cs, m =>
    (contents cs).1[i]?.bind fun p => p.value.toOption.bind fun cs => stop? path (depth + 1) cs m

structure Place where
  line : Nat
  column : Nat

namespace Place

def after (p : Place) : (bytes : Nat) → List Char → Place
  | _, [] => p
  | n, c :: cs =>
    if n < c.utf8Size then ⟨p.line, p.column + n⟩
    else if c = '\n' then after ⟨p.line + 1, 0⟩ (n - 1) cs
    else after ⟨p.line, p.column + c.utf8Size⟩ (n - c.utf8Size) cs

def text (p : Place) : String :=
  " at line " ++ Text.natText p.line ++ " column " ++ Text.natText p.column

end Place

def byteLength (cs : List Char) : Nat := cs.foldl (fun n c => n + c.utf8Size) 0

def Stop.place (whole : List Char) (s : Stop) : Place :=
  Place.after ⟨1, 0⟩ (byteLength whole - byteLength s.left + s.taken) whole

/-- The line and the column of a site in a text. What an outermost value is refused for when it has been
read has no place. -/
def Site.place? (s : Site) (text : String) : Option Place :=
  if s = here .enclosed then none
  else (stop? s.path 0 text.toList s.mark).map (Stop.place text.toList)

end EidMap.Json
