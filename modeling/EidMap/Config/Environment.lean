import EidMap.Text.Cut
import EidMap.Toml.Lexeme

/-!
Settings out of environment variables. A variable whose name begins with `LISPMAP_` sets the value
under the rest of its name, where two underscores separate the names of tables. Its text is a value
in a relaxed notation: whatever is no number, truth value, quoted string, array or table is a string.
Other variables tell where the file of the configuration is.
-/

namespace EidMap

abbrev Environment := List (String × String)

namespace Environment

def get? (env : Environment) (name : String) : Option String := List.lookup name env

def isSpace (c : Char) : Bool :=
  c == ' ' || c == '\t' || c == '\n' || c == '\r' || c.toNat == 12

def dropSpace (cs : List Char) : List Char := cs.dropWhile isSpace

def isSeparator (c : Char) : Bool :=
  c == ',' || c == '\x7b' || c == '\x7d' || c == '[' || c == ']'

def real? (cs : List Char) : Option Number.Double :=
  let (negative, body) := Toml.cutSign cs
  let (front, exponent) := Toml.cutExponent body
  match Text.cutFirst '.' front with
  | none => none
  | some (w, f) =>
    let exponent := match exponent with
      | none => some none
      | some e =>
        let (down, ds) := Toml.cutSign e
        if (Text.unsigned? ds).isSome then some (some (down, ds)) else none
    match exponent with
    | none => none
    | some e =>
      if (w ++ f).isEmpty || !(w ++ f).all Char.isDigit then none
      else
        match (Json.Numeral.mk w (some f) e).value negative with
        | .ok (.real d) => some d
        | _ => some (if negative then .neg .infinity else .infinity)

def integer? (cs : List Char) : Option Int :=
  match cs with
  | '-' :: ds =>
    (Text.unsigned? ds).bind fun n => if n ≤ Number.twoPow 63 then some (-(n : Int)) else none
  | cs => (Text.natural? cs).bind fun n => if n < Number.twoPow 64 then some (n : Int) else none

def ofWord (cs : List Char) : Toml :=
  match real? cs, integer? cs with
  | some d, _ => .real d
  | none, some z => .integer z
  | none, none => .string (String.ofList cs)

def items? {α : Type} (close : Char) (read : List Char → Option (α × List Char)) (cs : List Char) :
    Option (List α × List Char) :=
  if cs.head? == some close then some ([], cs.drop 1)
  else
    match read cs with
    | none => none
    | some (a, ',' :: rest) =>
      if _h : rest.length < cs.length then
        (items? close read rest).map fun (as, r) => (a :: as, r)
      else none
    | some (a, c :: rest) => if c = close then some ([a], rest) else none
    | some (_, []) => none
termination_by cs.length

def isNameChar (c : Char) : Bool := c.isAlphanum || c == '_' || c == '-'

def name? (cs : List Char) : Option (String × List Char) :=
  match dropSpace cs with
  | '"' :: cs => (Toml.basic? cs).map fun (s, r) => (String.ofList s, r)
  | cs =>
    let k := cs.takeWhile isNameChar
    if k.isEmpty then none else some (String.ofList k, cs.dropWhile isNameChar)

def assignment? (read : List Char → Option (Toml × List Char)) (cs : List Char) :
    Option ((String × Toml) × List Char) :=
  match name? cs with
  | none => none
  | some (k, rest) =>
    match dropSpace rest with
    | '=' :: rest => (read rest).map fun (v, r) => ((k, v), r)
    | _ => none

def value? : Nat → List Char → Option (Toml × List Char)
  | depth, cs =>
    let found : Option (Toml × List Char) := match depth, dropSpace cs with
      | _, 't' :: 'r' :: 'u' :: 'e' :: rest => some (.boolean true, rest)
      | _, 'f' :: 'a' :: 'l' :: 's' :: 'e' :: rest => some (.boolean false, rest)
      | depth + 1, '[' :: rest =>
        (items? ']' (value? depth) rest).map fun (vs, r) => (.array vs, r)
      | depth + 1, '\x7b' :: rest =>
        (items? '\x7d' (assignment? (value? depth)) rest).map fun (es, r) =>
          (.table (es.foldl (fun done (k, v) => Toml.put k v done) []), r)
      | _, '"' :: rest => (Toml.basic? rest).map fun (s, r) => (.string (String.ofList s), r)
      | _, '\'' :: c :: '\'' :: rest => some (.string (String.singleton c), rest)
      | _, '\'' :: _ => none
      | _, cs =>
        some (ofWord (Text.trim (cs.takeWhile fun c => !isSeparator c)),
          cs.dropWhile fun c => !isSeparator c)
    found.map fun (v, rest) => (v, dropSpace rest)

/-- The value that a text spells; a text that is no value is a string. -/
def valueOf (s : String) : Toml :=
  match value? s.length s.toList with
  | some (v, []) => v
  | _ => .string s

def dotted : List Char → List Char
  | '_' :: '_' :: cs => '.' :: dotted cs
  | c :: cs => c :: dotted cs
  | [] => []

def path? (name : String) : Option (List String) :=
  let cs := name.toList
  if Text.lower (cs.take 8) == "lispmap_".toList then
    let parts := Text.pieces '.' (Text.trim (dotted (cs.drop 8)))
    if parts.any List.isEmpty then none
    else some (parts.map fun p => String.ofList (Text.lower p))
  else none

/-- The tree of all settings, of variables for one setting the last one winning. -/
def settings (env : Environment) : Toml :=
  env.foldl (fun tree (name, text) =>
    match path? name with
    | some path => tree.merge (Toml.nest path (valueOf text))
    | none => tree) (.table [])

end Environment

namespace Config

/-- The user's directory of configurations; one that is not absolute does not count. -/
def baseDirectory (env : Environment) : String :=
  match (env.get? "XDG_CONFIG_HOME").filter (·.startsWith "/") with
  | some directory => directory
  | none => (env.get? "HOME").getD "." ++ "/.config"

def directory (env : Environment) : String := baseDirectory env ++ "/lispmap"

def filePath (env : Environment) : String := directory env ++ "/config.toml"

end Config

end EidMap
