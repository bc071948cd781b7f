import EidMap.Json.Text
import EidMap.Json.Site
import EidMap.Text.Quoted

/-!
Records out of JSON. A record is read from an object, or from an array that lists its fields in
order. Fields are visited in the order of the document, so of several faults the first one there is
the answer; only then are missing fields noticed, in the order in which the record declares them. An
error keeps what is wrong apart from where it was met.

The same readers serve values, whose fields are in ascending order, and texts (`Source`).
-/

namespace EidMap.Json

inductive Found
  | null
  | boolean (b : Bool)
  | integer (z : Int)
  | real (d : Number.Double)
  | text (s : String)
  | list
  | map
deriving DecidableEq

def Found.message : Found → String
  | .null => "null"
  | .boolean b => "boolean `" ++ (if b then "true" else "false") ++ "`"
  | .integer z => "integer `" ++ Text.intText z ++ "`"
  | .real d => "floating point `" ++ String.ofList d.text ++ "`"
  | .text s => "string " ++ Text.quoted s
  | .list => "sequence"
  | .map => "map"

inductive Flaw
  | malformed (f : Fault)
  | invalidType (found : Found) (expected : String)
  | invalidValue (found : Found) (expected : String)
  | invalidLength (length : Nat) (expected : String)
  | missingField (name : String)
  | duplicateField (name : String)
  | unknownVariant (name : String) (variants : List String)
  | refused (reason : String)
deriving DecidableEq

def Flaw.message : Flaw → String
  | .malformed f => f.message
  | .invalidType found expected => "invalid type: " ++ found.message ++ ", expected " ++ expected
  | .invalidValue found expected => "invalid value: " ++ found.message ++ ", expected " ++ expected
  | .invalidLength n expected => "invalid length " ++ Text.natText n ++ ", expected " ++ expected
  | .missingField name => "missing field `" ++ name ++ "`"
  | .duplicateField name => "duplicate field `" ++ name ++ "`"
  | .unknownVariant name variants =>
    "unknown variant `" ++ name ++ "`, expected one of " ++
      String.intercalate ", " (variants.map fun v => "`" ++ v ++ "`")
  | .refused reason => reason

structure DecodeError where
  flaw : Flaw
  site : Site
deriving DecidableEq

namespace DecodeError

def message (e : DecodeError) : String := e.flaw.message

def messageIn (text : String) (e : DecodeError) : String :=
  e.message ++ ((e.site.place? text).map Place.text).getD ""

end DecodeError

def Flaw.at (f : Flaw) (m : Mark) : DecodeError := ⟨f, .here m⟩

/-- The outermost layer of a document, its parts not yet read. -/
inductive Layer (δ : Type)
  | null
  | bool (b : Bool)
  | number (n : Number)
  | string (s : String)
  | array (items : List δ) (close : Option Fault)
  | object (fields : List (Except Fault String × δ)) (close : Option Fault)
  | fault (f : Fault)

/-- What can be read as JSON: a value, or a text in document order. -/
class Source (δ : Type) where
  layer : δ → Layer δ
  capture : δ → Except Fault Json
  skip : δ → Option Fault
  ofText : Bool
  /-- May an array that stands for a record have more items than the record has fields? -/
  generous : Bool

def valueLayer : Json → Layer Json
  | .null => .null
  | .bool b => .bool b
  | .number n => .number n
  | .string s => .string s
  | .array xs => .array xs none
  | .object fs => .object (fs.map fun (k, v) => (.ok k, v)) none

instance : Source Json := ⟨valueLayer, .ok, fun _ => none, false, false⟩

def Doc.layer : Doc → Layer Doc
  | .null => .null
  | .bool b => .bool b
  | .number n => .number n
  | .string s => .string s
  | .array _ ds close => .array ds (close.map Break.read)
  | .object _ fs close => .object fs (close.map Break.read)
  | .faulty f _ => .fault f

instance : Source Doc := ⟨Doc.layer, Doc.capture, Doc.skip, true, false⟩

abbrev Decoded (α : Type) := Except DecodeError α

namespace Decoded

variable {α : Type}

def inside (i : Nat) (x : Decoded α) : Decoded α :=
  x.mapError fun e => { e with site := e.site.inside i }

def later (x : Decoded α) : Decoded α := x.mapError fun e => { e with site := e.site.later }

@[simp]
theorem inside_ok (i : Nat) (a : α) : inside i (.ok a) = .ok a := rfl

@[simp]
theorem later_ok (a : α) : later (.ok a) = .ok a := rfl

@[simp]
theorem inside_eq_ok {i : Nat} {x : Decoded α} {a : α} : x.inside i = .ok a ↔ x = .ok a := by
  cases x with
  | ok b => exact Iff.rfl
  | error e => constructor <;> intro h <;> cases h

@[simp]
theorem later_eq_ok {x : Decoded α} {a : α} : x.later = .ok a ↔ x = .ok a := by
  cases x with
  | ok b => exact Iff.rfl
  | error e => constructor <;> intro h <;> cases h

end Decoded

variable {δ : Type} [Source δ] {α : Type}

namespace Layer

def found : Layer δ → Found
  | .null | .fault _ => .null
  | .bool b => .boolean b
  | .number (.integer z) => .integer z
  | .number (.real d) => .real d
  | .string s => .text s
  | .array .. => .list
  | .object .. => .map

def mismatch (expected : String) : Layer δ → DecodeError
  | .fault f => Flaw.at (.malformed f) .reading
  | l =>
    Flaw.at (.invalidType l.found expected) <|
      match l with
      | .array .. | .object .. => .opening
      | _ => .ending

end Layer

open Source (layer)

def value (d : δ) : Decoded Json :=
  match Source.capture d with
  | .ok v => .ok v
  | .error f => .error (Flaw.at (.malformed f) .reading)

def integerIn (low high : Int) (expected : String) (d : δ) : Decoded Int :=
  match layer d with
  | .number (.integer z) =>
    if low ≤ z && z ≤ high then .ok z
    else .error (Flaw.at (.invalidValue (.integer z) expected) .ending)
  | l => .error (l.mismatch expected)

def uint8 (d : δ) : Decoded UInt8 :=
  (integerIn 0 (UInt8.size - 1) "u8" d).map fun z => UInt8.ofNat z.toNat

def uint16 (d : δ) : Decoded UInt16 :=
  (integerIn 0 (UInt16.size - 1) "u16" d).map fun z => UInt16.ofNat z.toNat

def uint32 (d : δ) : Decoded UInt32 :=
  (integerIn 0 (UInt32.size - 1) "u32" d).map fun z => UInt32.ofNat z.toNat

def uint64 (d : δ) : Decoded UInt64 :=
  (integerIn 0 (UInt64.size - 1) "u64" d).map fun z => UInt64.ofNat z.toNat

def int16 (d : δ) : Decoded Int := integerIn (-Number.twoPow 15) (Number.twoPow 15 - 1) "i16" d

def int64 (d : δ) : Decoded Int := integerIn (-Number.twoPow 63) (Number.twoPow 63 - 1) "i64" d

def boolean (d : δ) : Decoded Bool :=
  match layer d with
  | .bool b => .ok b
  | l => .error (l.mismatch "a boolean")

def text (d : δ) : Decoded String :=
  match layer d with
  | .string s => .ok s
  | l => .error (l.mismatch "a string")

def option (read : δ → Decoded α) (d : δ) : Decoded (Option α) :=
  match layer d with
  | .null => .ok none
  | .fault f => .error (Flaw.at (.malformed f) .reading)
  | _ => (read d).map some

def close (fault : Option Fault) (a : α) : Decoded α :=
  match fault with
  | none => .ok a
  | some f => .error (Flaw.at (.malformed f) .closing)

def each (read : δ → Decoded α) : List δ → Decoded (List α)
  | [] => .ok []
  | d :: ds => do return (← (read d).inside 0) :: (← (each read ds).later)

def list (read : δ → Decoded α) (d : δ) : Decoded (List α) :=
  match layer d with
  | .array ds fault => each read ds >>= close fault
  | l => .error (l.mismatch "a sequence")

/-- A field of a record: its name and other spellings of it, its value where it is absent, and
whether an array may end before it. -/
structure Field (δ α : Type) where
  name : String
  aliases : List String := []
  read : δ → Decoded α
  absent : Option α := none
  trailing : Bool := true

structure Guard (δ : Type) where
  name : String
  aliases : List String
  check : δ → Decoded Unit

def Field.guard (f : Field δ α) : Guard δ :=
  ⟨f.name, f.aliases, fun d => (f.read d).map fun _ => ()⟩

def Guard.answers (g : Guard δ) (key : String) : Bool := key == g.name || g.aliases.contains key

/-- The parts of a record, under names or in the order of the fields. -/
inductive Parts (δ : Type)
  | named (fields : List (String × δ))
  | placed (record : String) (names : List String) (items : List δ) (close : Option Fault)

namespace Parts

def find? (name : String) (aliases : List String) : List (String × δ) → Option δ
  | [] => none
  | (k, d) :: fs => if k == name || aliases.contains k then some d else find? name aliases fs

def get (parts : Parts δ) (f : Field δ α) : Decoded α :=
  match parts with
  | .named fs =>
    match find? f.name f.aliases fs, f.absent with
    | some d, _ => f.read d
    | none, some a => .ok a
    | none, none => .error (Flaw.at (.missingField f.name) .ending)
  | .placed record names ds fault =>
    let place := names.idxOf f.name
    match ds[place]?, fault, if f.trailing then f.absent else none with
    | some d, _, _ => (f.read d).inside place
    | none, some g, _ => .error (Flaw.at (.malformed g) .closing)
    | none, none, some a => .ok a
    | none, none, none =>
      .error (Flaw.at (.invalidLength place
        (record ++ " with " ++ Text.natText names.length ++ " elements")) .ending)

end Parts

/-- Visits the fields of an object in order: a field of the record is checked, and must not come
twice; any other is passed over by `other`. -/
def walk (guards : List (Guard δ)) (other : δ → Decoded Unit) :
    (seen : List String) → List (Except Fault String × δ) → Decoded (List (String × δ))
  | _, [] => .ok []
  | _, (.error f, _) :: _ => .error ⟨.malformed f, ⟨[0], .naming⟩⟩
  | seen, (.ok key, d) :: fs =>
    match guards.find? (·.answers key) with
    | none => do
      (other d).inside 0
      return (key, d) :: (← (walk guards other seen fs).later)
    | some g =>
      if seen.contains g.name then .error ⟨.duplicateField g.name, ⟨[0], .repeated⟩⟩
      else do
        (g.check d).inside 0
        return (key, d) :: (← (walk guards other (g.name :: seen) fs).later)

def passOver (d : δ) : Decoded Unit :=
  match Source.skip d with
  | none => .ok ()
  | some f => .error (Flaw.at (.malformed f) .skipping)

def surplus (count : Nat) (ds : List δ) (fault : Option Fault) (a : α) : Decoded α :=
  if count < ds.length && !Source.generous δ then
    if Source.ofText δ then .error ⟨.malformed .trailingCharacters, ⟨[count], .facing⟩⟩
    else .error (Flaw.at (.invalidLength ds.length "fewer elements in array") .ending)
  else
    match fault with
    | some .expectedListEnd | some .endInValue => close (some .trailingCharacters) a
    | fault => close fault a

def pair {β : Type} (first : δ → Decoded α) (second : δ → Decoded β) (d : δ) : Decoded (α × β) :=
  let item {γ : Type} (read : δ → Decoded γ) (ds : List δ) (place : Nat) (fault : Option Fault) :
      Decoded γ :=
    match ds[place]?, fault with
    | some d, _ => (read d).inside place
    | none, some f => .error (Flaw.at (.malformed f) .closing)
    | none, none => .error (Flaw.at (.invalidLength place "a tuple of size 2") .ending)
  match layer d with
  | .array ds fault => do
    let ab := (← item first ds 0 fault, ← item second ds 1 fault)
    surplus 2 ds fault ab
  | l => .error (l.mismatch "a tuple of size 2")

/-- A record of the given kind, from an object or from an array of its fields. -/
def record (kind : String) (guards : List (Guard δ)) (build : Parts δ → Decoded α) (d : δ) :
    Decoded α :=
  match layer d with
  | .object fs fault => do
    let fields ← walk guards passOver [] fs
    close fault ()
    build (.named fields)
  | .array ds fault => do
    let a ← build (.placed kind (guards.map (·.name)) ds fault)
    surplus guards.length ds fault a
  | l => .error (l.mismatch kind)

/-- A record that also keeps the fields it does not know; from an object only. -/
def openRecord (kind : String) (guards : List (Guard δ))
    (build : Parts δ → List (String × Json) → Decoded α) (d : δ) : Decoded α :=
  match layer d with
  | .object fs fault => do
    let fields ← walk guards (fun d => (value d).map fun _ => ()) [] fs
    close fault ()
    let rest := fields.filter fun (k, _) => !guards.any (·.answers k)
    let kept ← rest.mapM fun (k, d) => return (k, ← value d)
    build (.named fields) (sortFields kept)
  | l => .error (l.mismatch kind)

def required (name : String) (read : δ → Decoded α) (aliases : List String := []) : Field δ α :=
  ⟨name, aliases, read, none, true⟩

def optional (name : String) (read : δ → Decoded α) (aliases : List String := []) :
    Field δ (Option α) :=
  ⟨name, aliases, option read, some none, true⟩

/-- A field that an object may leave out, and an array must hold, if only as `null`. -/
def nullable (name : String) (read : δ → Decoded α) : Field δ (Option α) :=
  ⟨name, [], option read, some none, false⟩

def defaulted (name : String) (read : δ → Decoded α) (a : α) (aliases : List String := []) :
    Field δ α :=
  ⟨name, aliases, read, some a, true⟩

def decodeText (read : Doc → Decoded α) (s : String) : Decoded α :=
  match Doc.ofText s with
  | (d, rest) =>
    match read d with
    | .error e => .error e
    | .ok a =>
      if (dropSpace (rest.getD [])).isEmpty then .ok a
      else .error (Flaw.at (.malformed .trailingCharacters) .trailing)

end EidMap.Json
