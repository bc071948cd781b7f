import EidMap.Number.Double

/-!
JSON values. An object is the list of its fields; `ofFields` builds the form in which every value of
the store is kept, with the names in ascending order and the last of equal names winning.
-/

namespace EidMap

namespace Json

inductive Number
  | integer (z : Int)
  | real (d : Number.Double)
deriving DecidableEq

end Json

inductive Json
  | null
  | bool (b : Bool)
  | number (n : Json.Number)
  | string (s : String)
  | array (items : List Json)
  | object (fields : List (String × Json))
deriving Inhabited

namespace Json

mutual
def beq : Json → Json → Bool
  | .null, .null => true
  | .bool a, .bool b => a == b
  | .number m, .number n => m == n
  | .string s, .string t => s == t
  | .array xs, .array ys => beqItems xs ys
  | .object fs, .object gs => beqFields fs gs
  | _, _ => false

def beqItems : List Json → List Json → Bool
  | [], [] => true
  | x :: xs, y :: ys => beq x y && beqItems xs ys
  | _, _ => false

def beqFields : List (String × Json) → List (String × Json) → Bool
  | [], [] => true
  | (j, x) :: fs, (k, y) :: gs => j == k && beq x y && beqFields fs gs
  | _, _ => false
end

instance : BEq Json := ⟨beq⟩

def insertField (name : String) (value : Json) : List (String × Json) → List (String × Json)
  | [] => [(name, value)]
  | (k, v) :: fs =>
    if name < k then (name, value) :: (k, v) :: fs
    else if name = k then (name, value) :: fs
    else (k, v) :: insertField name value fs

def sortFields (fs : List (String × Json)) : List (String × Json) :=
  fs.foldl (fun sorted (k, v) => insertField k v sorted) []

def ofFields (fs : List (String × Json)) : Json := .object (sortFields fs)

def lookup (name : String) : List (String × Json) → Option Json
  | [] => none
  | (k, v) :: fs => if k = name then some v else lookup name fs

def field? (name : String) : Json → Option Json
  | .object fs => lookup name fs
  | _ => none

def fields? : Json → Option (List (String × Json))
  | .object fs => some fs
  | _ => none

def string? : Json → Option String
  | .string s => some s
  | _ => none

def integer? : Json → Option Int
  | .number (.integer z) => some z
  | _ => none

def ofInt (z : Int) : Json := .number (.integer z)
def ofNat (n : Nat) : Json := .number (.integer n)

def ofOption {α : Type} (f : α → Json) : Option α → Json
  | none => .null
  | some a => f a

def optionalField {α : Type} (name : String) (f : α → Json) : Option α → List (String × Json)
  | none => []
  | some a => [(name, f a)]

mutual
/-- The same value with the fields of every object in ascending order. -/
def ordered : Json → Json
  | .array xs => .array (orderedItems xs)
  | .object fs => ofFields (orderedFields fs)
  | v => v

def orderedItems : List Json → List Json
  | [] => []
  | x :: xs => ordered x :: orderedItems xs

def orderedFields : List (String × Json) → List (String × Json)
  | [] => []
  | (k, v) :: fs => (k, ordered v) :: orderedFields fs
end

end Json

end EidMap
