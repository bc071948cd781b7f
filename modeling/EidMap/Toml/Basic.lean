import EidMap.Json.Decode

/-!
Trees of settings as TOML has them. `merge` lays one tree over another: tables are joined name by
name, of everything else the later value stays. The readers of JSON records read these trees too.
-/

namespace EidMap

inductive Toml
  | string (s : String)
  | integer (z : Int)
  | real (d : Number.Double)
  | boolean (b : Bool)
  | datetime (text : String)
  | array (items : List Toml)
  | table (entries : List (String × Toml))
deriving Inhabited

namespace Toml

def lookup (name : String) : List (String × Toml) → Option Toml
  | [] => none
  | (k, v) :: es => if k = name then some v else lookup name es

def put (name : String) (value : Toml) : List (String × Toml) → List (String × Toml)
  | [] => [(name, value)]
  | (k, v) :: es => if k = name then (name, value) :: es else (k, v) :: put name value es

def entries? : Toml → Option (List (String × Toml))
  | .table es => some es
  | _ => none

mutual
/-- The tree `new` laid over the tree `old`. -/
def merge (old : Toml) : Toml → Toml
  | .table new => .table (mergeEntries ((entries? old).getD []) new)
  | new => new

def mergeEntries (old : List (String × Toml)) : List (String × Toml) → List (String × Toml)
  | [] => old
  | (k, v) :: new =>
    let joined := match lookup k old with
      | some u => merge u v
      | none => v
    mergeEntries (put k joined old) new
end

def nest (path : List String) (value : Toml) : Toml :=
  path.foldr (fun k v => .table [(k, v)]) value

/-- A date or time is no text where a record asks for one; it is a table of its own. -/
def datetimeName : String := "datetime"

def layer : Toml → Json.Layer Toml
  | .string s => .string s
  | .integer z => .number (.integer z)
  | .real d => .number (.real d)
  | .boolean b => .bool b
  | .datetime s => .object [(.ok datetimeName, .string s)] none
  | .array xs => .array xs none
  | .table es => .object (es.map fun (k, v) => (.ok k, v)) none

mutual
def toJson : Toml → Json
  | .string s => .string s
  | .integer z => .ofInt z
  | .real d => .number (.real d)
  | .boolean b => .bool b
  | .datetime s => .object [(datetimeName, .string s)]
  | .array xs => .array (toJsonItems xs)
  | .table es => .object (toJsonEntries es)

def toJsonItems : List Toml → List Json
  | [] => []
  | x :: xs => toJson x :: toJsonItems xs

def toJsonEntries : List (String × Toml) → List (String × Json)
  | [] => []
  | (k, v) :: es => (k, toJson v) :: toJsonEntries es
end

instance : Json.Source Toml := ⟨layer, fun t => .ok t.toJson, fun _ => none, false, true⟩

end Toml

end EidMap
