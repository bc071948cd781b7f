import EidMap.Output.Grid
import EidMap.Yaml
import EidMap.Json.Text

/-!
How what was asked for is printed. A view says what of an item goes into a grid, into a view of its
own, into JSON, and what names it; a format chooses among these.
-/

namespace EidMap.Output

inductive Format
  | table
  | json
  | compactJson
  | yaml
  | plain
deriving DecidableEq

structure View (α : Type) where
  header : List String
  row : α → List String
  details : α → String
  toJson : α → Json
  name : α → String

namespace Format

variable {α : Type}

def list (f : Format) (v : View α) (xs : List α) : String :=
  let json := Json.array (xs.map v.toJson)
  match f with
  | .table => grid v.header (xs.map v.row)
  | .json => json.pretty 2
  | .compactJson => json.compact
  | .yaml => Yaml.text json
  | .plain => String.intercalate "\n" (xs.map v.name)

def single (f : Format) (v : View α) (a : α) : String :=
  match f with
  | .table => v.details a
  | .json => (v.toJson a).pretty 2
  | .compactJson => (v.toJson a).compact
  | .yaml => Yaml.text (v.toJson a)
  | .plain => v.name a

end Format

end EidMap.Output
