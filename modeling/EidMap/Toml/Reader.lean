import EidMap.Toml.Lexeme

/-!
Reading TOML. A document is a sequence of lines: entries with dotted names, and headers that open a
table or one more element of an array of tables. A table is defined once: a header may open one that
was only passed through, dotted names may extend only what dotted names began.
-/

namespace EidMap.Toml

def isBare (c : Char) : Bool := c.isAlphanum || c == '_' || c == '-'

def name? (cs : List Char) : Option (String × List Char) :=
  match cs with
  | '"' :: cs => (basic? cs).map fun (s, r) => (String.ofList s, r)
  | c :: cs =>
    if c = '\'' then (literal? cs).map fun (s, r) => (String.ofList s, r)
    else if isBare c then
      some (String.ofList ((c :: cs).takeWhile isBare), (c :: cs).dropWhile isBare)
    else none
  | [] => none

def path? (cs : List Char) : Option ((List String × String) × List Char) :=
  match name? (dropGap cs) with
  | none => none
  | some (k, rest) =>
    match dropGap rest with
    | '.' :: more =>
      if _h : more.length < cs.length then
        (path? more).map fun ((ks, last), r) => ((k :: ks, last), r)
      else none
    | rest => some (([], k), rest)
termination_by cs.length

def maxDepth : Nat := 79

def boundedPath? (cs : List Char) : Option ((List String × String) × List Char) :=
  match path? cs with
  | some ((ks, k), rest) => if ks.length < maxDepth then some ((ks, k), rest) else none
  | none => none

inductive Origin
  | header
  /-- It was passed through by a header. -/
  | passed
  | dotted
deriving DecidableEq

inductive Node
  | leaf (v : Toml)
  | table (origin : Origin) (entries : List (String × Node))
  /-- An array of tables, its last element apart. -/
  | tables (earlier : List Node) (last : List (String × Node))

namespace Node

def find? (name : String) : List (String × Node) → Option Node
  | [] => none
  | (k, n) :: es => if k = name then some n else find? name es

def put (name : String) (n : Node) : List (String × Node) → List (String × Node)
  | [] => [(name, n)]
  | (k, m) :: es => if k = name then (name, n) :: es else (k, m) :: put name n es

def insert (key : String) (v : Toml) :
    List String → List (String × Node) → Option (List (String × Node))
  | [], es =>
    match find? key es with
    | none => some (put key (.leaf v) es)
    | some _ => none
  | k :: ks, es =>
    match find? k es with
    | none => (insert key v ks []).map fun sub => put k (.table .dotted sub) es
    | some (.table origin sub) =>
      if origin = .header || (ks.isEmpty && origin != .dotted) then none
      else (insert key v ks sub).map fun sub => put k (.table origin sub) es
    | some (.tables earlier last) =>
      if ks.isEmpty then none
      else (insert key v ks last).map fun last => put k (.tables earlier last) es
    | some (.leaf _) => none

/-- Changes the entries of the table under a path of names; tables that lack are passed through. -/
def under (f : List (String × Node) → Option (List (String × Node))) :
    List String → List (String × Node) → Option (List (String × Node))
  | [], es => f es
  | k :: ks, es =>
    match find? k es with
    | none => (under f ks []).map fun sub => put k (.table .passed sub) es
    | some (.table origin sub) => (under f ks sub).map fun sub => put k (.table origin sub) es
    | some (.tables earlier last) =>
      (under f ks last).map fun last => put k (.tables earlier last) es
    | some (.leaf _) => none

def openTable (key : String) (es : List (String × Node)) : Option (List (String × Node)) :=
  match find? key es with
  | none => some (put key (.table .header []) es)
  | some (.table .passed sub) => some (put key (.table .header sub) es)
  | some _ => none

def openElement (key : String) (es : List (String × Node)) : Option (List (String × Node)) :=
  match find? key es with
  | none => some (put key (.tables [] []) es)
  | some (.tables earlier last) =>
    some (put key (.tables (earlier ++ [.table .header last]) []) es)
  | some _ => none

mutual
def toToml : Node → Toml
  | .leaf v => v
  | .table _ es => .table (toTomlEntries es)
  | .tables earlier last => .array (toTomlItems earlier ++ [.table (toTomlEntries last)])

def toTomlItems : List Node → List Toml
  | [] => []
  | n :: ns => toToml n :: toTomlItems ns

def toTomlEntries : List (String × Node) → List (String × Toml)
  | [] => []
  | (k, n) :: es => (k, toToml n) :: toTomlEntries es
end

end Node

def items? {α : Type} (read : List Char → Option (α × List Char)) (cs : List Char) :
    Option (List α × List Char) :=
  match dropLines false cs with
  | ']' :: rest => some ([], rest)
  | cs' =>
    match read cs' with
    | none => none
    | some (a, rest) =>
      match dropLines false rest with
      | ']' :: rest => some ([a], rest)
      | ',' :: rest =>
        if _h : rest.length < cs.length then (items? read rest).map fun (as, r) => (a :: as, r)
        else none
      | _ => none
termination_by cs.length

def members? {α : Type} (read : List Char → Option (α × List Char)) (cs : List Char) :
    Option (List α × List Char) :=
  match read (dropGap cs) with
  | none => none
  | some (a, rest) =>
    match dropGap rest with
    | '\x7d' :: rest => some ([a], rest)
    | ',' :: rest =>
      if _h : rest.length < cs.length then (members? read rest).map fun (as, r) => (a :: as, r)
      else none
    | _ => none
termination_by cs.length

def assignment? (read : List Char → Option (Toml × List Char)) (cs : List Char) :
    Option ((List String × String × Toml) × List Char) := do
  match ← boundedPath? cs with
  | ((ks, k), '=' :: rest) =>
    let (v, rest) ← read (dropGap rest)
    return ((ks, k, v), rest)
  | _ => none

def ofEntries (es : List (List String × String × Toml)) : Option Toml :=
  (es.foldlM (fun nodes (ks, k, v) => Node.insert k v ks nodes) []).map fun nodes =>
    .table (Node.toTomlEntries nodes)

def value? : Nat → List Char → Option (Toml × List Char)
  | depth, '[' :: cs =>
    match depth with
    | 0 => none
    | depth + 1 => (items? (value? depth) cs).map fun (vs, rest) => (.array vs, rest)
  | depth, '\x7b' :: cs =>
    match depth with
    | 0 => none
    | depth + 1 =>
      match dropGap cs with
      | '\x7d' :: rest => some (.table [], rest)
      | cs =>
        match members? (assignment? (value? depth)) cs with
        | none => none
        | some (es, rest) => (ofEntries es).map fun t => (t, rest)
  | _, cs =>
    match string? cs with
    | some (s, rest) => some (.string (String.ofList s), rest)
    | none =>
      let (w, rest) := word cs
      (ofWord w).map fun v => (v, rest)

/-- The entries read so far, and the path of the table that was opened last. -/
structure Document where
  entries : List (String × Node)
  path : List String

def header? (d : Document) (cs : List Char) : Option (Document × List Char) := do
  match cs with
  | '[' :: cs =>
    match ← boundedPath? cs with
    | ((ks, k), ']' :: ']' :: rest) =>
      return (⟨← Node.under (Node.openElement k) ks d.entries, ks ++ [k]⟩, rest)
    | _ => none
  | cs =>
    match ← boundedPath? cs with
    | ((ks, k), ']' :: rest) =>
      return (⟨← Node.under (Node.openTable k) ks d.entries, ks ++ [k]⟩, rest)
    | _ => none

def statement? (d : Document) (cs : List Char) : Option (Document × List Char) := do
  match cs with
  | '[' :: cs => header? d cs
  | cs =>
    let ((ks, k, v), rest) ← assignment? (value? maxDepth) cs
    return (⟨← Node.under (Node.insert k v ks) d.path d.entries, d.path⟩, rest)

def document? (d : Document) (cs : List Char) : Option Document :=
  match dropLines false cs with
  | [] => some d
  | cs' =>
    match statement? d cs' with
    | none => none
    | some (d, rest) =>
      match lineEnd? rest with
      | none => none
      | some rest => if _h : rest.length < cs.length then document? d rest else none
termination_by cs.length

def dropMark : List Char → List Char
  | c :: cs => if c.toNat = 0xFEFF then cs else c :: cs
  | [] => []

def read? (s : String) : Option Toml :=
  (document? ⟨[], []⟩ (dropMark s.toList)).map fun d => .table (Node.toTomlEntries d.entries)

end EidMap.Toml
