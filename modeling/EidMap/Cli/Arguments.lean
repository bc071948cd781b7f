import EidMap.Cli.Parameter
import EidMap.Config.Environment

/-!
Reading a command line. The words are read from left to right, each level on its own; a value is
checked when the next word that is understood arrives, so a word that is not understood is noticed
first. At the end the levels are closed from the last one up: what a level was not given it takes
from the environment.
-/

namespace EidMap.Cli

inductive Source
  | environment
  | commandLine
deriving DecidableEq

structure Given where
  parameter : Parameter
  source : Source
  values : List String

/-- What was read on one level. A parameter may await its value, or have one that is not yet
checked. -/
structure Frame where
  level : Level
  given : List Given
  pending : Option (Parameter × Option String)
  /-- How many words without a flag were read. -/
  placed : Nat

namespace Frame

def start (l : Level) : Frame := ⟨l, [], none, 0⟩

def find? (f : Frame) (p : Parameter) : Option Given := f.given.find? (·.parameter == p)

def has (f : Frame) (p : Parameter) : Bool := (f.find? p).isSome

def isAwaiting (f : Frame) : Bool :=
  match f.pending with
  | some (_, none) => true
  | _ => false

def once (f : Frame) (p : Parameter) (value : String) : Except Usage Frame :=
  if f.has p then .error .argumentConflict
  else do
    (f.level.valueKind p).check value
    return { f with given := f.given ++ [⟨p, .commandLine, [value]⟩] }

def replace (f : Frame) (g : Given) : Frame :=
  { f with given := f.given.filter (·.parameter != g.parameter) ++ [g] }

def more (f : Frame) (p : Parameter) (value : String) : Frame :=
  f.replace ⟨p, .commandLine, ((f.find? p).map Given.values).getD [] ++ [value]⟩

def note (f : Frame) (p : Parameter) (value : String) : Except Usage Frame :=
  match p.arity with
  | .help => .error .help
  | .version => .error .version
  | .switch => f.once p "true"
  | .count => .ok (f.more p "")
  | .one _ => f.once p value
  | .many k => do
    k.check value
    return f.more p value

def settle (f : Frame) : Except Usage Frame :=
  match f.pending with
  | none => .ok f
  | some (_, none) => .error .invalidValue
  | some (p, some value) => note { f with pending := none } p value

def take (f : Frame) (p : Parameter) (value : String) : Except Usage Frame := do
  (← f.settle).note p value

def await (f : Frame) (p : Parameter) : Except Usage Frame := do
  return { ← f.settle with pending := some (p, none) }

def longFlag (f : Frame) (cs : List Char) : Except Usage Frame :=
  let (name, value) := match Text.cutFirst '=' cs with
    | some (name, value) => (name, some (String.ofList value))
    | none => (cs, none)
  match f.level.long? (String.ofList name), value with
  | none, _ => .error .unknownArgument
  | some p, some value => if p.takesValue then f.take p value else .error .tooManyValues
  | some p, none => if p.takesValue then f.await p else f.take p ""

/-- Flags of one letter behind one dash; the rest behind a flag that takes a value is its value. -/
def shortFlags (f : Frame) : List Char → Except Usage Frame
  | [] => .ok f
  | c :: cs =>
    match f.level.short? c with
    | none => .error .unknownArgument
    | some p =>
      if !p.takesValue then
        match f.take p "" with
        | .ok f => shortFlags f cs
        | .error u => .error u
      else
        match cs with
        | [] => f.await p
        | '=' :: value => f.take p (String.ofList value)
        | value => f.take p (String.ofList value)

def plainWord (f : Frame) (literal : Bool) (w : String) : Except Usage Frame :=
  if f.placed < f.level.words.length then do
    let f ← f.settle
    return { f with pending := some (.word f.placed, some w), placed := f.placed + 1 }
  else if !f.level.hasSubcommands then .error .unknownArgument
  else if literal && ((f.level.next? w).isSome || w == "help") then .error .unknownArgument
  else .error .invalidSubcommand

def word (f : Frame) (w : String) : Except Usage Frame :=
  match w.toList with
  | '-' :: '-' :: cs => f.longFlag cs
  | '-' :: c :: cs => f.shortFlags (c :: cs)
  | _ =>
    match f.pending with
    | some (p, none) => .ok { f with pending := some (p, some w) }
    | _ => f.plainWord false w

def fill (env : Environment) (f : Frame) (p : Parameter) : Except Usage Frame :=
  if f.has p then .ok f
  else
    match p.envName.bind env.get? with
    | none => .ok f
    | some value => do
      (f.level.valueKind p).check value
      return { f with given := f.given ++ [⟨p, .environment, [value]⟩] }

/-- A request file takes the place of the flags that make up a request. -/
def checkConflicts (f : Frame) : Except Usage Unit :=
  if f.has .fromFile && (f.has .eid || f.has .rloc) then .error .argumentConflict else .ok ()

def checkRequired (f : Frame) : Except Usage Unit :=
  let eidMissing := match f.level with
    | .change .mappings _ => !f.has .eid && !f.has .fromFile
    | .change .keys _ => !f.has .eid
    | _ => false
  if eidMissing || f.placed < f.level.words.length then .error .missingRequiredArgument else .ok ()

def close (env : Environment) (last : Bool) (f : Frame) : Except Usage Frame := do
  let f ← f.settle
  let f ← f.level.flags.foldlM (fill env) f
  if last && f.level.hasSubcommands then
    if f.given.isEmpty then .error .helpOnMissing else .error .missingSubcommand
  else
    f.checkConflicts
    f.checkRequired
    return f

end Frame

def helpFor : Level → List String → Usage
  | _, [] => .help
  | l, w :: ws =>
    match l.next? w with
    | some l => helpFor l ws
    | none => if l.hasSubcommands && w == "help" && ws.isEmpty then .help else .invalidSubcommand

def readWords : (literal : Bool) → Frame → List Frame → List String → Except Usage (List Frame)
  | _, f, above, [] => .ok (f :: above)
  | true, f, above, w :: ws => do readWords true (← f.plainWord true w) above ws
  | false, f, above, w :: ws =>
    match (if f.isAwaiting then none else f.level.next? w) with
    | some l => readWords false (Frame.start l) (f :: above) ws
    | none =>
      if !f.isAwaiting && w == "help" && f.level.hasSubcommands then .error (helpFor f.level ws)
      else if w == "--" then readWords true f above ws
      else do readWords false (← f.word w) above ws

/-- The value of a global parameter: that of the lowest level, unless one above is more explicit. -/
def prevailing (p : Parameter) : List Frame → Option Given
  | [] => none
  | f :: above =>
    match f.find? p, prevailing p above with
    | some g, some h =>
      if g.source = .environment && h.source = .commandLine then some h else some g
    | some g, none => some g
    | none, h => h

structure Arguments where
  level : Level
  own : List Given
  globals : List Given

def Arguments.read (env : Environment) (ws : List String) : Except Usage Arguments := do
  let frames ← readWords false (Frame.start .root) [] ws
  match frames with
  | [] => .error .missingSubcommand
  | f :: above =>
    let f ← f.close env true
    let above ← above.mapM (Frame.close env false)
    return ⟨f.level, f.given, Parameter.globals.filterMap fun p => prevailing p (f :: above)⟩

end EidMap.Cli
