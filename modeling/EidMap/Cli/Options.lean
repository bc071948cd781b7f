import EidMap.Cli.Arguments
import EidMap.Locator
import EidMap.Output.Format

/-!
What a command line asks for: settings that hold for every command, and one command.
-/

namespace EidMap.Cli

inductive Color
  | auto
  | always
  | never
deriving DecidableEq

structure Globals where
  profile : Option String
  controller : Option String
  username : Option String
  password : Option String
  output : Output.Format
  color : Color
  quiet : Bool
  yes : Bool
  insecure : Bool
  timeout : Option UInt64

structure Selection where
  vni : Option UInt32
  filter : Option String

structure MappingWrite where
  eid : Option String
  vni : UInt32
  rlocs : List String
  priority : UInt8
  weight : UInt8
  ttl : Option UInt32
  action : Action
  authoritative : Bool
  fromFile : Option String

structure KeyWrite where
  eid : String
  vni : UInt32
  keyType : UInt16
  key : Option String

inductive ConfigCommand
  | init
  | show
  | set (key value : String)
  | profiles
  | use (name : String)
  | setPassword

inductive StoreCommand
  | list (t : Topic) (s : Selection)
  | get (t : Topic) (eidUri : String)
  | lookup (t : Topic) (eid : String)
  | writeMapping (c : Change) (m : MappingWrite)
  | writeKey (c : Change) (k : KeyWrite)
  | delete (t : Topic) (eidUri : String)

inductive Command
  | store (c : StoreCommand)
  | config (c : ConfigCommand)
  | completions (shell : String)

structure Options where
  globals : Globals
  command : Command

namespace Arguments

def valuesOf (given : List Given) (p : Parameter) : List String :=
  ((given.find? (·.parameter == p)).map Given.values).getD []

def textOf (given : List Given) (p : Parameter) : Option String := (valuesOf given p).head?

def naturalOf (given : List Given) (p : Parameter) (bits : Nat) : Option Nat :=
  (textOf given p).bind (natural? bits)

/-- A switch is on if it was given, unless the environment turns it off. -/
def isOn (given : List Given) (p : Parameter) : Bool := textOf given p == some "true"

def format (s : String) : Output.Format :=
  match s with
  | "json" => .json
  | "json-compact" => .compactJson
  | "yaml" => .yaml
  | "plain" => .plain
  | _ => .table

def colorOf (s : String) : Color :=
  match s with
  | "always" => .always
  | "never" => .never
  | _ => .auto

def action (s : String) : Action :=
  match s with
  | "natively-forward" => .nativelyForward
  | "send-map-request" => .sendMapRequest
  | "drop" => .drop
  | _ => .noAction

def globalsOf (gs : List Given) : Globals :=
  { profile := textOf gs .profile
    controller := textOf gs .controller
    username := textOf gs .username
    password := textOf gs .password
    output := format ((textOf gs .output).getD "table")
    color := colorOf ((textOf gs .color).getD "auto")
    quiet := isOn gs .quiet
    yes := isOn gs .yes
    insecure := isOn gs .insecure
    timeout := (naturalOf gs .timeout 64).map UInt64.ofNat }

def vni (gs : List Given) : Option UInt32 := (naturalOf gs .vni 32).map UInt32.ofNat

def mappingWrite (gs : List Given) : MappingWrite :=
  { eid := textOf gs .eid
    vni := (vni gs).getD 0
    rlocs := valuesOf gs .rloc
    priority := UInt8.ofNat ((naturalOf gs .priority 8).getD 1)
    weight := UInt8.ofNat ((naturalOf gs .weight 8).getD 100)
    ttl := (naturalOf gs .ttl 32).map UInt32.ofNat
    action := action ((textOf gs .action).getD "no-action")
    authoritative := isOn gs .authoritative
    fromFile := textOf gs .fromFile }

def keyWrite (gs : List Given) : KeyWrite :=
  { eid := (textOf gs .eid).getD ""
    vni := (vni gs).getD 0
    keyType := UInt16.ofNat ((naturalOf gs .keyType 16).getD 1)
    key := textOf gs .key }

def command? (a : Arguments) : Option Command :=
  let word (i : Nat) := (textOf a.own (.word i)).getD ""
  match a.level with
  | .root | .topic _ | .config => none
  | .list t => some (.store (.list t ⟨vni a.own, textOf a.own .filter⟩))
  | .get t => some (.store (.get t (word 0)))
  | .lookup t => some (.store (.lookup t (word 0)))
  | .change .mappings c => some (.store (.writeMapping c (mappingWrite a.own)))
  | .change .keys c => some (.store (.writeKey c (keyWrite a.own)))
  | .delete t => some (.store (.delete t (word 0)))
  | .configAction .init => some (.config .init)
  | .configAction .show => some (.config .show)
  | .configAction .set => some (.config (.set (word 0) (word 1)))
  | .configAction .profiles => some (.config .profiles)
  | .configAction .use => some (.config (.use (word 0)))
  | .configAction .setPassword => some (.config .setPassword)
  | .completions => some (.completions (word 0))

end Arguments

def Options.read (env : Environment) (ws : List String) : Except Usage Options := do
  let a ← Arguments.read env ws
  match a.command? with
  | some c => return ⟨Arguments.globalsOf a.globals, c⟩
  | none => .error .missingSubcommand

end EidMap.Cli
