import EidMap.Cli.Requests
import EidMap.Cli.Setup
import EidMap.Cli.World
import EidMap.Output.Rows
import EidMap.Service.Basic

/-!
A run of the whole program: the command line is read with the environment, then its command is run.
Of the commands about the store, rows are listed and found in a fresh load, and a change prints the
banner that it leaves above its table.
-/

namespace EidMap.Cli

abbrev Answer := Except Error Printed × Service

structure Rows (α : Type) where
  shelf : Service.Shelf α
  view : Output.View α
  vni : α → UInt32
  eid : α → Address
  ofResult : Service.Result → Option α
  lookup : EidRequest → EidMap.Command
  question : String → String

def mappings : Rows Mapping :=
  { shelf := Service.mappingShelf
    view := Mapping.view
    vni := (·.vni)
    eid := (·.eid)
    ofResult
      | .mapping m => some m
      | _ => none
    lookup := .getMapping
    question := fun eidUri => "Remove mapping '" ++ eidUri ++ "'?" }

def keys : Rows KeyEntry :=
  { shelf := Service.keyShelf
    view := KeyEntry.view
    vni := (·.vni)
    eid := (·.eid)
    ofResult
      | .key k => some k
      | _ => none
    lookup := .getKey
    question := fun eidUri => "Remove key for '" ++ eidUri ++ "'?" }

namespace Rows

variable {α : Type}

def isSelected (r : Rows α) (s : Selection) (a : α) : Bool :=
  s.vni.all (· == r.vni a) &&
    s.filter.all fun text => Text.holds text.toList (r.eid a).display.toList

def list (r : Rows α) (g : Globals) (sel : Selection) (s : Service) : Answer :=
  match s.refresh r.shelf with
  | (.error e, s) => (.error (.ofService e), s)
  | (.ok t, s) =>
    (.ok (.result g (g.output.list r.view (t.items.filter (r.isSelected sel)))), s)

def get (r : Rows α) (g : Globals) (eidUri : String) (s : Service) : Answer :=
  match s.lookup r.shelf eidUri with
  | (.error e, s) => (.error (.ofService e), s)
  | (.ok a, s) => (.ok (.result g (g.output.single r.view a)), s)

def printFound (r : Rows α) (g : Globals) (a : α) : Printed :=
  .result g (g.output.single { r.view with name := fun a => (r.eid a).display } a)

def ask (r : Rows α) (g : Globals) (eid : String) (s : Service) : Answer :=
  match readAddress "eid" eid with
  | .error e => (.error e, s)
  | .ok a =>
    let c := r.lookup ⟨a⟩
    match s.execute c with
    | (.error e, s) => (.error (.ofService e), s)
    | (.ok found, s) =>
      match r.ofResult found with
      | some a => (.ok (r.printFound g a), s)
      | none => (.error (.api (c.operation.name ++ " returned no record") none), s)

def change (r : Rows α) (g : Globals) (c : Except Error EidMap.Command) (s : Service) : Answer :=
  match c with
  | .error e => (.error e, s)
  | .ok c =>
    match s.execute c with
    | (.error e, s) => (.error (.ofService e), s)
    | (.ok _, s) => (.ok (banner g (r.shelf.get s).status), s)

def delete (r : Rows α) (g : Globals) (eidUri : String) (s : Service) : Answer :=
  if !g.yes then (.error (.unconfirmed (r.question eidUri)), s)
  else
    match s.delete r.shelf eidUri with
    | (.error e, s) => (.error (.ofService e), s)
    | (.ok (), s) => (.ok (banner g (r.shelf.get s).status), s)

end Rows

def mappingChange (c : Change) (r : MappingRequest) : EidMap.Command :=
  match c with
  | .add => .addMapping r
  | .update => .updateMapping r

def keyChange (c : Change) (r : KeyRequest) : EidMap.Command :=
  match c with
  | .add => .addKey r
  | .update => .updateKey r

namespace StoreCommand

def run (g : Globals) (s : Service) : StoreCommand → Answer
  | .list .mappings sel => mappings.list g sel s
  | .list .keys sel => keys.list g sel s
  | .get .mappings eidUri => mappings.get g eidUri s
  | .get .keys eidUri => keys.get g eidUri s
  | .lookup .mappings eid => mappings.ask g eid s
  | .lookup .keys eid => keys.ask g eid s
  | .writeMapping c m => mappings.change g ((m.request s.files).map (mappingChange c)) s
  | .writeKey c k => keys.change g (k.request.map (keyChange c)) s
  | .delete .mappings eidUri => mappings.delete g eidUri s
  | .delete .keys eidUri => keys.delete g eidUri s

def runIn (w : World) (g : Globals) (c : StoreCommand) : Run :=
  match g.settings w.config w.secrets w.configPath with
  | .error e => .failed e w
  | .ok settings =>
    -- Nothing that a run prints tells a time, so the clocks of the tables may stand still.
    let service := Service.new settings w.files w.network
    match service.connect with
    | .error e => .failed (.ofService e) w
    | .ok () =>
      match c.run g service with
      | (.ok p, s) => .done p { w with network := s.network }
      | (.error e, s) => .failed e { w with network := s.network }

end StoreCommand

/-- Runs a command; scripts that complete command lines are not among what is printed. -/
def Command.run (w : World) (g : Globals) : Command → Run
  | .store c => c.runIn w g
  | .config c => c.run w g
  | .completions _ => .done .nothing w

def run (w : World) (args : List String) : Except Usage Run :=
  match Options.read w.environment args with
  | .ok o => .ok (o.command.run w o.globals)
  | .error u => .error u

end EidMap.Cli
