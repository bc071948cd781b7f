/-!
The two tables, of the mappings and of the keys of a store, and the banner above a table: what
happened to it last.
-/

namespace EidMap

inductive Topic
  | mappings
  | keys
deriving DecidableEq

inductive Status
  | idle
  | loading
  | loaded
  | loadError (message : String)
  | operationSucceeded (operation : String)
  | operationFailed (operation message : String)
deriving DecidableEq

namespace Status

def text : Status → String
  | .idle => ""
  | .loading => "Loading…"
  | .loaded => "Loaded"
  | .loadError message => "Load failed: " ++ message
  | .operationSucceeded operation => operation ++ " succeeded"
  | .operationFailed operation message => operation ++ " failed: " ++ message

def isError : Status → Bool
  | .loadError _ | .operationFailed .. => true
  | _ => false

/-- How long the banner of a success stays, in milliseconds. -/
def successLife : Int := 2000

/-- Is the banner still shown some milliseconds after it was set? A success fades, all else stays. -/
def isVisible (s : Status) (elapsed : Int) : Bool :=
  match s with
  | .idle => false
  | .loaded | .operationSucceeded _ => elapsed < successLife
  | .loading | .loadError _ | .operationFailed .. => true

end Status

end EidMap
