import EidMap.Service.Basic
import EidMap.Table.Status

/-!
The calls of a mapping service as data, so that a whole session can be spoken of: a call gives an
answer and leaves a service.
-/

namespace EidMap.Service

inductive Call
  | connect
  | refresh (t : Topic)
  | lookup (t : Topic) (eidUri : String)
  | delete (t : Topic) (eidUri : String)
  | toggle (t : Topic) (index : Nat) (p : Panel)
  | execute (c : Command)

inductive Answer
  | done
  | mappings (t : Table Mapping)
  | keys (t : Table KeyEntry)
  | mapping (m : Mapping)
  | key (k : KeyEntry)
  | toggled (b : Bool)
  | executed (r : Result)

def answerWith {α : Type} (f : α → Answer) : Outcome α × Service → Outcome Answer × Service
  | (.ok a, s) => (.ok (f a), s)
  | (.error e, s) => (.error e, s)

def perform (s : Service) : Call → Outcome Answer × Service
  | .connect => answerWith (fun _ => .done) (s.connect, s)
  | .refresh .mappings => answerWith .mappings (s.refresh mappingShelf)
  | .refresh .keys => answerWith .keys (s.refresh keyShelf)
  | .lookup .mappings eidUri => answerWith .mapping (s.lookup mappingShelf eidUri)
  | .lookup .keys eidUri => answerWith .key (s.lookup keyShelf eidUri)
  | .delete .mappings eidUri => answerWith (fun _ => .done) (s.delete mappingShelf eidUri)
  | .delete .keys eidUri => answerWith (fun _ => .done) (s.delete keyShelf eidUri)
  | .toggle .mappings index p =>
    let (b, s) := s.toggle mappingShelf index p
    (.ok (.toggled b), s)
  | .toggle .keys index p =>
    let (b, s) := s.toggle keyShelf index p
    (.ok (.toggled b), s)
  | .execute c => answerWith .executed (s.execute c)

def run (s : Service) (cs : List Call) : Service := cs.foldl (fun s c => (s.perform c).2) s

end EidMap.Service
