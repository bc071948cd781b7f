import EidMap.Json.Text
import EidMap.Rpc.Error

/-!
The network as a script: the store answers the requests it receives with the replies of a list, in
order, and records what it received. A request to a place where nothing listens is refused and not
recorded.
-/

namespace EidMap.Rpc

inductive Method
  | get
  | post
deriving DecidableEq

def Method.name : Method → String
  | .get => "GET"
  | .post => "POST"

structure Request where
  method : Method
  url : Url
  headers : List (String × String)
  body : Option Json

inductive Reply
  | answer (status : Nat) (body : String)
  /-- The connection is closed without an answer. -/
  | close
  /-- The body ends before it is complete. -/
  | truncate
  /-- No answer ever comes. -/
  | hang
deriving DecidableEq

def Reply.exhausted : Reply := .answer 500 "script exhausted"

structure Network where
  listens : Url → Bool
  script : List Reply
  received : List Request

namespace Network

def isWeb (u : Url) : Bool := u.scheme == "http" || u.scheme == "https"

def next (n : Network) (r : Request) : Reply × Network :=
  match n.script with
  | [] => (.exhausted, { n with received := n.received ++ [r] })
  | reply :: script => (reply, { n with script, received := n.received ++ [r] })

def send (n : Network) (r : Request) : Except Error (Nat × String) × Network :=
  if !isWeb r.url then (.error (.transport .unsupportedScheme r.url), n)
  else if !n.listens r.url then (.error (.transport .connect r.url), n)
  else
    match n.next { r with url := r.url.withoutFragment } with
    | (.answer status body, n) => (.ok (status, body), n)
    | (.close, n) => (.error (.transport .interrupted r.url), n)
    | (.truncate, n) => (.error (.transport .bodyCutShort r.url), n)
    | (.hang, n) => (.error (.transport .timeout r.url), n)

end Network

end EidMap.Rpc
