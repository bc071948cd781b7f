import EidMap.Rpc.Network
import EidMap.Rpc.Operation
import EidMap.Rpc.Reason
import EidMap.Text.Cut

/-!
The client of the store. The database is read from the configuration datastore, every operation is
posted to its own path; both paths follow the path of the base URL. An answer that is no success is
told apart by its status and by the messages of its error document.
-/

namespace EidMap.Rpc

open Json (Decoded Doc Field record required optional defaulted)

structure ErrorEntry where
  tag : Option String
  message : Option String

namespace ErrorEntry

def tagField : Field Doc (Option String) := optional "error-tag" Json.text
def messageField : Field Doc (Option String) := optional "error-message" Json.text

def read : Doc → Decoded ErrorEntry :=
  record "struct ErrorEntry" [tagField.guard, messageField.guard] fun p => do
    return ⟨← p.get tagField, ← p.get messageField⟩

def entriesField : Field Doc (List ErrorEntry) := defaulted "error" (Json.list read) []

def readList : Doc → Decoded (List ErrorEntry) :=
  record "struct ErrorList" [entriesField.guard] fun p => p.get entriesField

def errorsField : Field Doc (List ErrorEntry) := required "errors" readList

def readDocument : Doc → Decoded (List ErrorEntry) :=
  record "struct ErrorDocument" [errorsField.guard] fun p => p.get errorsField

end ErrorEntry

def errorMessages (body : String) : List String :=
  match Json.decodeText ErrorEntry.readDocument body with
  | .ok entries => entries.filterMap fun e => e.message <|> e.tag
  | .error _ => []

def preview (body : String) : String := String.ofList (body.toList.take 200)

def decodeBody {α : Type} (read : Doc → Decoded α) (body : String) : Except Error α :=
  match Json.decodeText read body with
  | .ok a => .ok a
  | .error e => .error (.undecodable (e.messageIn body) (Text.quoted (preview body)))

def isSuccess (status : Nat) : Bool := 200 ≤ status && status < 300

/-- The body of a success, or what the answer says is wrong. -/
def checkStatus (url : Url) (status : Nat) (body : String) : Except Error String :=
  if isSuccess status then .ok body
  else if status = 401 then .error .unauthorized
  else
    match errorMessages body with
    | [] =>
      if status = 404 then .error (.notFound url.pathText)
      else .error (.refused status ["HTTP " ++ statusText status ++ ": " ++ preview body])
    | messages => .error (.refused status messages)

structure Credentials where
  username : String
  password : String
deriving DecidableEq

def Credentials.header (c : Credentials) : String :=
  "Basic " ++ String.ofList (Text.base64 (c.username ++ ":" ++ c.password).toUTF8.toList)

structure Client where
  base : Url
  credentials : Option Credentials

namespace Client

def resourceUrl (c : Client) (datastore resource : String) : Except Error Url :=
  let base := String.ofList (Text.dropTrailing '/' c.base.text.toList)
  match Url.read (base ++ "/restconf/" ++ datastore ++ "/" ++ resource) with
  | .ok u => .ok u
  | .error e => .error (.invalidUrl e)

def databaseUrl (c : Client) : Except Error Url :=
  c.resourceUrl "config" "odl-mappingservice:mapping-database"

def operationUrl (c : Client) (op : Operation) : Except Error Url :=
  c.resourceUrl "operations" ("odl-mappingservice:" ++ op.name)

def urlCredentials (u : Url) : Option Credentials :=
  match u.authority with
  | none => none
  | some a =>
    if a.username.isEmpty && a.password.isNone then none
    else
      let decode (s : String) := String.ofList ((Url.decode? s.toList).getD s.toList)
      some ⟨decode a.username, decode (a.password.getD "")⟩

def authorization (c : Client) (u : Url) : List (String × String) :=
  ((urlCredentials u).toList ++ c.credentials.toList).map fun k => ("authorization", k.header)

def userAgent : String × String := ("user-agent", "lispmap/0.1.0")

def accept : String × String := ("accept", "application/json")

def contentType : String × String := ("content-type", "application/yang.data+json")

def getRequest (c : Client) (u : Url) : Request :=
  ⟨.get, u.withoutUser, c.authorization u ++ [accept, userAgent], none⟩

def postRequest (c : Client) (u : Url) (body : Json) : Request :=
  ⟨.post, u.withoutUser, c.authorization u ++ [contentType, accept, userAgent], some body⟩

def exchange (r : Request) (n : Network) : Except Error String × Network :=
  match n.send r with
  | (.ok (status, body), n) => (checkStatus r.url status body, n)
  | (.error e, n) => (.error e, n)

/-- Posts a body; an answer without text has no value. -/
def post {α : Type} (c : Client) (op : Operation) (body : Json) (read : Doc → Decoded α)
    (n : Network) : Except Error (Option α) × Network :=
  match c.operationUrl op with
  | .error e => (.error e, n)
  | .ok u =>
    match exchange (c.postRequest u body) n with
    | (.error e, n) => (.error e, n)
    | (.ok text, n) =>
      if (Text.trim text.toList).isEmpty then (.ok none, n)
      else ((decodeBody read text).map some, n)

/-- The database; a store that has none has an empty one. -/
def mappingDatabase (c : Client) (n : Network) : Except Error Stored.Database × Network :=
  match c.databaseUrl with
  | .error e => (.error e, n)
  | .ok u =>
    match exchange (c.getRequest u) n with
    | (.error (.notFound _), n) => (.ok .empty, n)
    | (.error e, n) => (.error e, n)
    | (.ok text, n) => (decodeBody Stored.Database.readDocument text, n)

def readOutput {α : Type} (read : Doc → Decoded α) (absent : α) : Doc → Decoded α :=
  let output : Field Doc α := defaulted "output" read absent
  record "struct RpcOutput" [output.guard] fun p => p.get output

def invokeUnit (c : Client) (op : Operation) (input : Json) (n : Network) :
    Except Error Unit × Network :=
  match c.post op (Rpc.input input) (readOutput Json.value .null) n with
  | (.ok _, n) => (.ok (), n)
  | (.error e, n) => (.error e, n)

def keyInput (eid : Json) (key : Stored.Secret) : Json :=
  .object [("eid", eid), ("mapping-authkey", key.toJson)]

def addKey (c : Client) (eid : Json) (key : Stored.Secret) :
    Network → Except Error Unit × Network :=
  c.invokeUnit .addKey (keyInput eid key)

def updateKey (c : Client) (eid : Json) (key : Stored.Secret) :
    Network → Except Error Unit × Network :=
  c.invokeUnit .updateKey (keyInput eid key)

def removeKey (c : Client) (eid : Json) : Network → Except Error Unit × Network :=
  c.invokeUnit .removeKey (.object [("eid", eid)])

def recordInput (r : Stored.Record) : Json := .object [("mapping-record", r.toJson)]

def addMapping (c : Client) (r : Stored.Record) : Network → Except Error Unit × Network :=
  c.invokeUnit .addMapping (recordInput r)

def updateMapping (c : Client) (r : Stored.Record) : Network → Except Error Unit × Network :=
  c.invokeUnit .updateMapping (recordInput r)

def removeMapping (c : Client) (eid : Json) : Network → Except Error Unit × Network :=
  c.invokeUnit .removeMapping (.object [("eid", eid)])

def lookup {α : Type} (c : Client) (op : Operation) (eid : Json) (kind : String)
    (found : Field Doc (Option α)) (n : Network) : Except Error (Option α) × Network :=
  let read : Doc → Decoded (Option α) := record kind [found.guard] fun p => p.get found
  match c.post op (eidInput eid) (readOutput read none) n with
  | (.ok a, n) => (.ok (a.getD none), n)
  | (.error e, n) => (.error e, n)

def getKey (c : Client) (eid : Json) :
    Network → Except Error (Option Stored.Secret) × Network :=
  c.lookup .getKey eid "struct GetKeyOutput" (optional "mapping-authkey" Stored.Secret.read)

def getMapping (c : Client) (eid : Json) :
    Network → Except Error (Option Stored.Record) × Network :=
  c.lookup .getMapping eid "struct GetMappingOutput" (optional "mapping-record" Stored.Record.read)

def removeRaw (c : Client) (op : Operation) (body : Json) (n : Network) :
    Except Error Unit × Network :=
  match c.post op body Json.value n with
  | (.ok _, n) => (.ok (), n)
  | (.error e, n) => (.error e, n)

end Client

end EidMap.Rpc
