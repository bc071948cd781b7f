import EidMap.Text.Cut
import EidMap.Url.Basic

/-!
What can go wrong with one request to the store.
-/

namespace EidMap.Rpc

inductive TransportFault
  | connect
  | timeout
  | interrupted
  | unsupportedScheme
  | bodyCutShort
deriving DecidableEq

inductive Error
  | unauthorized
  | transport (fault : TransportFault) (url : Url)
  | invalidUrl (e : Url.ReadError)
  | tls (message : String)
  | notFound (path : String)
  | refused (status : Nat) (messages : List String)
  | undecodable (reason preview : String)
deriving DecidableEq

namespace Error

def transportMessage (fault : TransportFault) (url : Url) : String :=
  match fault with
  | .connect | .timeout | .interrupted => "error sending request for url (" ++ url.text ++ ")"
  | .unsupportedScheme => "builder error for url (" ++ url.text ++ ")"
  | .bodyCutShort => "error decoding response body"

def undecodableMessage (reason preview : String) : String :=
  reason ++ " (body preview: " ++ preview ++ ")"

def unauthorizedMessage : String := "credentials rejected by the mapping service"

def message : Error → String
  | .unauthorized => "Authentication failed: " ++ unauthorizedMessage
  | .transport fault url => "HTTP transport error: " ++ transportMessage fault url
  | .invalidUrl e => "Invalid URL: " ++ e.message
  | .tls message => "TLS error: " ++ message
  | .notFound path => "Resource not found: " ++ path
  | .refused status messages =>
    "RESTCONF error (HTTP " ++ Text.natText status ++ "): " ++ String.intercalate ", " messages
  | .undecodable reason preview =>
    "Deserialization error: " ++ undecodableMessage reason preview

def isAuth : Error → Bool
  | .unauthorized => true
  | _ => false

def isTransient : Error → Bool
  | .transport .connect _ | .transport .timeout _ => true
  | .refused status _ => 500 ≤ status
  | _ => false

def isNotFound : Error → Bool
  | .notFound _ => true
  | _ => false

def serverMessage : Error → Option String
  | .refused _ (m :: ms) => some (String.intercalate ", " (m :: ms))
  | _ => none

end Error

end EidMap.Rpc
