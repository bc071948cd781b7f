import EidMap.Address.Parse
import EidMap.Rpc.Error

/-!
Errors of the mapping service, as its users see them. A failure of the store is told as the failed
load of a table or as a failed operation; those that say something of their own, such as a refused
connection, keep their kind.
-/

namespace EidMap

inductive ServiceError
  | connectionFailed (url reason : String)
  | authenticationFailed (message : String)
  | timeout
  | loadFailed (table message : String)
  | notFound (entity identifier : String)
  | invalidInput (message : String)
  | address (e : Address.ParseError)
  | operationFailed (operation message : String)
  | api (message : String) (status : Option Nat)
  | config (message : String)
  | unexpected (message : String)
deriving DecidableEq

namespace ServiceError

def message : ServiceError → String
  | .connectionFailed url reason =>
    "Cannot connect to mapping service at " ++ url ++ ": " ++ reason
  | .authenticationFailed message => "Authentication failed: " ++ message
  | .timeout => "Request timed out"
  | .loadFailed table message => "Failed to load " ++ table ++ ": " ++ message
  | .notFound entity identifier => entity ++ " not found: " ++ identifier
  | .invalidInput message => "Invalid input: " ++ message
  | .address e => e.message
  | .operationFailed operation message => operation ++ " failed: " ++ message
  | .api message _ => "API error: " ++ message
  | .config message => "Configuration error: " ++ message
  | .unexpected message => "Internal error: " ++ message

def asLoadError (table : String) : ServiceError → ServiceError
  | .api message _ => .loadFailed table message
  | .unexpected message => .loadFailed table message
  | e => e

def asOperationError (operation : String) : ServiceError → ServiceError
  | .api message _ => .operationFailed operation message
  | .unexpected message => .operationFailed operation message
  | e => e

def ofRpc : Rpc.Error → ServiceError
  | .unauthorized => .authenticationFailed Rpc.Error.unauthorizedMessage
  | .transport .timeout _ => .timeout
  | .transport .connect url =>
    .connectionFailed url.text (Rpc.Error.transportMessage .connect url)
  | .transport fault url => .api (Rpc.Error.transportMessage fault url) none
  | .invalidUrl e => .config ("Invalid URL: " ++ e.message)
  | .tls message => .connectionFailed "" ("TLS error: " ++ message)
  | .notFound path => .notFound "resource" path
  | .refused status messages => .api (String.intercalate ", " messages) (some status)
  | .undecodable reason preview =>
    .unexpected ("Deserialization error: " ++ Rpc.Error.undecodableMessage reason preview)

end ServiceError

end EidMap
