import EidMap.Config.Basic
import EidMap.Service.Error

/-!
Errors of the command line: a message, the code it is filed under, what may help, and the status with
which the program ends.
-/

namespace EidMap.Cli

inductive Error
  | connectionFailed (url reason : String)
  | authFailed (profile message : String)
  | noCredentials (profile : String)
  | notFound (entity identifier : String)
  | loadFailed (table message : String)
  | operationFailed (operation message : String)
  | api (message : String) (status : Option Nat)
  | invalid (field reason : String)
  | address (e : Address.ParseError)
  | profileNotFound (name available : String)
  | noConfig (path : String)
  | config (e : Config.Error)
  | unconfirmed (action : String)
  | timeout
  | io (message : String)
deriving DecidableEq

inductive ExitStatus
  | general
  | usage
  | auth
  | notFound
  | connection
  | timeout
deriving DecidableEq

def ExitStatus.code : ExitStatus → Nat
  | .general => 1
  | .usage => 2
  | .auth => 3
  | .notFound => 4
  | .connection => 7
  | .timeout => 8

namespace Error

def message : Error → String
  | .connectionFailed url _ => "Could not connect to mapping service at " ++ url
  | .authFailed _ message => "Authentication failed: " ++ message
  | .noCredentials profile => "No password configured for profile '" ++ profile ++ "'"
  | .notFound entity identifier => entity ++ " '" ++ identifier ++ "' not found"
  | .loadFailed table message => "Failed to load " ++ table ++ ": " ++ message
  | .operationFailed operation message => operation ++ " failed: " ++ message
  | .api message _ => "API error: " ++ message
  | .invalid field reason => "Invalid value for " ++ field ++ ": " ++ reason
  | .address e => e.message
  | .profileNotFound name _ => "Profile '" ++ name ++ "' not found in configuration"
  | .noConfig _ => "No controller configured"
  | .config e => e.message
  | .unconfirmed action => "Destructive operation '" ++ action ++ "' requires confirmation"
  | .timeout => "Request timed out"
  | .io message => message

def code : Error → Option String
  | .connectionFailed .. => some "lispmap::connection_failed"
  | .authFailed .. => some "lispmap::auth_failed"
  | .noCredentials _ => some "lispmap::no_credentials"
  | .notFound .. => some "lispmap::not_found"
  | .loadFailed .. => some "lispmap::load_failed"
  | .operationFailed .. => some "lispmap::operation_failed"
  | .api .. => some "lispmap::api_error"
  | .invalid .. => some "lispmap::validation"
  | .address _ => some "lispmap::address"
  | .profileNotFound .. => some "lispmap::profile_not_found"
  | .noConfig _ => some "lispmap::no_config"
  | .config _ => some "lispmap::config"
  | .unconfirmed _ => some "lispmap::confirmation_required"
  | .timeout => some "lispmap::timeout"
  | .io _ => none

def listCommand (entity : String) : String :=
  if Text.holds "key".toList entity.toList then "keys list" else "mappings list"

def help : Error → Option String
  | .connectionFailed _ reason =>
    some ("Check that the controller is running and RESTCONF is enabled.\nReason: " ++ reason ++
      "\nTry: lispmap mappings list --controller http://127.0.0.1:8181")
  | .authFailed profile _ =>
    some ("Verify your RESTCONF credentials.\nRun: lispmap config set-password --profile " ++
      profile)
  | .noCredentials _ =>
    some ("Store one with: lispmap config set-password\n" ++
      "Or set the LISPMAP_PASSWORD environment variable.")
  | .notFound entity _ => some ("Run: lispmap " ++ listCommand entity ++ " to see what is stored")
  | .address _ =>
    some ("Accepted forms: 10.0.0.1, ipv4:10.0.0.0/24, ipv6:2001:db8::/32,\n" ++
      "mac:00:11:22:33:44:55, dn:name, as:65000, \"[5] ipv4:10.0.0.1/32\"")
  | .profileNotFound _ available =>
    some ("Available profiles: " ++ available ++ "\nCreate one with: lispmap config init")
  | .noConfig path =>
    some ("Create a profile with: lispmap config init\n" ++
      "Or pass --controller. Expected config at: " ++ path)
  | .unconfirmed _ => some "Use --yes (-y) to skip confirmation in non-interactive contexts."
  | .timeout => some "Increase timeout with --timeout or check controller responsiveness."
  | .loadFailed .. | .operationFailed .. | .api .. | .invalid .. | .config _ | .io _ => none

def status : Error → ExitStatus
  | .connectionFailed .. => .connection
  | .authFailed .. | .noCredentials _ => .auth
  | .notFound .. | .profileNotFound .. => .notFound
  | .api _ (some 401) | .api _ (some 403) => .auth
  | .api _ (some 404) => .notFound
  | .timeout => .timeout
  | .invalid .. | .address _ | .unconfirmed _ => .usage
  | .loadFailed .. | .operationFailed .. | .api .. | .noConfig _ | .config _ | .io _ => .general

def ofService : ServiceError → Error
  | .connectionFailed url reason => .connectionFailed url reason
  | .authenticationFailed message => .authFailed "current" message
  | .timeout => .timeout
  | .loadFailed table message => .loadFailed table message
  | .notFound entity identifier => .notFound entity identifier
  | .invalidInput message => .invalid "input" message
  | .address e => .address e
  | .operationFailed operation message => .operationFailed operation message
  | .api message status => .api message status
  | .config message => .invalid "config" message
  | .unexpected message => .api message none

def ofConfig : Config.Error → Error
  | .invalid field reason => .invalid field reason
  | .noCredentials profile => .noCredentials profile
  | .unknownProfile name => .profileNotFound name "(see `lispmap config profiles`)"
  | .unstorable => .config .unstorable
  | .unreadable => .config .unreadable

end Error

end EidMap.Cli
