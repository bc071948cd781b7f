import EidMap.Table.Status
import EidMap.Text.Numeral

/-!
The command line as a grammar: its levels, the words that lead from one level to the next, and the
parameters each level knows. Global parameters are known on every level.
-/

namespace EidMap.Cli

inductive Usage
  | help
  | version
  | helpOnMissing
  | missingSubcommand
  | invalidSubcommand
  | unknownArgument
  | invalidValue
  | valueValidation
  | tooManyValues
  | argumentConflict
  | missingRequiredArgument
deriving DecidableEq

def Usage.exitCode : Usage → Nat
  | .help | .version => 0
  | _ => 2

inductive ValueKind
  | text
  | path
  | unsigned (bits : Nat)
  | word (choices : List String)

/-- The number of a numeral; those of less than 64 bits are read with their sign. -/
def natural? (bits : Nat) (s : String) : Option Nat :=
  let n := match s.toList with
    | '-' :: ds => if bits < 64 && Text.unsigned? ds = some 0 then some 0 else none
    | cs => Text.natural? cs
  n.filter (· < Number.twoPow bits)

def ValueKind.check (k : ValueKind) (s : String) : Except Usage Unit :=
  match k with
  | .text => .ok ()
  | .path => if s.isEmpty then .error .invalidValue else .ok ()
  | .unsigned bits => if (natural? bits s).isSome then .ok () else .error .valueValidation
  | .word choices => if choices.contains s then .ok () else .error .invalidValue

inductive Parameter
  | profile
  | controller
  | username
  | password
  | output
  | color
  | verbose
  | quiet
  | yes
  | insecure
  | timeout
  | vni
  | filter
  | eid
  | rloc
  | priority
  | weight
  | ttl
  | action
  | authoritative
  | fromFile
  | keyType
  | key
  | help
  | version
  | word (place : Nat)
deriving DecidableEq

inductive Arity
  | help
  | version
  | switch
  | count
  | one (k : ValueKind)
  | many (k : ValueKind)

def truthWords : List String := ["true", "false"]
def formatWords : List String := ["table", "json", "json-compact", "yaml", "plain"]
def colorWords : List String := ["auto", "always", "never"]
def actionWords : List String := ["no-action", "natively-forward", "send-map-request", "drop"]
def shellWords : List String := ["bash", "elvish", "fish", "powershell", "zsh"]

namespace Parameter

def long : Parameter → String
  | .profile => "profile"
  | .controller => "controller"
  | .username => "username"
  | .password => "password"
  | .output => "output"
  | .color => "color"
  | .verbose => "verbose"
  | .quiet => "quiet"
  | .yes => "yes"
  | .insecure => "insecure"
  | .timeout => "timeout"
  | .vni => "vni"
  | .filter => "filter"
  | .eid => "eid"
  | .rloc => "rloc"
  | .priority => "priority"
  | .weight => "weight"
  | .ttl => "ttl"
  | .action => "action"
  | .authoritative => "authoritative"
  | .fromFile => "from-file"
  | .keyType => "key-type"
  | .key => "key"
  | .help => "help"
  | .version => "version"
  | .word _ => ""

def short : Parameter → Option Char
  | .profile => some 'p'
  | .controller => some 'c'
  | .username => some 'u'
  | .output => some 'o'
  | .verbose => some 'v'
  | .quiet => some 'q'
  | .yes => some 'y'
  | .insecure => some 'k'
  | .filter => some 'f'
  | .rloc => some 'r'
  | .fromFile => some 'F'
  | .help => some 'h'
  | .version => some 'V'
  | _ => none

def envName : Parameter → Option String
  | .profile => some "LISPMAP_PROFILE"
  | .controller => some "LISPMAP_CONTROLLER"
  | .username => some "LISPMAP_USERNAME"
  | .password => some "LISPMAP_PASSWORD"
  | .output => some "LISPMAP_OUTPUT"
  | .insecure => some "LISPMAP_INSECURE"
  | .timeout => some "LISPMAP_TIMEOUT"
  | .key => some "LISPMAP_KEY_STRING"
  | _ => none

def arity : Parameter → Arity
  | .help => .help
  | .version => .version
  | .quiet | .yes | .insecure | .authoritative => .switch
  | .verbose => .count
  | .output => .one (.word formatWords)
  | .color => .one (.word colorWords)
  | .action => .one (.word actionWords)
  | .timeout => .one (.unsigned 64)
  | .vni | .ttl => .one (.unsigned 32)
  | .keyType => .one (.unsigned 16)
  | .priority | .weight => .one (.unsigned 8)
  | .rloc => .many .text
  | .fromFile => .one .path
  | _ => .one .text

/-- What a value from the environment must be; that of a switch is a truth value. -/
def valueKind (p : Parameter) : ValueKind :=
  match p.arity with
  | .one k | .many k => k
  | _ => .word truthWords

def takesValue (p : Parameter) : Bool :=
  match p.arity with
  | .one _ | .many _ => true
  | _ => false

def globals : List Parameter :=
  [.profile, .controller, .username, .password, .output, .color, .verbose, .quiet, .yes, .insecure,
    .timeout]

end Parameter

inductive Change
  | add
  | update
deriving DecidableEq

inductive ConfigAction
  | init
  | show
  | set
  | profiles
  | use
  | setPassword
deriving DecidableEq

inductive Level
  | root
  | topic (t : Topic)
  | list (t : Topic)
  | get (t : Topic)
  | lookup (t : Topic)
  | change (t : Topic) (c : Change)
  | delete (t : Topic)
  | config
  | configAction (a : ConfigAction)
  | completions
deriving DecidableEq

namespace Level

def subcommands : Level → List (List String × Level)
  | .root =>
    [(["mappings", "map", "m"], .topic .mappings), (["keys", "k"], .topic .keys),
      (["config"], .config), (["completions"], .completions)]
  | .topic t =>
    [(["list", "ls"], .list t), (["get"], .get t), (["lookup"], .lookup t),
      (["add"], .change t .add), (["update"], .change t .update), (["delete", "rm"], .delete t)]
  | .config =>
    [(["init"], .configAction .init), (["show"], .configAction .show),
      (["set"], .configAction .set), (["profiles"], .configAction .profiles),
      (["use"], .configAction .use), (["set-password"], .configAction .setPassword)]
  | _ => []

def hasSubcommands (l : Level) : Bool := !l.subcommands.isEmpty

def next? (l : Level) (w : String) : Option Level :=
  (l.subcommands.find? fun (names, _) => names.contains w).map Prod.snd

def ownFlags : Level → List Parameter
  | .list _ => [.vni, .filter]
  | .change .mappings _ =>
    [.eid, .vni, .rloc, .priority, .weight, .ttl, .action, .authoritative, .fromFile]
  | .change .keys _ => [.eid, .vni, .keyType, .key]
  | _ => []

def flags (l : Level) : List Parameter := l.ownFlags ++ Parameter.globals ++ [.help, .version]

def words : Level → List ValueKind
  | .get _ | .lookup _ | .delete _ => [.text]
  | .configAction .set => [.text, .text]
  | .configAction .use => [.text]
  | .completions => [.word shellWords]
  | _ => []

def long? (l : Level) (name : String) : Option Parameter := l.flags.find? (·.long == name)

def short? (l : Level) (c : Char) : Option Parameter := l.flags.find? (·.short == some c)

def valueKind (l : Level) : Parameter → ValueKind
  | .word i => (l.words[i]?).getD .text
  | p => p.valueKind

end Level

end EidMap.Cli
