import EidMap.Url.Host

/-!
URLs: reading an absolute URL into its parts, and its normal text. Web schemes always have a host and
a path; dot segments are resolved, default ports dropped and characters encoded as each part asks.
-/

namespace EidMap

namespace Url

structure Authority where
  username : String
  password : Option String
  host : Host
  port : Option UInt16
deriving DecidableEq

inductive Path
  | segments (xs : List String)
  | plain (s : String)
deriving DecidableEq

end Url

structure Url where
  scheme : String
  authority : Option Url.Authority
  path : Url.Path
  query : Option String
  fragment : Option String
deriving DecidableEq

namespace Url

def defaultPort? (scheme : String) : Option UInt16 :=
  match scheme with
  | "http" | "ws" => some 80
  | "https" | "wss" => some 443
  | "ftp" => some 21
  | _ => none

def isSpecial (scheme : String) : Bool := (defaultPort? scheme).isSome

def Path.text : Path → String
  | .segments xs => String.join (xs.map ("/" ++ ·))
  | .plain s => s

def Authority.text (a : Authority) : String :=
  let userinfo :=
    if a.username.isEmpty && a.password.isNone then ""
    else a.username ++ (match a.password with | some p => ":" ++ p | none => "") ++ "@"
  userinfo ++ a.host.text ++ match a.port with
    | some p => ":" ++ Text.natText p.toNat
    | none => ""

/-- A path that begins with two slashes needs a dot in front where there is no host. -/
def pathText (u : Url) : String :=
  match u.authority, u.path with
  | none, .segments ("" :: _ :: _) => "/." ++ u.path.text
  | _, p => p.text

def text (u : Url) : String :=
  u.scheme ++ ":" ++ (match u.authority with | some a => "//" ++ a.text | none => "") ++
    u.pathText ++ (match u.query with | some q => "?" ++ q | none => "") ++
    match u.fragment with
    | some f => "#" ++ f
    | none => ""

def withoutUser (u : Url) : Url :=
  { u with authority := u.authority.map fun a => { a with username := "", password := none } }

def withoutFragment (u : Url) : Url := { u with fragment := none }

def scheme? (cs : List Char) : Option (List Char × List Char) :=
  match Text.cutFirst ':' cs with
  | some (c :: s, rest) =>
    if c.isAlpha && s.all (fun d => d.isAlphanum || d == '+' || d == '-' || d == '.') then
      some (Text.lower (c :: s), rest)
    else none
  | _ => none

def endsAuthority (special : Bool) (c : Char) : Bool :=
  c == '/' || c == '?' || c == '#' || (special && c == '\\')

def userinfo (cs : List Char) : String × Option String :=
  let (user, password) := match Text.cutFirst ':' cs with
    | some (user, password) => (user, password)
    | none => (cs, [])
  let encoded (cs : List Char) := String.ofList (encode userinfoSet cs)
  (encoded user, if password.isEmpty then none else some (encoded password))

def hostEnd : (inside : Bool) → List Char → List Char × List Char
  | _, [] => ([], [])
  | inside, c :: cs =>
    if c = ':' && !inside then ([], c :: cs)
    else
      let (host, rest) := hostEnd (if c = '[' then true else if c = ']' then false else inside) cs
      (c :: host, rest)

def readPort (scheme : String) : List Char → Except ReadError (Option UInt16)
  | ':' :: ds =>
    if !ds.all Char.isDigit then .error .invalidPort
    else if ds.isEmpty then .ok none
    else
      match Text.uint16? ds with
      | none => .error .invalidPort
      | some p => .ok (if defaultPort? scheme = some p then none else some p)
  | _ => .ok none

def readAuthority (scheme : String) (cs : List Char) : Except ReadError Authority := do
  let special := isSpecial scheme
  let (user, hostPart) := match Text.cutLast '@' cs with
    | some (user, hostPart) => (userinfo user, hostPart)
    | none => (("", none), cs)
  let (hostText, portText) := hostEnd false hostPart
  if hostText.isEmpty && (special || !portText.isEmpty || hostPart.length < cs.length) then
    .error .emptyHost
  else
    let host ← if special then Host.read hostText else Host.readOpaque hostText
    return ⟨user.1, user.2, host, ← readPort scheme portText⟩

def dots (cs : List Char) : List Char :=
  match cs with
  | '%' :: '2' :: c :: rest => if c = 'e' || c = 'E' then '.' :: dots rest else cs
  | '.' :: rest => '.' :: dots rest
  | cs => cs

/-- Resolves dot segments: one dot is dropped, two dots take the segment before with them. -/
def resolve (done : List String) : List (List Char) → List String
  | [] => done
  | s :: rest =>
    let last := rest.isEmpty
    if dots s = ['.', '.'] then
      resolve (if last then done.dropLast ++ [""] else done.dropLast) rest
    else if dots s = ['.'] then resolve (if last then done ++ [""] else done) rest
    else resolve (done ++ [String.ofList (encode pathSet s)]) rest

def segments (special : Bool) (cs : List Char) : List String :=
  resolve [] (Text.pieces '/' (if special then cs.map fun c => if c = '\\' then '/' else c else cs))

def hostPath (special : Bool) (cs : List Char) : Path :=
  match cs with
  | [] => .segments (if special then [""] else [])
  | c :: rest =>
    if c = '/' || (special && c = '\\') then .segments (segments special rest)
    else .segments (segments special (c :: rest))

def cutTail (cs : List Char) : List Char × Option (List Char) × Option (List Char) :=
  let (front, fragment) := match Text.cutFirst '#' cs with
    | some (front, fragment) => (front, some fragment)
    | none => (cs, none)
  match Text.cutFirst '?' front with
  | some (path, query) => (path, some query, fragment)
  | none => (front, none, fragment)

def isNoise (c : Char) : Bool := c == '\t' || c == '\n' || c == '\r'

def isEdge (c : Char) : Bool := c.toNat ≤ 0x20

def cleaned (cs : List Char) : List Char :=
  (((cs.dropWhile isEdge).reverse.dropWhile isEdge).reverse).filter fun c => !isNoise c

def readChars (cs : List Char) : Except ReadError Url := do
  match scheme? (cleaned cs) with
  | none => .error .relative
  | some (scheme, rest) =>
    let scheme := String.ofList scheme
    let special := isSpecial scheme
    let (front, query, fragment) := cutTail rest
    let query := query.map fun q =>
      String.ofList (encode (if special then specialQuerySet else querySet) q)
    let fragment := fragment.map fun f => String.ofList (encode fragmentSet f)
    let withAuthority (cs : List Char) : Except ReadError Url := do
      let auth := cs.takeWhile fun c => !endsAuthority special c
      let path := cs.dropWhile fun c => !endsAuthority special c
      return ⟨scheme, some (← readAuthority scheme auth), hostPath special path, query, fragment⟩
    if special then withAuthority (front.dropWhile fun c => c == '/' || c == '\\')
    else
      match front with
      | '/' :: '/' :: cs => withAuthority cs
      | '/' :: cs => .ok ⟨scheme, none, .segments (segments false cs), query, fragment⟩
      | cs => .ok ⟨scheme, none, .plain (String.ofList (encode controlSet cs)), query, fragment⟩

def read (s : String) : Except ReadError Url := readChars s.toList

end Url

end EidMap
