import EidMap.Address.Display

/-!
Addresses out of display text. Only plain addresses and an instance around one can be typed in; a
bare IP, MAC or name needs no tag.
-/

namespace EidMap.Address

inductive ParseError
  | empty
  | invalid (kind : String) (value : String)
  | missingMask (text : String)
  | unsupported (text : String)
deriving DecidableEq

def ParseError.message : ParseError → String
  | .empty => "empty address"
  | .invalid kind value => "invalid " ++ kind ++ " address: " ++ value
  | .missingMask text => "instance-id form needs a mask length: " ++ text
  | .unsupported text =>
    "cannot parse '" ++ text ++ "': only scalar and instance-id forms are accepted"

def renderOnlyTags : List String := ["list", "appdata", "elp", "srcdst", "unknown"]

def asDigits : List Char → List Char
  | 'A' :: 'S' :: cs => cs
  | cs => cs

def parseTagged (tag value text : List Char) : Except ParseError Address :=
  match String.ofList tag with
  | "no" => .ok .noAddress
  | "ipv4" =>
    match ofSimple value with
    | .ipv4 addr length => .ok (.ipv4 addr length)
    | _ => .error (.invalid "ipv4" (String.ofList value))
  | "ipv6" =>
    match ofSimple value with
    | .ipv6 addr length => .ok (.ipv6 addr length)
    | _ => .error (.invalid "ipv6" (String.ofList value))
  | "mac" =>
    if isMac value then .ok (.mac (String.ofList value))
    else .error (.invalid "mac" (String.ofList value))
  | "dn" =>
    if value.isEmpty then .error (.invalid "dn" "")
    else .ok (.distinguishedName (String.ofList value))
  | "as" =>
    match Text.uint32? (asDigits value) with
    | some n => .ok (.asNumber n)
    | none => .error (.invalid "as" (String.ofList value))
  | tag =>
    if renderOnlyTags.contains tag then .error (.unsupported (String.ofList text))
    else .ok (ofSimple text)

def parseScalar (text : List Char) : Except ParseError Address :=
  match Text.cutFirst ':' text with
  | none => .ok (ofSimple text)
  | some (tag, value) => parseTagged tag value text

/-- `[iid] address/mask`, given the whole text and what follows its bracket. -/
def parseInstance (text rest : List Char) : Except ParseError Address :=
  match Text.cutFirst ']' rest with
  | none => .error (.unsupported (String.ofList text))
  | some (iid, inner) =>
    match Text.uint32? (Text.trim iid) with
    | none => .error (.invalid "instance-id" (String.ofList text))
    | some iid =>
      match Text.cutLast '/' (Text.trim inner) with
      | none => .error (.missingMask (String.ofList text))
      | some (address, mask) =>
        match Text.uint8? mask with
        | none => .error (.invalid "instance-id" (String.ofList text))
        | some mask => (parseScalar address).map fun a => a.withInstanceId iid mask

def parseText (cs : List Char) : Except ParseError Address :=
  match Text.trim cs with
  | [] => .error .empty
  | '[' :: rest => parseInstance ('[' :: rest) rest
  | text =>
    if Text.holds ['=', '>'] text then .error (.unsupported (String.ofList text))
    else parseScalar text

def parse (s : String) : Except ParseError Address := parseText s.toList

end EidMap.Address
