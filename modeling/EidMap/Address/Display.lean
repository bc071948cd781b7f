import EidMap.Address.Basic

/-!
The display text of an address: a tag and a colon in front of plain families, brackets and
separators around the parts of the nested formats.
-/

namespace EidMap.Address

def masked (text : String) (mask : UInt8) : String := text ++ "/" ++ Text.natText mask.toNat

def ipText (tag addr : String) : Option UInt8 → String
  | none => tag ++ ":" ++ addr
  | some n => masked (tag ++ ":" ++ addr) n

def Flow.text (f : Flow) : String :=
  Text.natText f.tos.toNat ++ "!" ++ Text.natText f.protocol.toNat ++ "!" ++
    Text.natText f.localLow.toNat ++ "-" ++ Text.natText f.localHigh.toNat ++ "!" ++
    Text.natText f.remoteLow.toNat ++ "-" ++ Text.natText f.remoteHigh.toNat

mutual
def display : Address → String
  | .noAddress => "no:No Address Present"
  | .ipv4 addr length => ipText "ipv4" (String.ofList addr.text) length
  | .ipv6 addr length => ipText "ipv6" (String.ofList addr.text) length
  | .mac text => "mac:" ++ text
  | .distinguishedName name => "dn:" ++ name
  | .asNumber n => "as:AS" ++ Text.natText n.toNat
  | .list members => "list:\x7b" ++ String.intercalate "," (displayMembers members) ++ "\x7d"
  | .instanceId iid mask a => "[" ++ Text.natText iid.toNat ++ "] " ++ masked (display a) mask
  | .applicationData a flow => "appdata:" ++ display a ++ "!" ++ Flow.text flow
  | .locatorPath hops => "elp:\x7b" ++ String.intercalate "→" (displayHops hops) ++ "\x7d"
  | .sourceDest source m dest n =>
    "srcdst:" ++ masked (display source) m ++ "|" ++ masked (display dest) n
  | .keyValue key value => display key ++ "=>" ++ display value
  | .unrenderable tag _ _ => "unknown:" ++ tag

def displayMembers : List Address → List String
  | [] => []
  | a :: as => display a :: displayMembers as

def displayHops : List (Hop Address) → List String
  | [] => []
  | ⟨_, a, _⟩ :: hops => display a :: displayHops hops
end

def render : Option Address → String
  | none => ""
  | some a => a.display

end EidMap.Address
