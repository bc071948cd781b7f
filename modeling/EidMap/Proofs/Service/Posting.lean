import EidMap.Proofs.Address.RoundTrip
import EidMap.Proofs.Rpc.Location
import EidMap.Proofs.Service.Execution

/-!
# What a command posts, and where

A command that can reach its store posts once: to its own operation, with the identifier that it is about
in the body. What stands in a virtual network is first put into the instance of that network.
-/

namespace EidMap

def Json.at? : List String → Json → Option Json
  | [], v => some v
  | name :: path, v => (v.field? name).bind (at? path)

/-- What becomes of an identifier that is given with the number of a virtual network, or without. -/
inductive Address.Scoped : Option UInt32 → Address → Address → Prop
  | unnumbered (a : Address) : Scoped none a a
  | default (a : Address) : Scoped (some 0) a a
  | kept (vni iid : UInt32) (mask : UInt8) (a : Address) :
    Scoped (some vni) (.instanceId iid mask a) (.instanceId iid mask a)
  | put {vni : UInt32} {a : Address} (nonzero : vni ≠ 0)
    (outside : ∀ iid mask b, a ≠ .instanceId iid mask b) : Scoped (some vni) a (.instanceId vni 32 a)

theorem Address.scoped_scopeToVni (a : Address) (vni : UInt32) :
    Scoped (some vni) a (a.scopeToVni vni) := by
  rw [scopeToVni]
  split
  · rename_i hzero
    exact hzero ▸ .default a
  · rename_i hzero
    cases a with
    | instanceId iid mask b => exact .kept vni iid mask b
    | _ => exact .put hzero nofun

namespace Command

def given : Command → Address
  | .addKey r | .updateKey r => r.eid
  | .addMapping r | .updateMapping r => r.eid
  | .getKey r | .removeKey r | .getMapping r | .removeMapping r => r.eid

def vni? : Command → Option UInt32
  | .addKey r | .updateKey r => some r.vni
  | .addMapping r | .updateMapping r => some r.vni
  | .getKey _ | .removeKey _ | .getMapping _ | .removeMapping _ => none

def eidPath : Command → List String
  | .addMapping _ | .updateMapping _ => ["input", "mapping-record", "eid"]
  | _ => ["input", "eid"]

theorem scoped_eid (c : Command) : Address.Scoped c.vni? c.given c.eid := by
  cases c with
  | addKey r | updateKey r => exact Address.scoped_scopeToVni r.eid r.vni
  | addMapping r | updateMapping r => exact Address.scoped_scopeToVni r.eid r.vni
  | getKey r | removeKey r | getMapping r | removeMapping r => exact .unnumbered r.eid

theorem eid_posted (c : Command) : (Rpc.input c.posted).at? c.eidPath = some c.eid.toWire := by
  cases c with
  | addKey r | updateKey r => rfl
  | addMapping r | updateMapping r => rfl
  | getKey r | removeKey r | getMapping r | removeMapping r => rfl

/-- A request that posts the identifier of a command to its operation, at a URL behind the base. -/
structure PostedAs (c : Command) (base url : Url) (q : Rpc.Request) : Prop where
  method : q.method = .post
  place : q.url = url.withoutUser.withoutFragment
  named : ("/operations/odl-mappingservice:" ++ c.operation.name).toList <:+ url.text.toList
  path : '?' ∉ base.text.toList → '#' ∉ base.text.toList → ∃ xs,
    q.url.path = .segments (xs ++ ["operations", "odl-mappingservice:" ++ c.operation.name])
  eid : q.body.bind (·.at? c.eidPath) = some c.eid.toWire

end Command

namespace Service

variable {s : Service} {client : Rpc.Client} {url : Url} {op : Rpc.Operation} {c : Command}

/-- The service has a client, which has a web URL for the operation, where the store listens. -/
structure Reaches (s : Service) (op : Rpc.Operation) (client : Rpc.Client) (url : Url) : Prop where
  connected : s.client = .ok client
  placed : client.operationUrl op = .ok url
  web : Rpc.Network.isWeb url = true
  listens : s.network.listens url.withoutUser = true

theorem Reaches.received (h : s.Reaches c.operation client url) :
    (s.dispatch c).2.network.received =
      s.network.received ++ [(client.postRequest url (Rpc.input c.posted)).received] := by
  have hposting : s.commanding? c = some _ := posting?_eq_some.2 ⟨client, url, h.connected, h.placed, rfl⟩
  have hhears : s.network.hears (client.postRequest url (Rpc.input c.posted)) = true := by
    rw [Rpc.Network.hears, Bool.and_eq_true]
    exact ⟨h.web, h.listens⟩
  rw [dispatch_self, network_put, hposting, Rpc.Network.takes, if_pos hhears]
  rfl

theorem Reaches.postedAs (h : s.Reaches c.operation client url) :
    c.PostedAs client.base url (client.postRequest url (Rpc.input c.posted)).received := by
  obtain ⟨hends, hpath⟩ := Rpc.Client.endsIn_of_operationUrl h.placed h.web
  have htext : ("/operations/odl-mappingservice:" ++ c.operation.name).toList =
      Url.behind "operations".toList ("odl-mappingservice:" ++ c.operation.name).toList := by
    simp [Url.behind]
  exact ⟨rfl, rfl, htext ▸ hends.suffix, hpath, c.eid_posted⟩

/-- A command that can reach its store posts once, to its own operation. The body has the address of the
command, which is read back if it is well formed; that is the given address, in the instance of a virtual
network with a number other than 0 unless it stands in an instance already. -/
theorem dispatch_posts (h : s.Reaches c.operation client url) :
    ∃ q, (s.dispatch c).2.network.received = s.network.received ++ [q] ∧
      c.PostedAs client.base url q ∧
      (c.eid.WellFormed → Address.ofWire c.eid.toWire = c.eid) ∧
      Address.Scoped c.vni? c.given c.eid :=
  ⟨_, h.received, h.postedAs, fun hw => hw.ofWire_toWire, c.scoped_eid⟩

/-- A mapping is added in network 9. -/
theorem scoped_mapping_posted :
    let c := Command.addMapping ⟨.ipv4 ⟨10, 0, 0, 0⟩ (some 8), 9, none, .noAction, false, []⟩
    ∃ q, ((scripted []).dispatch c).2.network.received = [q] ∧
      q.url.path = .segments ["restconf", "operations", "odl-mappingservice:add-mapping"] ∧
      ∃ v, q.body.bind (·.at? ["input", "mapping-record", "eid"]) = some v ∧
        Address.ofWire v = .instanceId 9 32 (.ipv4 ⟨10, 0, 0, 0⟩ (some 8)) := by
  intro c
  have hreaches : (scripted []).Reaches .addMapping ⟨(scripted []).settings.url, none⟩
      ⟨"http", some ⟨"", none, .domain "odl", none⟩,
        .segments ["restconf", "operations", "odl-mappingservice:add-mapping"], none, none⟩ := by
    refine ⟨rfl, ?_, rfl, rfl⟩
    decide +kernel
  obtain ⟨q, hreceived, hposted, hread, -⟩ := dispatch_posts (c := c) hreaches
  have hwell : c.eid.WellFormed := by
    refine .instanceId 9 32 (.ipv4 _ ?_)
    rintro n ⟨⟩
    decide
  refine ⟨q, hreceived, ?_, _, hposted.eid, hread hwell⟩
  rw [hposted.place]
  rfl

end Service

end EidMap
