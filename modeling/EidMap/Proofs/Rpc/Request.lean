import EidMap.Proofs.Rpc.Place

/-!
What a store sees of a request: its method, its place and its body, said of the request itself and
not of the client that sends it.
-/

namespace EidMap.Rpc

/-- A request for a resource behind `base`. The URL is read from the text of the base with the
resource behind it; the user and the fragment of that URL are not sent. -/
structure Request.Asks (base : Url) (method : Method) (resource : String) (body : Option Json)
    (q : Request) : Prop where
  method : q.method = method
  url : ∃ u, Url.read (String.ofList (Text.dropTrailing '/' base.text.toList) ++ resource) =
    .ok u ∧ q.url = u.withoutUser.withoutFragment
  placed : ∀ s, Url.read s = .ok base → Network.isWeb base = true →
    Url.Placed base resource q.url
  body : q.body = body

def Request.AsksDatabase (base : Url) : Request → Prop :=
  Request.Asks base .get "/restconf/config/odl-mappingservice:mapping-database" none

def Request.AsksOperation (base : Url) (name : String) (body : Json) : Request → Prop :=
  Request.Asks base .post ("/restconf/operations/odl-mappingservice:" ++ name) (some body)

/-- Something listens wherever a resource may stand behind an accepted web base. -/
structure Network.ListensBehind (n : Network) (base : Url) : Prop where
  accepted : ∃ s, Url.read s = .ok base
  web : isWeb base = true
  listens : ∀ resource u, Url.Placed base resource u → n.listens u = true

namespace Client

variable {c : Client} {n : Network} {u : Url} {op : Operation}

theorem normal_of_accepted {base : Url} {s : String} (h : Url.read s = .ok base)
    (web : Network.isWeb base = true) : Url.Normal base :=
  Url.normal_of_readChars h (isSpecial_of_isWeb web)

theorem read_of_resourceUrl {datastore resource : String}
    (h : c.resourceUrl datastore resource = .ok u) :
    Url.read (String.ofList (Text.dropTrailing '/' c.base.text.toList) ++
      ("/restconf/" ++ datastore ++ "/" ++ resource)) = .ok u := by
  rw [← String.append_assoc, ← String.append_assoc, ← String.append_assoc]
  rw [resourceUrl] at h
  cases hread : Url.read (String.ofList (Text.dropTrailing '/' c.base.text.toList) ++
      "/restconf/" ++ datastore ++ "/" ++ resource) with
  | error e =>
    rw [hread] at h
    cases h
  | ok v =>
    rw [hread] at h
    cases h
    rfl

theorem placed_of_resourceUrl {datastore resource : String} (hd : Url.IsName datastore.toList)
    (hr : Url.IsName resource.toList) (h : c.resourceUrl datastore resource = .ok u) {s : String}
    (accepted : Url.read s = .ok c.base) (web : Network.isWeb c.base = true) :
    Url.Placed c.base ("/restconf/" ++ datastore ++ "/" ++ resource)
      u.withoutUser.withoutFragment := by
  obtain ⟨v, hv, hplaced⟩ :=
    exists_resourceUrl_of_normal (normal_of_accepted accepted web) datastore resource hd hr
  cases h.symm.trans hv
  have huser := hplaced.withoutUser
  exact ⟨huser.scheme, huser.host, huser.port, huser.path, huser.elsewhere⟩

theorem databaseResource :
    "/restconf/" ++ "config" ++ "/" ++ "odl-mappingservice:mapping-database" =
      "/restconf/config/odl-mappingservice:mapping-database" := by
  decide

theorem operationResource (op : Operation) :
    "/restconf/" ++ "operations" ++ "/" ++ ("odl-mappingservice:" ++ op.name) =
      "/restconf/operations/odl-mappingservice:" ++ op.name := by
  rw [← String.append_assoc]
  rfl

theorem asksDatabase_getRequest (h : c.databaseUrl = .ok u) :
    (c.getRequest u).received.AsksDatabase c.base := by
  rw [databaseUrl] at h
  rw [Request.AsksDatabase, ← databaseResource]
  exact ⟨rfl, ⟨u, read_of_resourceUrl h, rfl⟩,
    fun s accepted web => placed_of_resourceUrl (by decide) (by decide) h accepted web, rfl⟩

theorem asksOperation_postRequest (h : c.operationUrl op = .ok u) (body : Json) :
    (c.postRequest u body).received.AsksOperation c.base op.name body := by
  rw [operationUrl] at h
  rw [Request.AsksOperation, ← operationResource]
  exact ⟨rfl, ⟨u, read_of_resourceUrl h, rfl⟩,
    fun s accepted web => placed_of_resourceUrl (by decide) (isName_operation op) h accepted web, rfl⟩

theorem takes_ne_nil (h : n.ListensBehind c.base) (k : Call) : n.takes (k.request? c) ≠ [] := by
  obtain ⟨s, accepted⟩ := h.accepted
  obtain ⟨q, hq, hplaced⟩ := k.exists_request (normal_of_accepted accepted h.web)
  have hweb : Network.isWeb q.url = true := by
    rw [Network.isWeb, hplaced.scheme]
    exact h.web
  rw [hq, Network.takes, if_pos]
  · exact List.cons_ne_nil _ _
  · rw [Network.hears, Bool.and_eq_true]
    exact ⟨hweb, h.listens _ _ hplaced⟩

end Client

end EidMap.Rpc
