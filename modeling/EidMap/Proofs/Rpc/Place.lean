import EidMap.Proofs.Rpc.Calls
import EidMap.Proofs.Rpc.Location
import EidMap.Proofs.Url.Normal

/-!
# Where the requests of a client go

A request has the scheme, the host and the port of the base. Its path is the path of the base
without trailing slashes and with the resource behind it, if the base has neither a query nor a
fragment: the URL is read from the text of the base with the resource behind it, and with a query
or a fragment at the end of that text the path of the base is the path of every request.
-/

namespace EidMap.Url

/-- What becomes of a base when a resource is written behind its text. -/
structure Placed (base : Url) (resource : String) (u : Url) : Prop where
  scheme : u.scheme = base.scheme
  host : u.authority.map (·.host) = base.authority.map (·.host)
  port : u.authority.map (·.port) = base.authority.map (·.port)
  path : base.query = none → base.fragment = none →
    u.pathText = String.ofList (Text.dropTrailing '/' base.pathText.toList) ++ resource
  elsewhere : base.query ≠ none ∨ base.fragment ≠ none → u.pathText = base.pathText

theorem Placed.withoutUser {base u : Url} {resource : String} (h : Placed base resource u) :
    Placed base resource u.withoutUser := by
  obtain ⟨scheme, authority, path, query, fragment⟩ := u
  cases authority with
  | none => exact ⟨h.scheme, h.host, h.port, h.path, h.elsewhere⟩
  | some a => exact ⟨h.scheme, h.host, h.port, h.path, h.elsewhere⟩

theorem mem_of_mem_dropTrailing {c d : Char} {cs : List Char} (h : d ∈ Text.dropTrailing c cs) :
    d ∈ cs := by
  rw [Text.dropTrailing, List.mem_reverse] at h
  exact List.mem_reverse.1 ((List.dropWhile_sublist _).subset h)

theorem IsName.isSegment {cs : List Char} (h : IsName cs) : IsSegment cs where
  encoded := fun c hc => (h c hc).path
  slash := h.slash
  backslash := fun hm => (h _ hm).backslash rfl
  dot := by
    rw [h.dots_eq]
    rintro rfl
    exact (h '.' List.mem_cons_self).dot rfl
  twoDots := by
    rw [h.dots_eq]
    rintro rfl
    exact (h '.' List.mem_cons_self).dot rfl

variable {names : List String}

theorem encoded_behind {set : Char → Bool} (hset : ∀ c, Kept c → set c = false)
    (slash : set '/' = false) (hnames : ∀ x ∈ names, IsName x.toList) {cs : List Char}
    (h : ∀ c ∈ cs, set c = false) :
    ∀ c ∈ Text.dropTrailing '/' cs ++ slashed names, set c = false := by
  intro c hc
  rcases List.mem_append.1 hc with hc | hc
  · exact h c (mem_of_mem_dropTrailing hc)
  · rcases mem_slashed hc with rfl | ⟨x, hx, hc⟩
    · exact slash
    · exact hset c (hnames x hx c hc)

theorem IsPath.append {xs ys : List String} (h : IsPath xs) (hys : ys <+: xs)
    (hnames : ∀ x ∈ names, IsName x.toList) (ne : names ≠ []) : IsPath (ys ++ names) where
  segment := fun x hx => (List.mem_append.1 hx).elim (fun hx => h.segment x (hys.subset hx))
    fun hx => (hnames x hx).isSegment
  ne := fun hnil => ne (List.append_eq_nil_iff.1 hnil).2

theorem dropTrailing_mark (front : List Char) {mark : Char} (hmark : mark ≠ '/') (cs : List Char) :
    Text.dropTrailing '/' (front ++ mark :: cs) =
      front ++ mark :: Text.dropTrailing '/' cs := by
  have hlast : ∀ c ∈ (front ++ [mark]).getLast?, c ≠ '/' := by
    intro c hc
    rw [List.getLast?_concat] at hc
    cases hc
    exact hmark
  rw [List.append_cons, dropTrailing_append_of_ne hlast, ← List.append_cons]

theorem Authority.Normal.dropTrailing_text {scheme : String} {a : Authority}
    (normal : a.Normal scheme) (front cs : List Char) :
    Text.dropTrailing '/' (front ++ a.text.toList ++ cs) =
      front ++ a.text.toList ++ Text.dropTrailing '/' cs := by
  refine dropTrailing_append_of_ne (fun c hc => ?_) cs
  rw [List.getLast?_append, List.getLast?_eq_some_getLast normal.text_ne_nil, Option.some_or] at hc
  cases hc
  have hinside := (normal.inside _ (List.getLast_mem normal.text_ne_nil)).2
  exact fun hslash => absurd (hslash ▸ hinside) (by decide)

theorem dropTrailing_append_replicate (cs : List Char) (m : Nat) :
    Text.dropTrailing '/' (cs ++ List.replicate m '/') = Text.dropTrailing '/' cs := by
  induction m with
  | zero => rw [List.replicate_zero, List.append_nil]
  | succ m ih => rw [List.replicate_succ', ← List.append_assoc, dropTrailing_concat, ih]

section

variable {scheme : String} {a : Authority} {xs : List String} {query fragment : Option String}

theorem toList_text_append (scheme : String) (a : Authority) (xs : List String)
    (query fragment : Option String) :
    (text ⟨scheme, some a, .segments xs, query, fragment⟩).toList =
      scheme.toList ++ [':', '/', '/'] ++ a.text.toList ++
        (slashed xs ++ (marked '?' query ++ marked '#' fragment)) := by
  rw [toList_text]
  simp

theorem dropTrailing_text_fragment (f : String) :
    Text.dropTrailing '/' (text ⟨scheme, some a, .segments xs, query, some f⟩).toList ++
      slashed names = (text ⟨scheme, some a, .segments xs, query,
        some (String.ofList (Text.dropTrailing '/' f.toList ++ slashed names))⟩).toList := by
  rw [toList_text_append, toList_text_append, marked, marked, ← List.append_assoc,
    ← List.append_assoc, dropTrailing_mark _ (by decide)]
  simp

theorem dropTrailing_text_query (q : String) :
    Text.dropTrailing '/' (text ⟨scheme, some a, .segments xs, some q, none⟩).toList ++
      slashed names = (text ⟨scheme, some a, .segments xs,
        some (String.ofList (Text.dropTrailing '/' q.toList ++ slashed names)), none⟩).toList := by
  rw [toList_text_append, toList_text_append, marked, marked, marked, List.append_nil,
    ← List.append_assoc, dropTrailing_mark _ (by decide)]
  simp

theorem dropTrailing_text_path {ys : List String} (authority : a.Normal scheme)
    (hys : Text.dropTrailing '/' (slashed xs) = slashed ys) :
    Text.dropTrailing '/' (text ⟨scheme, some a, .segments xs, none, none⟩).toList ++
      slashed names = (text ⟨scheme, some a, .segments (ys ++ names), none, none⟩).toList := by
  rw [toList_text_append, toList_text_append, marked, marked, List.append_nil, List.append_nil,
    authority.dropTrailing_text, hys, slashed_append]
  simp

end

theorem Normal.exists_behind {base : Url} (normal : Normal base)
    (hnames : ∀ x ∈ names, IsName x.toList) (ne : names ≠ []) :
    ∃ u, Normal u ∧ Text.dropTrailing '/' base.text.toList ++ slashed names = u.text.toList ∧
      Placed base (String.ofList (slashed names)) u := by
  cases normal with
  | @intro scheme a xs query fragment special authority path encodedQuery encodedFragment =>
    cases fragment with
    | some f =>
      refine ⟨_, ?_, dropTrailing_text_fragment f, rfl, rfl, rfl, fun _ h => (nomatch h),
        fun _ => rfl⟩
      refine .intro special authority path encodedQuery fun _ h => ?_
      cases h
      rw [String.toList_ofList]
      exact encoded_behind (fun _ => Kept.fragment) rfl hnames (encodedFragment f rfl)
    | none =>
      cases query with
      | some q =>
        refine ⟨_, ?_, dropTrailing_text_query q, rfl, rfl, rfl, fun h => (nomatch h), fun _ => rfl⟩
        refine .intro special authority path (fun _ h => ?_) encodedFragment
        cases h
        rw [String.toList_ofList]
        exact encoded_behind (fun _ => Kept.query) rfl hnames (encodedQuery q rfl)
      | none =>
        obtain ⟨ys, hprefix, hys⟩ :=
          exists_dropTrailing_slashed fun x hx => (path.segment x hx).slash
        refine ⟨_, .intro special authority (path.append hprefix hnames ne) encodedQuery
          encodedFragment, dropTrailing_text_path authority hys, rfl, rfl, rfl, fun _ _ => ?_,
          fun h => (h.elim (· rfl) (· rfl)).elim⟩
        rw [← String.toList_inj, String.toList_append, String.toList_ofList, String.toList_ofList]
        exact (toList_pathText _).trans
          ((slashed_append ys names).trans (by rw [← hys, ← toList_pathText]; rfl))

def slashes (m : Nat) : String := String.ofList (List.replicate m '/')

theorem slashed_replicate (m : Nat) : slashed (List.replicate m "") = List.replicate m '/' := by
  induction m with
  | zero => rfl
  | succ m ih => exact congrArg ('/' :: ·) ih

theorem Normal.exists_slashes {base : Url} (normal : Normal base) (query : base.query = none)
    (fragment : base.fragment = none) (m : Nat) :
    ∃ base', Normal base' ∧ base'.text = base.text ++ slashes m ∧
      base'.pathText = base.pathText ++ slashes m := by
  cases normal with
  | @intro scheme a xs _ _ special authority path encodedQuery encodedFragment =>
    cases query
    cases fragment
    have hpath : IsPath (xs ++ List.replicate m "") := by
      refine ⟨fun x hx => ?_, fun hnil => path.ne (List.append_eq_nil_iff.1 hnil).1⟩
      rcases List.mem_append.1 hx with hx | hx
      · exact path.segment x hx
      · rw [(List.mem_replicate.1 hx).2]
        exact isSegment_nil
    refine ⟨_, .intro special authority hpath encodedQuery encodedFragment, ?_, ?_⟩
    · rw [← String.toList_inj, String.toList_append, toList_text_append, toList_text_append,
        slashes, String.toList_ofList, slashed_append, slashed_replicate]
      simp [marked]
    · rw [← String.toList_inj, String.toList_append, slashes, String.toList_ofList,
        ← slashed_replicate]
      exact (toList_pathText _).trans ((slashed_append xs _).trans
        (congrArg (· ++ _) (toList_pathText xs).symm))

end EidMap.Url

namespace EidMap.Rpc.Client

def Call.resource (k : Call) : String :=
  match k.post? with
  | none => "/restconf/config/odl-mappingservice:mapping-database"
  | some (op, _) => "/restconf/operations/odl-mappingservice:" ++ op.name

theorem exists_resourceUrl_of_normal {c : Client} (normal : Url.Normal c.base)
    (datastore resource : String) (hd : Url.IsName datastore.toList)
    (hr : Url.IsName resource.toList) :
    ∃ u, c.resourceUrl datastore resource = .ok u ∧
      Url.Placed c.base ("/restconf/" ++ datastore ++ "/" ++ resource) u := by
  have hnames : ∀ x ∈ ["restconf", datastore, resource], Url.IsName x.toList := by
    simp only [List.forall_mem_cons]
    exact ⟨by decide, hd, hr, by simp⟩
  obtain ⟨u, hnormal, htext, hplaced⟩ := normal.exists_behind hnames (List.cons_ne_nil _ _)
  have hslashed : Url.slashed ["restconf", datastore, resource] =
      '/' :: ("restconf".toList ++ '/' :: (datastore.toList ++ '/' :: resource.toList)) := by
    simp [Url.slashed]
  have hresource : String.ofList (Url.slashed ["restconf", datastore, resource]) =
      "/restconf/" ++ datastore ++ "/" ++ resource := by
    rw [hslashed, ← String.toList_inj]
    simp
  refine ⟨u, ?_, hresource ▸ hplaced⟩
  rw [resourceUrl_eq, ← hslashed, htext, hnormal.readChars_text]
  rfl

theorem Call.exists_request {c : Client} (normal : Url.Normal c.base) (k : Call) :
    ∃ q, k.request? c = some q ∧ Url.Placed c.base k.resource q.url := by
  rw [request?, resource]
  cases k.post? with
  | none =>
    obtain ⟨u, hu, hplaced⟩ := exists_resourceUrl_of_normal normal "config"
      "odl-mappingservice:mapping-database" (by decide) (by decide)
    refine ⟨c.getRequest u, ?_, hplaced.withoutUser⟩
    dsimp only
    rw [reading?, databaseUrl, hu]
    rfl
  | some post =>
    obtain ⟨op, body⟩ := post
    obtain ⟨u, hu, hplaced⟩ := exists_resourceUrl_of_normal normal "operations"
      ("odl-mappingservice:" ++ op.name) (by decide) (isName_operation op)
    have hresource : "/restconf/" ++ "operations" ++ "/" ++ ("odl-mappingservice:" ++ op.name) =
        "/restconf/operations/odl-mappingservice:" ++ op.name := by
      rw [← String.append_assoc]
      rfl
    rw [hresource] at hplaced
    refine ⟨c.postRequest u body, ?_, hplaced.withoutUser⟩
    dsimp only
    rw [posting?, operationUrl, hu]
    rfl

def Call.performAll (c : Client) (n : Network) : List Call → List (Except Error Unit) × Network
  | [] => ([], n)
  | k :: ks =>
    let (outcome, n) := k.perform c n
    let (outcomes, n) := performAll c n ks
    (outcome :: outcomes, n)

theorem Call.perform_snd (c : Client) (n : Network) (k : Call) :
    (k.perform c n).2 = n.after (n.takes (k.request? c)) := by
  obtain ⟨f, hexchanged, -⟩ := k.exchanged_perform c n
  exact hexchanged.network_eq

theorem Call.performAll_snd (c : Client) (n : Network) (ks : List Call) :
    (performAll c n ks).2 = n.after (ks.flatMap fun k => n.takes (k.request? c)) := by
  induction ks generalizing n with
  | nil => exact n.after_nil.symm
  | cons k ks ih =>
    have hstep : (performAll c n (k :: ks)).2 = (performAll c (k.perform c n).2 ks).2 := rfl
    rw [hstep, ih, perform_snd, Network.after_after, List.flatMap_cons]
    simp only [Network.takes_after]

section

variable {base base' : Url} {credentials : Option Credentials}

theorem perform_congr (same : ∀ datastore resource : String,
      resourceUrl ⟨base', credentials⟩ datastore resource =
        resourceUrl ⟨base, credentials⟩ datastore resource) (n : Network) (k : Call) :
    k.perform ⟨base', credentials⟩ n = k.perform ⟨base, credentials⟩ n := by
  have hpost : ∀ {α : Type} (op : Operation) (body : Json) (read : Json.Doc → Json.Decoded α),
      post ⟨base', credentials⟩ op body read n = post ⟨base, credentials⟩ op body read n := by
    intro α op body read
    have hrequest : postRequest ⟨base', credentials⟩ = postRequest ⟨base, credentials⟩ := rfl
    rw [post, post, operationUrl, operationUrl, same, hrequest]
  have hunit : ∀ (op : Operation) (input : Json),
      invokeUnit ⟨base', credentials⟩ op input n = invokeUnit ⟨base, credentials⟩ op input n := by
    intro op input
    rw [invokeUnit, invokeUnit, hpost]
  have hlookup : ∀ {α : Type} (op : Operation) (eid : Json) (kind : String)
      (found : Json.Field Json.Doc (Option α)), lookup ⟨base', credentials⟩ op eid kind found n =
        lookup ⟨base, credentials⟩ op eid kind found n := by
    intro α op eid kind found
    rw [lookup, lookup, hpost]
  cases k with
  | database =>
    have hrequest : getRequest ⟨base', credentials⟩ = getRequest ⟨base, credentials⟩ := rfl
    refine congrArg Call.ended ?_
    rw [mappingDatabase, mappingDatabase, databaseUrl, databaseUrl, same, hrequest]
  | addKey eid key => exact hunit .addKey (keyInput eid key)
  | updateKey eid key => exact hunit .updateKey (keyInput eid key)
  | removeKey eid => exact hunit .removeKey (.object [("eid", eid)])
  | getKey eid => exact congrArg Call.ended (hlookup .getKey eid "struct GetKeyOutput" _)
  | addMapping r => exact hunit .addMapping (recordInput r)
  | updateMapping r => exact hunit .updateMapping (recordInput r)
  | removeMapping eid => exact hunit .removeMapping (.object [("eid", eid)])
  | getMapping eid =>
    exact congrArg Call.ended (hlookup .getMapping eid "struct GetMappingOutput" _)
  | removeRaw op body =>
    have hraw : removeRaw ⟨base', credentials⟩ op body n =
        removeRaw ⟨base, credentials⟩ op body n := by rw [removeRaw, removeRaw, hpost]
    exact hraw

theorem performAll_congr (same : ∀ datastore resource : String,
      resourceUrl ⟨base', credentials⟩ datastore resource =
        resourceUrl ⟨base, credentials⟩ datastore resource) (n : Network) (ks : List Call) :
    Call.performAll ⟨base', credentials⟩ n ks = Call.performAll ⟨base, credentials⟩ n ks := by
  induction ks generalizing n with
  | nil => rfl
  | cons k ks ih =>
    rw [Call.performAll, Call.performAll, perform_congr same]
    simp only [ih]

end

theorem performAll_received {c : Client} (normal : Url.Normal c.base) (ks : List Call)
    (n : Network) : ∃ qs : List Request, ks.map (Call.request? c) = qs.map some ∧
      List.Forall₂ (fun k q => Url.Placed c.base k.resource q.url) ks qs ∧
      (Call.performAll c n ks).2.received =
        n.received ++ (qs.filter n.hears).map Request.received := by
  have hsent : ∃ qs : List Request, ks.map (Call.request? c) = qs.map some ∧
      List.Forall₂ (fun k q => Url.Placed c.base k.resource q.url) ks qs ∧
      ks.flatMap (fun k => n.takes (k.request? c)) =
        (qs.filter n.hears).map Request.received := by
    induction ks with
    | nil => exact ⟨[], rfl, .nil, rfl⟩
    | cons k ks ih =>
      obtain ⟨q, hq, hplaced⟩ := k.exists_request normal
      obtain ⟨qs, hqs, hall, htakes⟩ := ih
      refine ⟨q :: qs, by rw [List.map_cons, List.map_cons, hq, hqs], .cons hplaced hall, ?_⟩
      rw [List.flatMap_cons, htakes, hq, Network.takes, List.filter_cons]
      split <;> rfl
  obtain ⟨qs, hqs, hall, htakes⟩ := hsent
  refine ⟨qs, hqs, hall, ?_⟩
  rw [Call.performAll_snd, htakes]
  rfl

theorem exists_same_requests {c : Client} (normal : Url.Normal c.base)
    (query : c.base.query = none) (fragment : c.base.fragment = none) (m : Nat) :
    ∃ base, Url.read (c.base.text ++ Url.slashes m) = .ok base ∧
      base.pathText = c.base.pathText ++ Url.slashes m ∧
      ∀ n ks, Call.performAll ⟨base, c.credentials⟩ n ks = Call.performAll c n ks := by
  obtain ⟨base, hnormal, htext, hpath⟩ := normal.exists_slashes query fragment m
  refine ⟨base, ?_, hpath, performAll_congr fun datastore resource => ?_⟩
  · rw [← htext]
    exact hnormal.readChars_text
  · rw [resourceUrl_eq, resourceUrl_eq, htext, String.toList_append, Url.slashes,
      String.toList_ofList, Url.dropTrailing_append_replicate]

/-- Every call of a client of an accepted web base has a request. It has the scheme, the host and
the port of the base; behind a base without a query and a fragment its path is the path of the
base without trailing slashes and with the resource of the call behind it, and behind any other
base it is the path of the base. These requests are what is received, as far as something listens.
Slashes at the end of a base without a query and a fragment change nothing. -/
theorem requests_placed {s : String} {base : Url} (accepted : Url.read s = .ok base)
    (web : Network.isWeb base = true) (credentials : Option Credentials) (ks : List Call)
    (n : Network) :
    (∃ qs : List Request, ks.map (Call.request? ⟨base, credentials⟩) = qs.map some ∧
      List.Forall₂ (fun k q => Url.Placed base k.resource q.url) ks qs ∧
      (Call.performAll ⟨base, credentials⟩ n ks).2.received =
        n.received ++ (qs.filter n.hears).map Request.received) ∧
    (base.query = none → base.fragment = none → ∀ m, ∃ base',
      Url.read (base.text ++ Url.slashes m) = .ok base' ∧
      base'.pathText = base.pathText ++ Url.slashes m ∧
      Call.performAll ⟨base', credentials⟩ n ks = Call.performAll ⟨base, credentials⟩ n ks) := by
  have normal : Url.Normal base := Url.normal_of_readChars accepted (isSpecial_of_isWeb web)
  refine ⟨performAll_received (c := ⟨base, credentials⟩) normal ks n, fun query fragment m => ?_⟩
  obtain ⟨base', hread, hpath, hsame⟩ :=
    exists_same_requests (c := ⟨base, credentials⟩) normal query fragment m
  exact ⟨base', hread, hpath, hsame n ks⟩

def sampleBase (path : List String) (query : Option String) : Url :=
  ⟨"http", some ⟨"", none, .domain "odl.example", none⟩, .segments path, query, none⟩

theorem normal_sampleBase {path : List String} {query : Option String} (hpath : Url.IsPath path)
    (hquery : ∀ q ∈ query, ∀ c ∈ q.toList, Url.specialQuerySet c = false) :
    Url.Normal (sampleBase path query) := by
  have hname : Url.IsAsciiName "odl.example".toList :=
    ⟨Text.forall_of_all (by decide), Text.forall_of_all (by decide)⟩
  have hhost : (Url.Host.domain "odl.example").Normal := .domain hname (by decide) (by decide)
  have hauthority : Url.Authority.Normal "http" ⟨"", none, .domain "odl.example", none⟩ :=
    ⟨fun c hc => by simp at hc, fun p hp => (nomatch hp), hhost, fun p hp => (nomatch hp)⟩
  exact .intro rfl hauthority hpath hquery fun f hf => (nomatch hf)

theorem database_behind_path :
    Url.read "http://odl.example/lisp/" = .ok (sampleBase ["lisp", ""] none) ∧
      Network.isWeb (sampleBase ["lisp", ""] none) = true ∧
      ∃ q, Call.database.request? ⟨sampleBase ["lisp", ""] none, none⟩ = some q ∧
        q.url.pathText = "/lisp/restconf/config/odl-mappingservice:mapping-database" := by
  have hpath : Url.IsPath ["lisp", ""] := by
    have hnames : ∀ x ∈ ["lisp", ""], Url.IsName x.toList := by decide
    exact ⟨fun x hx => (hnames x hx).isSegment, List.cons_ne_nil _ _⟩
  have htext : (sampleBase ["lisp", ""] none).text = "http://odl.example/lisp/" := by decide
  have hread : Url.read "http://odl.example/lisp/" = .ok (sampleBase ["lisp", ""] none) := by
    rw [← htext]
    exact Url.Normal.readChars_text (normal_sampleBase hpath (by simp))
  obtain ⟨⟨qs, hqs, hplaced, -⟩, -⟩ :=
    requests_placed hread rfl none [.database] ⟨fun _ => true, [], []⟩
  cases hplaced with
  | cons hplaced hnil =>
    cases hnil
    exact ⟨hread, rfl, _, (List.cons.inj hqs).1, hplaced.path rfl rfl⟩

/-- The query of a base takes the resource in, and the path of the base is asked for. -/
theorem query_takes_resource : ¬∀ (s : String) (base : Url), Url.read s = .ok base →
    Network.isWeb base = true → ∀ (credentials : Option Credentials) (k : Call) (q : Request),
    k.request? ⟨base, credentials⟩ = some q → q.url.pathText =
      String.ofList (Text.dropTrailing '/' base.pathText.toList) ++ k.resource := by
  intro h
  have hpath : Url.IsPath [""] :=
    ⟨fun x hx => List.mem_singleton.1 hx ▸ Url.isSegment_nil, List.cons_ne_nil _ _⟩
  have normal : Url.Normal (sampleBase [""] (some "x=1")) := by
    refine normal_sampleBase hpath fun q hq => ?_
    cases hq
    exact Text.forall_of_all (by decide)
  have htext : (sampleBase [""] (some "x=1")).text = "http://odl.example/?x=1" := by decide
  have hread : Url.read "http://odl.example/?x=1" = .ok (sampleBase [""] (some "x=1")) := by
    rw [← htext]
    exact normal.readChars_text
  obtain ⟨q, hq, hplaced⟩ :=
    Call.exists_request (c := ⟨sampleBase [""] (some "x=1"), none⟩) normal .database
  have hclaim := h _ _ hread rfl none .database q hq
  rw [hplaced.elsewhere (.inl (Option.some_ne_none _))] at hclaim
  exact absurd hclaim (by decide)

end EidMap.Rpc.Client
