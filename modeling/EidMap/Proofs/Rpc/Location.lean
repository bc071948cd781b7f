import EidMap.Proofs.Rpc.Resource
import EidMap.Proofs.Url.Percent

/-!
# Where a resource is

The names of a resource are kept as they are in every part of a URL. Behind a base without a query and
a fragment they are the last two segments of the path; behind any base they are the end of the URL.
-/

namespace EidMap.Url

structure Kept (c : Char) : Prop where
  path : pathSet c = false
  query : specialQuerySet c = false
  edge : isEdge c = false
  slash : c ≠ '/'
  backslash : c ≠ '\\'
  dot : c ≠ '.'
  percent : c ≠ '%'

instance : DecidablePred Kept := fun c =>
  decidable_of_iff (pathSet c = false ∧ specialQuerySet c = false ∧ isEdge c = false ∧
      c ≠ '/' ∧ c ≠ '\\' ∧ c ≠ '.' ∧ c ≠ '%')
    ⟨fun ⟨h₁, h₂, h₃, h₄, h₅, h₆, h₇⟩ => ⟨h₁, h₂, h₃, h₄, h₅, h₆, h₇⟩,
      fun ⟨h₁, h₂, h₃, h₄, h₅, h₆, h₇⟩ => ⟨h₁, h₂, h₃, h₄, h₅, h₆, h₇⟩⟩

theorem Kept.fragment {c : Char} (h : Kept c) : fragmentSet c = false := by
  have hpath := h.path
  rw [pathSet, Bool.or_eq_false_iff] at hpath
  exact hpath.1

def IsName (cs : List Char) : Prop := ∀ c ∈ cs, Kept c

instance (cs : List Char) : Decidable (IsName cs) := List.decidableBAll Kept cs

variable {a b : List Char}

theorem IsName.slash (h : IsName a) : '/' ∉ a := fun hm => (h _ hm).slash rfl

theorem IsName.dots_eq (h : IsName a) : dots a = a := by
  unfold dots
  split
  · exact absurd rfl (h _ List.mem_cons_self).percent
  · exact absurd rfl (h _ List.mem_cons_self).dot
  · rfl

/-- The path of a resource in a datastore. -/
def behind (a b : List Char) : List Char := '/' :: (a ++ '/' :: b)

theorem forall_mem_behind {p : Char → Prop} (hp : ∀ c, Kept c → p c) (slash : p '/')
    (ha : IsName a) (hb : IsName b) : ∀ c ∈ behind a b, p c := by
  intro c hc
  rcases List.mem_cons.1 hc with rfl | hc
  · exact slash
  rcases List.mem_append.1 hc with hc | hc
  · exact hp c (ha c hc)
  rcases List.mem_cons.1 hc with rfl | hc
  · exact slash
  · exact hp c (hb c hc)

theorem plain_behind (ha : IsName a) (hb : IsName b) : Plain (behind a b) := by
  refine forall_mem_behind (fun c h => ⟨h.edge, ?_, ?_⟩) (by decide) ha hb
  · rintro rfl
    exact absurd h.path (by decide)
  · rintro rfl
    exact absurd h.path (by decide)

theorem encode_behind {set : Char → Bool} (hset : ∀ c, Kept c → set c = false)
    (slash : set '/' = false) (ha : IsName a) (hb : IsName b) (front : List Char) :
    encode set (front ++ behind a b) = encode set front ++ behind a b := by
  rw [encode_append, encode_eq_self (forall_mem_behind hset slash ha hb)]

theorem exists_resolve_append (done : List String) (ps qs : List (List Char)) :
    ∃ front, resolve done (ps ++ qs) = resolve front qs := by
  induction ps generalizing done with
  | nil => exact ⟨done, rfl⟩
  | cons p ps ih =>
    rw [List.cons_append, resolve]
    split
    · exact ih _
    split
    · exact ih _
    · exact ih _

theorem resolve_name (done : List String) (h : IsName a) (rest : List (List Char)) :
    resolve done (a :: rest) = resolve (done ++ [String.ofList a]) rest := by
  have hdot : a ≠ ['.'] := by
    rintro rfl
    exact (h '.' List.mem_cons_self).dot rfl
  have hdots : a ≠ ['.', '.'] := by
    rintro rfl
    exact (h '.' List.mem_cons_self).dot rfl
  rw [resolve, h.dots_eq]
  simp only [if_neg hdot, if_neg hdots, encode_eq_self fun c hc => (h c hc).path]

theorem exists_segments (ha : IsName a) (hb : IsName b) (front : List Char) :
    (∃ xs, segments true (front ++ behind a b) = xs ++ [String.ofList a, String.ofList b]) ∧
      segments true (a ++ '/' :: b) = [String.ofList a, String.ofList b] := by
  have hkept : (behind a b).map (fun c => if c = '\\' then '/' else c) = behind a b :=
    (List.map_congr_left (forall_mem_behind (fun c h => if_neg h.backslash) rfl ha hb)).trans
      (List.map_id _)
  have hnames : Text.pieces '/' (a ++ '/' :: b) = [a, b] := by
    rw [Text.pieces_append ha.slash, Text.pieces_eq_singleton hb.slash]
  have hresolve : ∀ done, resolve done [a, b] = done ++ [String.ofList a, String.ofList b] := by
    intro done
    rw [resolve_name _ ha, resolve_name _ hb, List.append_assoc]
    rfl
  constructor
  · rw [segments, if_pos rfl, List.map_append, hkept, behind, Text.pieces_append_sep, hnames]
    obtain ⟨xs, hxs⟩ := exists_resolve_append [] (Text.pieces '/' (front.map _)) [a, b]
    exact ⟨xs, hxs.trans (hresolve xs)⟩
  · rw [segments, if_pos rfl, (List.cons.inj hkept).2, hnames]
    exact hresolve []

theorem exists_hostPath (ha : IsName a) (hb : IsName b) (front : List Char) :
    ∃ xs, hostPath true (front ++ behind a b) =
      .segments (xs ++ [String.ofList a, String.ofList b]) := by
  cases front with
  | nil => exact ⟨[], congrArg Path.segments (exists_segments ha hb []).2⟩
  | cons c cs =>
    rw [List.cons_append, hostPath]
    split
    · obtain ⟨xs, hxs⟩ := (exists_segments ha hb cs).1
      exact ⟨xs, congrArg Path.segments hxs⟩
    · obtain ⟨xs, hxs⟩ := (exists_segments ha hb (c :: cs)).1
      exact ⟨xs, congrArg Path.segments hxs⟩

theorem parts_of_readChars {cs : List Char} {u : Url} (h : readChars cs = .ok u)
    (special : isSpecial u.scheme = true) :
    ∃ scheme rest, scheme? (cleaned cs) = some (scheme, rest) ∧
      u.path = hostPath true (((cutTail rest).1.dropWhile fun c => c == '/' || c == '\\').dropWhile
        fun c => !endsAuthority true c) ∧
      u.query = (cutTail rest).2.1.map (fun q => String.ofList (encode specialQuerySet q)) ∧
      u.fragment = (cutTail rest).2.2.map (fun f => String.ofList (encode fragmentSet f)) := by
  rw [readChars] at h
  split at h
  · cases h
  · rename_i scheme rest hscheme
    dsimp only at h
    cases hs : isSpecial (String.ofList scheme) with
    | true =>
      rw [hs, if_pos rfl] at h
      obtain ⟨authority, -, h⟩ := Json.bind_eq_ok.1 h
      cases h
      exact ⟨scheme, rest, hscheme, rfl, rfl, rfl⟩
    | false =>
      rw [hs, if_neg Bool.false_ne_true] at h
      split at h
      · obtain ⟨authority, -, h⟩ := Json.bind_eq_ok.1 h
        cases h
        cases hs.symm.trans special
      · cases h
        cases hs.symm.trans special
      · cases h
        cases hs.symm.trans special

variable {u : Url}

/-- Names behind the path, or behind the query or the fragment. -/
inductive EndsIn (a b : List Char) (u : Url) : Prop
  | path (xs : List String) (path : u.path = .segments (xs ++ [String.ofList a, String.ofList b]))
    (query : u.query = none) (fragment : u.fragment = none)
  | query (front : List Char) (query : u.query = some (String.ofList (front ++ behind a b)))
    (fragment : u.fragment = none)
  | fragment (front : List Char)
    (fragment : u.fragment = some (String.ofList (front ++ behind a b)))

theorem suffix_pathText {xs : List String}
    (hpath : u.path = .segments (xs ++ [String.ofList a, String.ofList b])) :
    behind a b <:+ u.pathText.toList := by
  have htext : behind a b <:+ u.path.text.toList := by
    rw [hpath, Path.text]
    simp [behind]
  rw [pathText]
  split
  · rw [String.toList_append]
    exact htext.trans (List.suffix_append _ _)
  · exact htext

theorem EndsIn.suffix (h : EndsIn a b u) : behind a b <:+ u.text.toList := by
  have marked : ∀ (mark : String) (front : List Char),
      behind a b <:+ (mark ++ String.ofList (front ++ behind a b)).toList := by
    intro mark front
    rw [String.toList_append, String.toList_ofList, ← List.append_assoc]
    exact List.suffix_append _ _
  cases h with
  | path xs path query fragment =>
    rw [text, query, fragment, String.append_empty, String.append_empty, String.toList_append]
    exact (suffix_pathText path).trans (List.suffix_append _ _)
  | query front query fragment =>
    rw [text, query, fragment, String.append_empty, String.toList_append]
    exact (marked "?" front).trans (List.suffix_append _ _)
  | fragment front fragment =>
    rw [text, fragment, String.toList_append]
    exact (marked "#" front).trans (List.suffix_append _ _)

theorem exists_behind_authority (front : List Char) :
    ∃ path, ((front ++ '/' :: ("restconf".toList ++ behind a b)).dropWhile fun c =>
      c == '/' || c == '\\').dropWhile (fun c => !endsAuthority true c) = path ++ behind a b := by
  have hname : "restconf".toList = 'r' :: "estconf".toList := rfl
  refine ⟨((front ++ ['/']).dropWhile (fun c => c == '/' || c == '\\') ++
    "restconf".toList).dropWhile fun c => !endsAuthority true c, ?_⟩
  rw [hname, List.cons_append, List.append_cons,
    Text.dropWhile_append_cons (p := fun c => c == '/' || c == '\\') rfl, ← List.cons_append,
    ← List.append_assoc, behind,
    Text.dropWhile_append_cons (p := fun c => !endsAuthority true c) rfl]

theorem endsIn_of_readChars (ha : IsName a) (hb : IsName b) {base : List Char}
    (h : readChars (base ++ '/' :: ("restconf".toList ++ behind a b)) = .ok u)
    (special : isSpecial u.scheme = true) :
    EndsIn a b u ∧ ('?' ∉ base → '#' ∉ base →
      ∃ xs, u.path = .segments (xs ++ [String.ofList a, String.ofList b])) := by
  have hplain : Plain ('/' :: ("restconf".toList ++ behind a b)) := by
    have hname : Plain "/restconf".toList := plain_of_all (by decide)
    exact hname.append (plain_behind ha hb)
  obtain ⟨scheme, rest, hscheme, hpath, hquery, hfragment⟩ := parts_of_readChars h special
  rw [cleaned_append base hplain] at hscheme
  rcases scheme?_append ((base.dropWhile isEdge).filter fun d => !isNoise d) with
    ⟨scheme', back, hback, hall⟩ | hnone
  · have hmem : ∀ c ∈ back, c ∈ base := fun c hc =>
      (List.dropWhile_sublist _).subset (List.mem_filter.1 (hback.subset hc)).1
    rw [hall] at hscheme
    cases hscheme
    cases cutTail_append back with
    | fragment mark front query tail heq =>
      rw [heq _ hplain] at hfragment
      refine ⟨.fragment (encode fragmentSet (tail ++ "/restconf".toList)) ?_, fun _ hno =>
        absurd (hmem _ mark) hno⟩
      rw [hfragment, ← encode_behind (fun c => Kept.fragment) rfl ha hb, List.append_assoc]
      rfl
    | query mark front tail heq =>
      rw [heq _ hplain] at hquery hfragment
      refine ⟨.query (encode specialQuerySet (tail ++ "/restconf".toList)) ?_ hfragment, fun hno _ =>
        absurd (hmem _ mark) hno⟩
      rw [hquery, ← encode_behind (fun c => Kept.query) rfl ha hb, List.append_assoc]
      rfl
    | path heq =>
      rw [heq _ hplain] at hpath hquery hfragment
      obtain ⟨path, hfront⟩ := @exists_behind_authority a b back
      obtain ⟨xs, hxs⟩ := exists_hostPath ha hb path
      rw [hfront, hxs] at hpath
      exact ⟨.path xs hpath hquery hfragment, fun _ _ => ⟨xs, hpath⟩⟩
  · rw [hnone] at hscheme
    cases hscheme

end EidMap.Url

namespace EidMap.Rpc.Client

variable {c : Client} {u : Url}

theorem isSpecial_of_isWeb (h : Network.isWeb u = true) : Url.isSpecial u.scheme = true := by
  rw [Network.isWeb, Bool.or_eq_true, beq_iff_eq, beq_iff_eq] at h
  rcases h with h | h
  · rw [h]
    rfl
  · rw [h]
    rfl

theorem endsIn_of_resourceUrl {datastore resource : String} (hd : Url.IsName datastore.toList)
    (hr : Url.IsName resource.toList) (h : c.resourceUrl datastore resource = .ok u)
    (web : Network.isWeb u = true) :
    Url.EndsIn datastore.toList resource.toList u ∧
      ('?' ∉ c.base.text.toList → '#' ∉ c.base.text.toList →
        ∃ xs, u.path = .segments (xs ++ [datastore, resource])) := by
  rw [resourceUrl_eq] at h
  have hmem : ∀ d ∈ Text.dropTrailing '/' c.base.text.toList, d ∈ c.base.text.toList := by
    intro d hd
    rw [Text.dropTrailing, List.mem_reverse] at hd
    exact List.mem_reverse.1 ((List.dropWhile_sublist _).subset hd)
  cases hread : Url.readChars (Text.dropTrailing '/' c.base.text.toList ++ '/' :: ("restconf".toList ++
      '/' :: (datastore.toList ++ '/' :: resource.toList))) with
  | error e =>
    rw [hread] at h
    cases h
  | ok v =>
    rw [hread] at h
    cases h
    obtain ⟨hends, hpath⟩ := Url.endsIn_of_readChars hd hr hread (isSpecial_of_isWeb web)
    refine ⟨hends, fun hquery hfragment => ?_⟩
    have hsegments := hpath (fun hm => hquery (hmem _ hm)) fun hm => hfragment (hmem _ hm)
    rwa [String.ofList_toList, String.ofList_toList] at hsegments

theorem isName_operation (op : Operation) :
    Url.IsName ("odl-mappingservice:" ++ op.name).toList := by
  have hmodule : Url.IsName "odl-mappingservice:".toList := by decide
  have hname : Url.IsName op.name.toList := by cases op <;> decide
  rw [String.toList_append]
  exact List.forall_mem_append.2 ⟨hmodule, hname⟩

theorem endsIn_of_operationUrl {op : Operation} (h : c.operationUrl op = .ok u)
    (web : Network.isWeb u = true) :
    Url.EndsIn "operations".toList ("odl-mappingservice:" ++ op.name).toList u ∧
      ('?' ∉ c.base.text.toList → '#' ∉ c.base.text.toList →
        ∃ xs, u.path = .segments (xs ++ ["operations", "odl-mappingservice:" ++ op.name])) :=
  endsIn_of_resourceUrl (by decide) (isName_operation op) h web

end EidMap.Rpc.Client
