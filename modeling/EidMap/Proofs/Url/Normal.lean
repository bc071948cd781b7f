import EidMap.Proofs.Rpc.Resource
import EidMap.Proofs.Url.Authority
import EidMap.Proofs.Url.Path

/-!
# The normal form of web URLs

A web URL that was read is in normal form, and a URL in normal form is read back from its text. So
the text of a URL may be changed part by part, as long as each part stays in its form.
-/

namespace EidMap.Url

/-- A web URL as it is when it has been read. -/
inductive Normal : Url → Prop
  | intro {scheme : String} {a : Authority} {xs : List String} {query fragment : Option String}
    (special : isSpecial scheme = true) (authority : a.Normal scheme) (path : IsPath xs)
    (encodedQuery : ∀ q ∈ query, ∀ c ∈ q.toList, specialQuerySet c = false)
    (encodedFragment : ∀ f ∈ fragment, ∀ c ∈ f.toList, fragmentSet c = false) :
    Normal ⟨scheme, some a, .segments xs, query, fragment⟩

def marked (mark : Char) : Option String → List Char
  | some s => mark :: s.toList
  | none => []

theorem toList_text (scheme : String) (a : Authority) (xs : List String)
    (query fragment : Option String) :
    (text ⟨scheme, some a, .segments xs, query, fragment⟩).toList = scheme.toList ++
      ':' :: '/' :: '/' :: (a.text.toList ++ slashed xs ++
        (marked '?' query ++ marked '#' fragment)) := by
  have hpath : pathText ⟨scheme, some a, .segments xs, query, fragment⟩ =
      (Path.segments xs).text := rfl
  rw [text, hpath, ← toList_pathText]
  cases query <;> cases fragment <;> simp [marked]

theorem cleaned_eq_self {cs : List Char} (h : ∀ c ∈ cs, isEdge c = false) : cleaned cs = cs := by
  have hhead : ∀ {ds : List Char}, (∀ c ∈ ds, isEdge c = false) → ds.dropWhile isEdge = ds :=
    fun hds => Text.dropWhile_eq_self fun c hc => hds c (List.mem_of_mem_head? hc)
  rw [cleaned, hhead h, hhead fun c hc => h c (List.mem_reverse.1 hc), List.reverse_reverse]
  exact List.filter_eq_self.2 fun c hc => by rw [isNoise_of_not_isEdge (h c hc)]; rfl

theorem mem_of_isSpecial {scheme : String} (h : isSpecial scheme = true) :
    scheme ∈ ["http", "ws", "https", "wss", "ftp"] := by
  unfold isSpecial defaultPort? at h
  split at h
  all_goals first | decide | cases h

theorem scheme?_of_isSpecial {scheme : String} (h : isSpecial scheme = true) (cs : List Char) :
    scheme? (scheme.toList ++ ':' :: cs) = some (scheme.toList, cs) := by
  have hall : ∀ s ∈ ["http", "ws", "https", "wss", "ftp"],
      scheme? (s.toList ++ ':' :: cs) = some (s.toList, cs) := by
    simp only [List.forall_mem_cons]
    exact ⟨rfl, rfl, rfl, rfl, rfl, by simp⟩
  exact hall scheme (mem_of_isSpecial h)

theorem isEdge_of_isSpecial {scheme : String} (h : isSpecial scheme = true) :
    ∀ c ∈ scheme.toList, isEdge c = false := by
  have hall : ∀ s ∈ ["http", "ws", "https", "wss", "ftp"],
      (s.toList.all fun c => decide (isEdge c = false)) = true := by decide
  exact Text.forall_of_all (hall scheme (mem_of_isSpecial h))

theorem cutTail_marked {front : List Char} {query : Option String} (fragment : Option String)
    (hfront : '#' ∉ front ∧ '?' ∉ front) (hquery : ∀ q ∈ query, '#' ∉ q.toList) :
    cutTail (front ++ (marked '?' query ++ marked '#' fragment)) =
      (front, query.map String.toList, fragment.map String.toList) := by
  have hmark : '#' ∉ front ++ marked '?' query := by
    intro hm
    rcases List.mem_append.1 hm with hm | hm
    · exact hfront.1 hm
    · cases query with
      | none => cases hm
      | some q => exact (List.mem_cons.1 hm).elim (by decide) (hquery q rfl)
  have hcut : Text.cutFirst '?' (front ++ marked '?' query) =
      query.map fun q => (front, q.toList) := by
    cases query with
    | none =>
      rw [marked, List.append_nil]
      exact Text.cutFirst_eq_none hfront.2
    | some q => exact Text.cutFirst_append hfront.2 _
  have htail : Text.cutFirst '#' (front ++ marked '?' query ++ marked '#' fragment) =
      fragment.map fun f => (front ++ marked '?' query, f.toList) := by
    cases fragment with
    | none =>
      rw [marked, List.append_nil]
      exact Text.cutFirst_eq_none hmark
    | some f => exact Text.cutFirst_append hmark _
  rw [← List.append_assoc, cutTail, htail]
  cases fragment with
  | none =>
    rw [marked, List.append_nil]
    dsimp only [Option.map_none]
    rw [hcut]
    cases query with
    | none => rw [marked, List.append_nil]; rfl
    | some q => rfl
  | some f =>
    dsimp only [Option.map_some]
    rw [hcut]
    cases query with
    | none => rw [marked, List.append_nil]; rfl
    | some q => rfl

theorem readChars_of_scheme? {cs scheme rest : List Char}
    (hscheme : scheme? (cleaned cs) = some (scheme, rest))
    (special : isSpecial (String.ofList scheme) = true) :
    readChars cs =
      let place := (cutTail rest).1.dropWhile fun c => c == '/' || c == '\\'
      (readAuthority (String.ofList scheme) (place.takeWhile fun c => !endsAuthority true c)).map
        fun a => ⟨String.ofList scheme, some a,
          hostPath true (place.dropWhile fun c => !endsAuthority true c),
          (cutTail rest).2.1.map fun q => String.ofList (encode specialQuerySet q),
          (cutTail rest).2.2.map fun f => String.ofList (encode fragmentSet f)⟩ := by
  rw [readChars, hscheme]
  dsimp only
  rw [special, if_pos rfl]
  cases readAuthority _ _ <;> rfl

theorem map_encode_eq {set : Char → Bool} {o : Option String}
    (h : ∀ s ∈ o, ∀ c ∈ s.toList, set c = false) :
    (o.map String.toList).map (fun cs => String.ofList (encode set cs)) = o := by
  cases o with
  | none => rfl
  | some s => rw [Option.map_some, Option.map_some, encode_eq_self (h s rfl), String.ofList_toList]

theorem encoded_of_mem_map {set : Char → Bool} (keeps : KeepsEscapes set) (o : Option (List Char)) :
    ∀ s ∈ o.map (fun cs => String.ofList (encode set cs)), ∀ c ∈ s.toList, set c = false := by
  intro s hs
  obtain ⟨cs, -, rfl⟩ := Option.map_eq_some_iff.1 hs
  rw [String.toList_ofList]
  exact keeps.of_mem_encode

variable {u : Url}

theorem normal_of_readChars {cs : List Char} (h : readChars cs = .ok u)
    (special : isSpecial u.scheme = true) : Normal u := by
  have hopening := map_readChars cs
  rw [h, opening] at hopening
  cases hcut : scheme? (cleaned cs) with
  | none =>
    rw [hcut] at hopening
    cases hopening
  | some cut =>
    obtain ⟨scheme, rest⟩ := cut
    have hscheme : u.scheme = String.ofList scheme := by
      rw [hcut] at hopening
      dsimp only at hopening
      rw [opened] at hopening
      split at hopening
      · exact congrArg Prod.fst (Except.ok.inj hopening)
      · obtain ⟨a, -, ha⟩ := Json.map_eq_ok.1 hopening.symm
        exact (congrArg Prod.fst ha).symm
    rw [hscheme] at special
    rw [readChars_of_scheme? hcut special] at h
    obtain ⟨a, ha, rfl⟩ := Json.map_eq_ok.1 h
    obtain ⟨xs, hxs, hpath⟩ := exists_isPath
      (((cutTail rest).1.dropWhile fun c => c == '/' || c == '\\').dropWhile
        fun c => !endsAuthority true c)
    rw [hxs]
    exact .intro special (Authority.normal_of_readAuthority special ha) hpath
      (encoded_of_mem_map keepsEscapes_specialQuerySet _)
      (encoded_of_mem_map keepsEscapes_fragmentSet _)

theorem Normal.isEdge_text (normal : Normal u) : ∀ c ∈ u.text.toList, isEdge c = false := by
  cases normal with
  | @intro scheme a xs query fragment special authority path encodedQuery encodedFragment =>
    have hmarked : ∀ {set : Char → Bool} {mark : Char} {o : Option String},
        (∀ c, set c = false → isEdge c = false) → isEdge mark = false →
        (∀ s ∈ o, ∀ c ∈ s.toList, set c = false) → ∀ c ∈ marked mark o, isEdge c = false := by
      intro set mark o hset hmark ho c hc
      cases o with
      | none => cases hc
      | some s =>
        rcases List.mem_cons.1 hc with rfl | hc
        · exact hmark
        · exact hset c (ho s rfl c hc)
    have hslashed : ∀ c ∈ slashed xs, isEdge c = false := by
      intro c hc
      rcases mem_slashed hc with rfl | ⟨x, hx, hc⟩
      · rfl
      · exact isEdge_of_fragmentSet (fragmentSet_of_pathSet ((path.segment x hx).encoded c hc))
    intro c hc
    rw [toList_text] at hc
    simp only [List.mem_append, List.mem_cons] at hc
    rcases hc with hc | rfl | rfl | rfl | (hc | hc) | hc | hc
    · exact isEdge_of_isSpecial special c hc
    · rfl
    · rfl
    · rfl
    · exact (authority.inside c hc).1
    · exact hslashed c hc
    · exact hmarked (fun _ => isEdge_of_specialQuerySet) rfl encodedQuery c hc
    · exact hmarked (fun _ => isEdge_of_fragmentSet) rfl encodedFragment c hc

theorem Normal.readChars_text (normal : Normal u) : readChars u.text.toList = .ok u := by
  have hcleaned := cleaned_eq_self normal.isEdge_text
  cases normal with
  | @intro scheme a xs query fragment special authority path encodedQuery encodedFragment =>
    have hauthority : ∀ c ∈ a.text.toList, endsAuthority true c = false :=
      fun c hc => (authority.inside c hc).2
    obtain ⟨c, cs, htext⟩ := List.exists_cons_of_ne_nil authority.text_ne_nil
    have hpath : ∀ c ∈ (slashed xs).head?, (!endsAuthority true c) = false := by
      obtain ⟨x, ys, rfl⟩ := List.exists_cons_of_ne_nil path.ne
      intro c hc
      cases hc
      rfl
    have hfront : ∀ mark, pathSet mark = true → endsAuthority true mark = true → mark ≠ '/' →
        mark ∉ '/' :: '/' :: (a.text.toList ++ slashed xs) := by
      intro mark hset hends hslash hm
      simp only [List.mem_cons, List.mem_append] at hm
      rcases hm with hm | hm | hm | hm
      · exact hslash hm
      · exact hslash hm
      · exact Bool.false_ne_true ((hauthority mark hm).symm.trans hends)
      · rcases mem_slashed hm with hm | ⟨x, hx, hm⟩
        · exact hslash hm
        · exact Bool.false_ne_true (((path.segment x hx).encoded mark hm).symm.trans hset)
    have htail : cutTail ('/' :: '/' :: (a.text.toList ++ slashed xs ++
        (marked '?' query ++ marked '#' fragment))) =
        ('/' :: '/' :: (a.text.toList ++ slashed xs), query.map String.toList,
          fragment.map String.toList) := by
      refine @cutTail_marked ('/' :: '/' :: (a.text.toList ++ slashed xs)) query fragment
        ⟨hfront '#' rfl rfl (by decide), hfront '?' rfl rfl (by decide)⟩ fun q hq hm => ?_
      exact absurd (encodedQuery q hq '#' hm) (by decide)
    have hplace : ('/' :: '/' :: (a.text.toList ++ slashed xs)).dropWhile
        (fun c => c == '/' || c == '\\') = a.text.toList ++ slashed xs := by
      refine @Text.dropWhile_append_eq _ ['/', '/'] _ (by simp) fun d hd => ?_
      rw [htext] at hd hauthority
      cases hd
      have hends := hauthority c List.mem_cons_self
      simp only [endsAuthority, Bool.true_and, Bool.or_eq_false_iff] at hends
      rw [hends.1.1.1, hends.2]
      rfl
    have hscheme : isSpecial (String.ofList scheme.toList) = true := by
      rwa [String.ofList_toList]
    rw [toList_text] at hcleaned ⊢
    rw [readChars_of_scheme? (by rw [hcleaned, scheme?_of_isSpecial special]) hscheme, htail]
    dsimp only
    rw [hplace, Text.takeWhile_append_eq (fun c hc => by rw [hauthority c hc]; rfl) hpath,
      Text.dropWhile_append_eq (fun c hc => by rw [hauthority c hc]; rfl) hpath,
      String.ofList_toList, authority.readAuthority_text special, hostPath_slashed path,
      map_encode_eq encodedQuery, map_encode_eq encodedFragment]
    rfl

end EidMap.Url
