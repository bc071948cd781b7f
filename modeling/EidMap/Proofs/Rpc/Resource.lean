import EidMap.Proofs.Text.Cut
import EidMap.Rpc.Client
import Mathlib.Tactic.SplitIfs

/-!
# Whether a resource has a URL

The URL of a resource is read from the text of the base with a path after it. Whether such a text is
a URL is decided by its scheme and its authority, which end before the name of the resource begins.
So the store either has a URL for every resource or for none.
-/

namespace EidMap.Url

def authorityText (special : Bool) (front : List Char) : Option (List Char) :=
  match special, front with
  | true, cs => some ((cs.dropWhile fun c => c == '/' || c == '\\').takeWhile fun c =>
    !endsAuthority true c)
  | false, '/' :: '/' :: cs => some (cs.takeWhile fun c => !endsAuthority false c)
  | false, _ => none

theorem authorityText_eq_none {front : List Char} (h : ∀ cs, front = '/' :: '/' :: cs → False) :
    authorityText false front = none := by
  unfold authorityText
  split
  · rename_i htrue
    cases htrue
  · exact (h _ rfl).elim
  · rfl

def opened (scheme : String) (front : List Char) : Except ReadError (String × Option Authority) :=
  match authorityText (isSpecial scheme) front with
  | none => .ok (scheme, none)
  | some text => (readAuthority scheme text).map fun a => (scheme, some a)

def opening (cs : List Char) : Except ReadError (String × Option Authority) :=
  match scheme? (cleaned cs) with
  | none => .error .relative
  | some (scheme, rest) => opened (String.ofList scheme) (cutTail rest).1

theorem map_readChars (cs : List Char) :
    (readChars cs).map (fun u => (u.scheme, u.authority)) = opening cs := by
  rw [readChars, opening]
  cases scheme? (cleaned cs) with
  | none => rfl
  | some cut =>
    obtain ⟨scheme, rest⟩ := cut
    dsimp only
    rw [opened]
    generalize (cutTail rest).1 = front
    cases isSpecial (String.ofList scheme) with
    | true =>
      rw [if_pos rfl]
      dsimp only [authorityText]
      cases readAuthority (String.ofList scheme) _ <;> rfl
    | false =>
      rw [if_neg Bool.false_ne_true]
      split
      · rw [authorityText]
        dsimp only
        cases readAuthority (String.ofList scheme) _ <;> rfl
      · rename_i cs hcs
        rw [authorityText_eq_none fun ds hds => hcs ds (List.cons.inj hds).2]
        rfl
      · rename_i hcs _
        rw [authorityText_eq_none hcs]
        rfl

def Plain (cs : List Char) : Prop := ∀ c ∈ cs, isEdge c = false ∧ c ≠ '#' ∧ c ≠ '?'

theorem plain_of_all {cs : List Char}
    (h : (cs.all fun c => !isEdge c && c != '#' && c != '?') = true) : Plain cs := by
  intro c hc
  simpa [and_assoc] using List.all_eq_true.1 h c hc

theorem Plain.append {cs ds : List Char} (h : Plain cs) (h' : Plain ds) : Plain (cs ++ ds) :=
  fun c hc => (List.mem_append.1 hc).elim (h c) (h' c)

theorem isNoise_of_not_isEdge {c : Char} (h : isEdge c = false) : isNoise c = false := by
  cases hnoise : isNoise c with
  | false => rfl
  | true =>
    simp only [isNoise, Bool.or_eq_true, beq_iff_eq] at hnoise
    rcases hnoise with (rfl | rfl) | rfl <;> exact absurd h (by decide)

theorem cleaned_append (base : List Char) {c : Char} {cs : List Char} (h : Plain (c :: cs)) :
    cleaned (base ++ c :: cs) = (base.dropWhile isEdge).filter (fun d => !isNoise d) ++ c :: cs := by
  have hlast : ∀ d ∈ (base.dropWhile isEdge ++ c :: cs).reverse.head?, isEdge d = false := by
    intro d hd
    rw [List.head?_reverse, List.getLast?_append, List.getLast?_cons] at hd
    exact (h d (List.mem_of_getLast? (List.getLast?_cons.trans hd))).1
  have hkept : (c :: cs).filter (fun d => !isNoise d) = c :: cs :=
    List.filter_eq_self.2 fun d hd => by rw [isNoise_of_not_isEdge (h d hd).1]; rfl
  rw [cleaned, Text.dropWhile_append_cons (h c List.mem_cons_self).1,
    Text.dropWhile_eq_self hlast, List.reverse_reverse, List.filter_append, hkept]

theorem scheme?_append (base : List Char) :
    (∃ scheme rest, rest <:+ base ∧
      ∀ cs, scheme? (base ++ '/' :: cs) = some (scheme, rest ++ '/' :: cs)) ∨
      ∀ cs, scheme? (base ++ '/' :: cs) = none := by
  by_cases hcolon : ':' ∈ base
  · obtain ⟨front, back, rfl, hfront⟩ := List.eq_append_cons_of_mem hcolon
    have hcut : ∀ cs, Text.cutFirst ':' (front ++ ':' :: back ++ '/' :: cs) =
        some (front, back ++ '/' :: cs) := by
      intro cs
      rw [List.append_assoc, List.cons_append, Text.cutFirst_append hfront]
    simp only [scheme?, hcut]
    cases front with
    | nil => exact .inr fun _ => rfl
    | cons c front =>
      dsimp only
      split_ifs
      · exact .inl ⟨_, back, ⟨c :: front ++ [':'], by simp⟩, fun _ => rfl⟩
      · exact .inr fun _ => rfl
  · refine .inr fun cs => ?_
    rw [scheme?, Text.cutFirst_append_of_notMem hcolon]
    -- What stands before a colon begins with the base and a slash, which no scheme has.
    cases hcut : Text.cutFirst ':' ('/' :: cs) with
    | none => rfl
    | some cut =>
      obtain ⟨front, back⟩ := cut
      rw [Text.cutFirst, if_neg (by decide)] at hcut
      obtain ⟨⟨front, back⟩, -, hfront⟩ := Option.map_eq_some_iff.1 hcut
      cases hfront
      rw [Option.map_some]
      cases base with
      | nil => rfl
      | cons c base =>
        refine if_neg ?_
        simp

/-- Where a path comes to stand that is appended to a text: at the end of the fragment, if there is
one, else of the query, else of the path. -/
inductive CutAppended (base : List Char) : Prop
  | fragment (mark : '#' ∈ base) (front : List Char) (query : Option (List Char)) (back : List Char)
    (eq : ∀ cs, Plain cs → cutTail (base ++ cs) = (front, query, some (back ++ cs)))
  | query (mark : '?' ∈ base) (front back : List Char)
    (eq : ∀ cs, Plain cs → cutTail (base ++ cs) = (front, some (back ++ cs), none))
  | path (eq : ∀ cs, Plain cs → cutTail (base ++ cs) = (base ++ cs, none, none))

theorem cutTail_append (base : List Char) : CutAppended base := by
  have hplain : ∀ {cs}, Plain cs → '#' ∉ cs ∧ '?' ∉ cs := fun h =>
    ⟨fun hm => (h _ hm).2.1 rfl, fun hm => (h _ hm).2.2 rfl⟩
  by_cases hfragment : '#' ∈ base
  · obtain ⟨front, back, rfl, hfront⟩ := List.eq_append_cons_of_mem hfragment
    refine .fragment hfragment (cutTail front).1 (cutTail front).2.1 back fun cs _ => ?_
    rw [List.append_assoc, List.cons_append, cutTail, cutTail, Text.cutFirst_append hfront,
      Text.cutFirst_eq_none hfront]
    dsimp only
    cases Text.cutFirst '?' front <;> rfl
  · have hcut : ∀ cs, Plain cs → Text.cutFirst '#' (base ++ cs) = none := fun cs hcs =>
      Text.cutFirst_eq_none fun hm => (List.mem_append.1 hm).elim hfragment (hplain hcs).1
    by_cases hquery : '?' ∈ base
    · obtain ⟨front, back, rfl, hfront⟩ := List.eq_append_cons_of_mem hquery
      refine .query hquery front back fun cs hcs => ?_
      rw [cutTail, hcut cs hcs, List.append_assoc, List.cons_append]
      dsimp only
      rw [Text.cutFirst_append hfront]
    · refine .path fun cs hcs => ?_
      rw [cutTail, hcut cs hcs]
      dsimp only
      rw [Text.cutFirst_eq_none fun hm => (List.mem_append.1 hm).elim hquery (hplain hcs).2]

theorem authorityText_append (special : Bool) {front : List Char} (long : 2 ≤ front.length)
    (name : ∃ c ∈ front, (c == '/' || c == '\\') = false) (cs : List Char) :
    authorityText special (front ++ '/' :: cs) = authorityText special front := by
  have hstop : ∀ special, (!endsAuthority special '/') = false := fun _ => rfl
  cases special with
  | true =>
    obtain ⟨c, hc, hname⟩ := name
    obtain ⟨before, behind, rfl⟩ := List.append_of_mem hc
    simp only [authorityText, List.append_assoc, List.cons_append,
      Text.dropWhile_append_cons (p := fun c => c == '/' || c == '\\') hname]
    rw [← List.cons_append, ← List.append_assoc,
      Text.takeWhile_append_cons (p := fun c => !endsAuthority true c) (hstop true)]
  | false =>
    obtain ⟨c, d, front, rfl⟩ : ∃ c d ds, front = c :: d :: ds := by
      match front with
      | c :: d :: ds => exact ⟨c, d, ds, rfl⟩
    by_cases hslashes : c = '/' ∧ d = '/'
    · obtain ⟨rfl, rfl⟩ := hslashes
      simp only [List.cons_append, authorityText,
        Text.takeWhile_append_cons (p := fun c => !endsAuthority false c) (hstop false)]
    · rw [authorityText_eq_none, authorityText_eq_none]
      · rintro ds ⟨⟩
        exact hslashes ⟨rfl, rfl⟩
      · rintro ds ⟨⟩
        exact hslashes ⟨rfl, rfl⟩

theorem exists_opening (base : List Char) : ∃ o, ∀ cs, Plain cs →
    opening (base ++ '/' :: ("restconf".toList ++ '/' :: cs)) = o := by
  have hplain : ∀ {cs}, Plain cs → Plain ('/' :: ("restconf".toList ++ '/' :: cs)) := by
    intro cs hcs
    have hname : Plain "/restconf/".toList := plain_of_all (by decide)
    exact hname.append hcs
  have hcleaned : ∀ {cs}, Plain cs → opening (base ++ '/' :: ("restconf".toList ++ '/' :: cs)) =
      match scheme? ((base.dropWhile isEdge).filter (fun d => !isNoise d) ++
        '/' :: ("restconf".toList ++ '/' :: cs)) with
      | none => .error .relative
      | some (scheme, rest) => opened (String.ofList scheme) (cutTail rest).1 := by
    intro cs hcs
    rw [opening, cleaned_append base (hplain hcs)]
  rcases scheme?_append ((base.dropWhile isEdge).filter fun d => !isNoise d) with
    ⟨scheme, rest, -, hscheme⟩ | hscheme
  · cases cutTail_append rest with
    | fragment _ front _ _ heq | query _ front _ heq =>
      refine ⟨opened (String.ofList scheme) front, fun cs hcs => ?_⟩
      rw [hcleaned hcs, hscheme]
      dsimp only
      rw [heq _ (hplain hcs)]
    | path heq =>
      refine ⟨opened (String.ofList scheme) (rest ++ '/' :: "restconf".toList), fun cs hcs => ?_⟩
      have hname : ∃ c ∈ rest ++ '/' :: "restconf".toList, (c == '/' || c == '\\') = false :=
        ⟨'r', by simp, by decide⟩
      rw [hcleaned hcs, hscheme]
      dsimp only
      rw [heq _ (hplain hcs), ← List.cons_append, ← List.append_assoc, opened,
        authorityText_append _ (by simp) hname, opened]
  · refine ⟨.error .relative, fun cs hcs => ?_⟩
    rw [hcleaned hcs, hscheme]

end EidMap.Url

namespace EidMap.Rpc.Client

theorem resourceUrl_eq (c : Client) (datastore resource : String) :
    c.resourceUrl datastore resource =
      (Url.readChars (Text.dropTrailing '/' c.base.text.toList ++ '/' :: ("restconf".toList ++
        '/' :: (datastore.toList ++ '/' :: resource.toList)))).mapError .invalidUrl := by
  have htext : (String.ofList (Text.dropTrailing '/' c.base.text.toList) ++ "/restconf/" ++
      datastore ++ "/" ++ resource).toList = Text.dropTrailing '/' c.base.text.toList ++
        '/' :: ("restconf".toList ++ '/' :: (datastore.toList ++ '/' :: resource.toList)) := by
    simp
  rw [resourceUrl, Url.read, htext]
  cases Url.readChars _ <;> rfl

theorem exists_resourceUrl (c : Client) : ∃ o, ∀ datastore resource : String,
    Url.Plain (datastore.toList ++ '/' :: resource.toList) →
      (c.resourceUrl datastore resource).map (fun u => (u.scheme, u.authority)) = o := by
  obtain ⟨o, ho⟩ := Url.exists_opening (Text.dropTrailing '/' c.base.text.toList)
  refine ⟨o.mapError .invalidUrl, fun datastore resource plain => ?_⟩
  have hread := Url.map_readChars (Text.dropTrailing '/' c.base.text.toList ++
    '/' :: ("restconf".toList ++ '/' :: (datastore.toList ++ '/' :: resource.toList)))
  rw [ho _ plain] at hread
  rw [resourceUrl_eq, ← hread]
  cases Url.readChars _ <;> rfl

theorem operationUrl_of_databaseUrl {c : Client} {u : Url} (h : c.databaseUrl = .ok u)
    (op : Operation) :
    ∃ v, c.operationUrl op = .ok v ∧ v.scheme = u.scheme ∧ v.authority = u.authority := by
  obtain ⟨o, ho⟩ := c.exists_resourceUrl
  have hdatabase := ho "config" "odl-mappingservice:mapping-database"
    (Url.plain_of_all (by decide))
  have hoperation := ho "operations" ("odl-mappingservice:" ++ op.name)
    (Url.plain_of_all (by cases op <;> decide))
  rw [← databaseUrl, h] at hdatabase
  rw [← operationUrl, ← hdatabase] at hoperation
  obtain ⟨v, hv, hplace⟩ := Json.map_eq_ok.1 hoperation
  exact ⟨v, hv, Prod.mk.inj hplace⟩

end EidMap.Rpc.Client
