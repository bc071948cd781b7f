import EidMap.Json.Parts
import Mathlib.Data.List.Induction

/-!
# Fields in ascending order

Sorting the fields of an object keeps, under every name, the value that came last. An object whose
fields ascend is left alone by it, so a value out of a text, which has this form at every level, is
its own ordered form.
-/

namespace EidMap.Json

theorem lookup_insertField (n name : String) (v : Json) (fs : List (String × Json)) :
    lookup n (insertField name v fs) = if n = name then some v else lookup n fs := by
  induction fs with
  | nil => grind [insertField, lookup]
  | cons f fs ih =>
    obtain ⟨k, w⟩ := f
    rw [insertField]
    split_ifs with hlt heq hn hn hn <;> simp only [lookup] <;> grind

theorem lookup_append (n : String) (fs gs : List (String × Json)) :
    lookup n (fs ++ gs) = (lookup n fs).or (lookup n gs) := by
  induction fs with
  | nil => rfl
  | cons f fs ih =>
    obtain ⟨k, v⟩ := f
    rw [List.cons_append, lookup, lookup]
    split
    · rfl
    · exact ih

theorem lookup_eq_none_iff {n : String} {fs : List (String × Json)} :
    lookup n fs = none ↔ n ∉ fs.map Prod.fst := by
  induction fs with
  | nil => simp [lookup]
  | cons f fs ih =>
    obtain ⟨k, v⟩ := f
    by_cases hk : k = n
    · simp [lookup, hk]
    · simp [lookup, hk, ih, Ne.symm hk]

theorem exists_lookup {n : String} {fs : List (String × Json)} (h : n ∈ fs.map Prod.fst) :
    ∃ v, lookup n fs = some v :=
  Option.ne_none_iff_exists'.1 fun hno => lookup_eq_none_iff.1 hno h

theorem lookup_map (n : String) (g : String → Json → Json) (fs : List (String × Json)) :
    lookup n (fs.map fun f => (f.1, g f.1 f.2)) = (lookup n fs).map (g n) := by
  induction fs with
  | nil => rfl
  | cons f fs ih =>
    obtain ⟨k, v⟩ := f
    rw [List.map_cons, lookup, lookup, ih]
    split
    · rename_i hk
      rw [← hk]
      rfl
    · rfl

def Ascending (fs : List (String × Json)) : Prop := fs.Pairwise fun a b => a.1 < b.1

theorem mem_insertField {name : String} {v : Json} {fs : List (String × Json)}
    {f : String × Json} (h : f ∈ insertField name v fs) : f = (name, v) ∨ f ∈ fs := by
  induction fs with
  | nil => exact .inl (List.mem_singleton.1 h)
  | cons g fs ih =>
    obtain ⟨k, w⟩ := g
    simp only [insertField] at h
    split_ifs at h
    · exact List.mem_cons.1 h
    · exact (List.mem_cons.1 h).imp_right (List.mem_cons_of_mem _)
    · rcases List.mem_cons.1 h with rfl | h
      · exact .inr List.mem_cons_self
      · exact (ih h).imp_right (List.mem_cons_of_mem _)

theorem Ascending.insertField {fs : List (String × Json)} (h : Ascending fs) (name : String)
    (v : Json) : Ascending (insertField name v fs) := by
  induction fs with
  | nil => exact List.pairwise_singleton _ _
  | cons g fs ih =>
    obtain ⟨k, w⟩ := g
    obtain ⟨hk, hfs⟩ := List.pairwise_cons.1 h
    simp only [Json.insertField]
    split_ifs with hlt heq
    · refine List.pairwise_cons.2 ⟨fun f hf => ?_, h⟩
      rcases List.mem_cons.1 hf with rfl | hf
      · exact hlt
      · exact String.lt_trans hlt (hk f hf)
    · subst heq
      exact List.pairwise_cons.2 ⟨hk, hfs⟩
    · refine List.pairwise_cons.2 ⟨fun f hf => ?_, ih hfs⟩
      rcases mem_insertField hf with rfl | hf
      · refine Decidable.of_not_not fun hkn => heq ?_
        exact String.le_antisymm (String.not_lt.1 hkn) (String.not_lt.1 hlt)
      · exact hk f hf

theorem sortFields_snoc (fs : List (String × Json)) (name : String) (v : Json) :
    sortFields (fs ++ [(name, v)]) = insertField name v (sortFields fs) := by
  rw [sortFields, List.foldl_append]
  rfl

theorem ascending_sortFields (fs : List (String × Json)) : Ascending (sortFields fs) := by
  induction fs using List.reverseRecOn with
  | nil => exact List.Pairwise.nil
  | append_singleton fs f ih =>
    rw [sortFields_snoc]
    exact ih.insertField f.1 f.2

theorem mem_of_mem_sortFields {fs : List (String × Json)} {f : String × Json}
    (h : f ∈ sortFields fs) : f ∈ fs := by
  induction fs using List.reverseRecOn with
  | nil => exact h
  | append_singleton fs g ih =>
    rw [sortFields_snoc] at h
    rcases mem_insertField h with rfl | h
    · exact List.mem_append_right _ (List.mem_singleton_self _)
    · exact List.mem_append_left _ (ih h)

theorem insertField_of_greatest {name : String} {v : Json} {fs : List (String × Json)}
    (h : ∀ f ∈ fs, f.1 < name) : insertField name v fs = fs ++ [(name, v)] := by
  induction fs with
  | nil => rfl
  | cons g fs ih =>
    obtain ⟨k, w⟩ := g
    have hk : k < name := h (k, w) List.mem_cons_self
    rw [insertField, if_neg (String.lt_asymm hk),
      if_neg (String.ne_of_lt hk).symm,
      ih fun f hf => h f (List.mem_cons_of_mem _ hf), List.cons_append]

theorem Ascending.sortFields_eq {fs : List (String × Json)} (h : Ascending fs) :
    sortFields fs = fs := by
  induction fs using List.reverseRecOn with
  | nil => rfl
  | append_singleton fs f ih =>
    obtain ⟨hfs, -, hlast⟩ := List.pairwise_append.1 h
    rw [sortFields_snoc, ih hfs]
    exact insertField_of_greatest fun g hg => hlast g hg f (List.mem_singleton_self _)

def last? (name : String) (fs : List (String × Json)) : Option Json := lookup name fs.reverse

@[simp]
theorem last?_nil (n : String) : last? n [] = none := rfl

@[simp]
theorem last?_append (n : String) (fs gs : List (String × Json)) :
    last? n (fs ++ gs) = (last? n gs).or (last? n fs) := by
  rw [last?, List.reverse_append, lookup_append, last?, last?]

@[simp]
theorem last?_cons (n k : String) (v : Json) (fs : List (String × Json)) :
    last? n ((k, v) :: fs) = (last? n fs).or (if k = n then some v else none) :=
  last?_append n [(k, v)] fs

theorem last?_eq_none_iff {n : String} {fs : List (String × Json)} :
    last? n fs = none ↔ n ∉ fs.map Prod.fst := by
  rw [last?, lookup_eq_none_iff, List.map_reverse, List.mem_reverse]

theorem mem_of_last? {n : String} {v : Json} {fs : List (String × Json)} (h : last? n fs = some v) :
    (n, v) ∈ fs :=
  List.mem_reverse.1 (mem_of_lookup h)

theorem last?_map (n : String) (g : String → Json → Json) (fs : List (String × Json)) :
    last? n (fs.map fun f => (f.1, g f.1 f.2)) = (last? n fs).map (g n) := by
  rw [last?, ← List.map_reverse, lookup_map, last?]

theorem lookup_sortFields_eq (n : String) (fs : List (String × Json)) :
    lookup n (sortFields fs) = last? n fs := by
  induction fs using List.reverseRecOn with
  | nil => rfl
  | append_singleton fs f ih =>
    obtain ⟨k, v⟩ := f
    rw [sortFields_snoc, lookup_insertField, ih, last?_append]
    by_cases hk : n = k
    · simp [hk]
    · simp [hk, Ne.symm hk]

theorem lookup_sortFields {n : String} {v : Json} (pre : List (String × Json))
    {post : List (String × Json)} (h : n ∉ post.map Prod.fst) :
    lookup n (sortFields (pre ++ (n, v) :: post)) = some v := by
  rw [lookup_sortFields_eq, last?_append, last?_cons, last?_eq_none_iff.2 h]
  simp

theorem last?_sortFields (n : String) (fs : List (String × Json)) :
    last? n (sortFields fs) = last? n fs := by
  rw [← lookup_sortFields_eq, (ascending_sortFields fs).sortFields_eq, lookup_sortFields_eq]

theorem Ascending.ext {fs gs : List (String × Json)} (hf : Ascending fs) (hg : Ascending gs)
    (h : ∀ n, lookup n fs = lookup n gs) : fs = gs := by
  induction fs generalizing gs with
  | nil =>
    cases gs with
    | nil => rfl
    | cons g gs => simpa [lookup] using h g.1
  | cons f fs ih =>
    obtain ⟨k, v⟩ := f
    obtain ⟨hk, hfs⟩ := List.pairwise_cons.1 hf
    cases gs with
    | nil => simpa [lookup] using h k
    | cons g gs =>
      obtain ⟨l, w⟩ := g
      obtain ⟨hl, hgs⟩ := List.pairwise_cons.1 hg
      have absent : ∀ {n m : String} {rest : List (String × Json)}, n ≤ m →
          (∀ f ∈ rest, m < f.1) → lookup n rest = none := by
        intro n m rest hnm hrest
        rw [lookup_eq_none_iff]
        intro hn
        obtain ⟨f, hf, rfl⟩ := List.mem_map.1 hn
        exact absurd (hrest f hf) (String.not_lt.2 hnm)
      have hkl : k = l := by
        by_contra hne
        have hlk : ¬ k ≤ l := by
          intro hle
          simpa [lookup, Ne.symm hne, absent hle hl] using h k
        have hkl : ¬ l ≤ k := by
          intro hle
          simpa [lookup, hne, absent hle hk] using h l
        exact String.lt_asymm (String.not_le.1 hlk) (String.not_le.1 hkl)
      subst hkl
      have hvw : v = w := by simpa [lookup] using h k
      subst hvw
      have htail : fs = gs := by
        apply ih hfs hgs
        intro n
        by_cases hn : k = n
        · subst hn
          rw [absent (String.le_refl k) hk, absent (String.le_refl k) hl]
        · simpa [lookup, hn] using h n
      rw [htail]

@[simp]
theorem ordered_ofNat (n : Nat) : (ofNat n).ordered = ofNat n := rfl

@[simp]
theorem ordered_string (s : String) : (Json.string s).ordered = .string s := rfl

theorem orderedItems_eq (xs : List Json) : orderedItems xs = xs.map ordered := by
  induction xs with
  | nil => rfl
  | cons x xs ih => rw [orderedItems, ih, List.map_cons]

theorem orderedFields_eq (fs : List (String × Json)) :
    orderedFields fs = fs.map fun f => (f.1, f.2.ordered) := by
  induction fs with
  | nil => rfl
  | cons f fs ih => rw [orderedFields, ih, List.map_cons]

theorem ordered_ofFields {fs : List (String × Json)} (h : ∀ f ∈ fs, f.2.ordered = f.2) :
    (ofFields fs).ordered = ofFields fs := by
  have hsame : (sortFields fs).map (fun f => (f.1, f.2.ordered)) = sortFields fs := by
    refine (List.map_congr_left fun f hf => ?_).trans (List.map_id' _)
    rw [h f (mem_of_mem_sortFields hf)]
  have hsorted : (ofFields fs).ordered = ofFields (orderedFields (sortFields fs)) := rfl
  rw [hsorted, orderedFields_eq, hsame, ofFields, (ascending_sortFields fs).sortFields_eq]
  rfl

mutual
theorem ordered_ordered : ∀ v : Json, v.ordered.ordered = v.ordered
  | .null | .bool _ | .number _ | .string _ => rfl
  | .array xs => by
    rw [ordered, ordered, orderedItems_eq (orderedItems xs),
      List.map_congr_left (ordered_of_mem_orderedItems xs), List.map_id']
  | .object fs => ordered_ofFields (ordered_of_mem_orderedFields fs)

theorem ordered_of_mem_orderedItems : ∀ xs : List Json, ∀ x ∈ orderedItems xs, x.ordered = x
  | [] => List.forall_mem_nil _
  | x :: xs => List.forall_mem_cons.2 ⟨ordered_ordered x, ordered_of_mem_orderedItems xs⟩

theorem ordered_of_mem_orderedFields :
    ∀ fs : List (String × Json), ∀ f ∈ orderedFields fs, f.2.ordered = f.2
  | [] => List.forall_mem_nil _
  | f :: fs => List.forall_mem_cons.2 ⟨ordered_ordered f.2, ordered_of_mem_orderedFields fs⟩
end

theorem ordered_of_mem_parts {v x : Json} (h : v.ordered = v) (hx : x ∈ v.parts) :
    x.ordered = x := by
  rw [← h] at hx
  cases v with
  | array xs => exact ordered_of_mem_orderedItems xs x hx
  | object fs =>
    obtain ⟨f, hf, rfl⟩ := List.mem_map.1 hx
    exact ordered_of_mem_orderedFields fs f (mem_of_mem_sortFields hf)
  | _ => cases hx

theorem ordered_array_eq {xs : List Json} (h : ∀ x ∈ xs, x.ordered = x) :
    (Json.array xs).ordered = .array xs := by
  rw [ordered, orderedItems_eq, List.map_congr_left h, List.map_id']

theorem ordered_object_eq {fs : List (String × Json)} (names : List String)
    (named : fs.map Prod.fst = names) (ascending : names.Pairwise (· < ·))
    (h : ∀ f ∈ fs, f.2.ordered = f.2) : (Json.object fs).ordered = .object fs := by
  have hfields : orderedFields fs = fs := by
    rw [orderedFields_eq]
    exact (List.map_congr_left fun f hf => by rw [h f hf]).trans (List.map_id' _)
  have hsorted : sortFields fs = fs :=
    Ascending.sortFields_eq (List.pairwise_map.1 (named ▸ ascending))
  rw [ordered, hfields, ofFields, hsorted]

theorem field?_ordered {n : String} {v : Json} (pre : List (String × Json))
    {post : List (String × Json)} (h : n ∉ post.map Prod.fst) :
    (Json.object (pre ++ (n, v) :: post)).ordered.field? n = some v.ordered := by
  have hkeys : n ∉ (post.map fun f => (f.1, f.2.ordered)).map Prod.fst := by
    rwa [List.map_map]
  have hlookup := lookup_sortFields (v := v.ordered) (pre.map fun f => (f.1, f.2.ordered)) hkeys
  have hfields : orderedFields (pre ++ (n, v) :: post) =
      (pre.map fun f => (f.1, f.2.ordered)) ++
        (n, v.ordered) :: post.map fun f => (f.1, f.2.ordered) := by
    rw [orderedFields_eq, List.map_append, List.map_cons]
  rw [← hfields] at hlookup
  exact hlookup

theorem ordered_object_eq_iff {fs gs : List (String × Json)} :
    (Json.object fs).ordered = (Json.object gs).ordered ↔
      ∀ n, (last? n fs).map ordered = (last? n gs).map ordered := by
  have hlook : ∀ n (fs : List (String × Json)),
      lookup n (sortFields (orderedFields fs)) = (last? n fs).map ordered := by
    intro n fs
    rw [lookup_sortFields_eq, orderedFields_eq, last?_map n fun _ => ordered]
  rw [ordered, ordered, ofFields, ofFields, Json.object.injEq]
  constructor
  · intro h n
    rw [← hlook, h, hlook]
  · intro h
    apply (ascending_sortFields _).ext (ascending_sortFields _)
    intro n
    rw [hlook, hlook, h]

mutual
theorem ordered_of_capture : ∀ {d : Doc} {v : Json}, d.capture = .ok v → v.ordered = v
  | .null, v, h => by cases h; rfl
  | .bool b, v, h => by cases h; rfl
  | .number n, v, h => by cases h; rfl
  | .string s, v, h => by cases h; rfl
  | .array depth ds close, v, h => by
    simp only [Doc.capture] at h
    split_ifs at h
    split at h <;> cases h
    rename_i hxs
    have hitems := ordered_of_captureItems hxs
    rw [ordered, orderedItems_eq, List.map_congr_left hitems, List.map_id']
  | .object depth fs close, v, h => by
    simp only [Doc.capture] at h
    split_ifs at h
    split at h <;> cases h
    rename_i hxs
    exact ordered_ofFields (ordered_of_captureFields hxs)
  | .faulty f skip, v, h => by cases h

theorem ordered_of_captureItems : ∀ {ds : List Doc} {vs : List Json},
    Doc.captureItems ds = .ok vs → ∀ v ∈ vs, v.ordered = v
  | [], vs, h => by cases h; nofun
  | d :: ds, vs, h => by
    simp only [Doc.captureItems] at h
    split at h
    · cases h
    · rename_i x hx
      obtain ⟨xs, hxs, rfl⟩ := map_eq_ok.1 h
      exact List.forall_mem_cons.2 ⟨ordered_of_capture hx, ordered_of_captureItems hxs⟩

theorem ordered_of_captureFields : ∀ {fs : List (Except Fault String × Doc)}
    {out : List (String × Json)}, Doc.captureFields fs = .ok out → ∀ f ∈ out, f.2.ordered = f.2
  | [], out, h => by cases h; nofun
  | (key, d) :: fs, out, h => by
    simp only [Doc.captureFields] at h
    split at h
    · cases h
    · split at h
      · cases h
      · rename_i x hx
        obtain ⟨xs, hxs, rfl⟩ := map_eq_ok.1 h
        exact List.forall_mem_cons.2 ⟨ordered_of_capture hx, ordered_of_captureFields hxs⟩
end

end EidMap.Json
