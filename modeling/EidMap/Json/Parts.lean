import EidMap.Json.Decode

/-!
What a decoder takes out of a value is a part of that value, so smaller than it. Decoders of nested
formats end by this.
-/

namespace EidMap.Json

def parts : Json → List Json
  | .array xs => xs
  | .object fs => fs.map Prod.snd
  | _ => []

theorem sizeOf_lt_of_mem_parts {x v : Json} (h : x ∈ v.parts) : sizeOf x < sizeOf v := by
  cases v with
  | array xs =>
    have := List.sizeOf_lt_of_mem (show x ∈ xs from h)
    simp only [Json.array.sizeOf_spec]
    omega
  | object fs =>
    obtain ⟨⟨k, y⟩, hy, rfl⟩ := List.mem_map.1 h
    have := List.sizeOf_lt_of_mem hy
    simp only [Json.object.sizeOf_spec, Prod.mk.sizeOf_spec] at *
    omega
  | _ => simp [parts] at h

theorem mem_of_lookup {name : String} {fs : List (String × Json)} {x : Json}
    (h : lookup name fs = some x) : (name, x) ∈ fs := by
  induction fs with
  | nil => simp [lookup] at h
  | cons f fs ih =>
    obtain ⟨k, v⟩ := f
    simp only [lookup] at h
    split at h
    · simp_all
    · exact List.mem_cons_of_mem _ (ih h)

theorem sizeOf_lookup_lt {name : String} {fs : List (String × Json)} {x : Json}
    (h : lookup name fs = some x) : sizeOf x < sizeOf (Json.object fs) :=
  sizeOf_lt_of_mem_parts (List.mem_map.2 ⟨_, mem_of_lookup h, rfl⟩)

theorem bind_eq_ok {ε α β : Type} {x : Except ε α} {f : α → Except ε β} {b : β} :
    (x >>= f) = .ok b ↔ ∃ a, x = .ok a ∧ f a = .ok b := by
  cases x <;> simp [bind, Except.bind]

theorem map_eq_ok {ε α β : Type} {x : Except ε α} {f : α → β} {b : β} :
    x.map f = .ok b ↔ ∃ a, x = .ok a ∧ f a = b := by
  cases x <;> simp [Except.map]

@[simp]
theorem value_eq_ok {x y : Json} : value x = .ok y ↔ x = y := by
  simp [value, Source.capture]

@[simp]
theorem layer_eq (v : Json) : Source.layer v = valueLayer v := rfl

namespace Parts

def members : Parts Json → List Json
  | .named fs => fs.map Prod.snd
  | .placed _ _ ds _ => ds

theorem mem_of_find? {name : String} {aliases : List String} {fs : List (String × Json)}
    {x : Json} (h : find? name aliases fs = some x) : x ∈ fs.map Prod.snd := by
  induction fs with
  | nil => simp [find?] at h
  | cons f fs ih =>
    obtain ⟨k, v⟩ := f
    simp only [find?] at h
    split at h
    · simp_all
    · exact List.mem_cons_of_mem _ (ih h)

theorem exists_of_get {α : Type} {p : Parts Json} {f : Field Json α} {a : α}
    (absent : f.absent = none) (h : p.get f = .ok a) : ∃ d ∈ p.members, f.read d = .ok a := by
  cases p with
  | named fs =>
    simp only [get, absent] at h
    split at h
    · rename_i hd
      exact ⟨_, mem_of_find? hd, h⟩
    all_goals simp_all
  | placed record names ds fault =>
    simp only [get, absent, ite_self] at h
    split at h
    · rename_i hd
      exact ⟨_, List.mem_of_getElem? hd, Decoded.inside_eq_ok.1 h⟩
    all_goals simp_all

theorem get_defaulted {α : Type} {p : Parts Json} {name : String} {read : Json → Decoded α}
    {aliases : List String} {a b : α} (h : p.get (defaulted name read b aliases) = .ok a) :
    a = b ∨ ∃ d ∈ p.members, read d = .ok a := by
  cases p with
  | named fs =>
    simp only [get, defaulted] at h
    split at h
    · rename_i hd
      exact .inr ⟨_, mem_of_find? hd, h⟩
    all_goals simp_all
  | placed record names ds fault =>
    simp only [get, defaulted, if_true] at h
    split at h
    · rename_i hd
      exact .inr ⟨_, List.mem_of_getElem? hd, Decoded.inside_eq_ok.1 h⟩
    all_goals simp_all

theorem mem_of_get_value {p : Parts Json} {name : String} {aliases : List String} {x : Json}
    (h : p.get (required name value aliases) = .ok x) : x ∈ p.members := by
  obtain ⟨d, hd, hx⟩ := exists_of_get rfl h
  simp only [required, value_eq_ok] at hx
  exact hx ▸ hd

end Parts

theorem walk_cons_eq_ok {δ : Type} {guards : List (Guard δ)} {other : δ → Decoded Unit}
    {seen : List String} {key : String} {d : δ} {fs : List (Except Fault String × δ)}
    {out : List (String × δ)} (h : walk guards other seen ((.ok key, d) :: fs) = .ok out) :
    ∃ seen' rest, walk guards other seen' fs = .ok rest ∧ out = (key, d) :: rest ∧
      (guards.find? (·.answers key) = none ∧ other d = .ok () ∧ seen' = seen ∨
        ∃ g, guards.find? (·.answers key) = some g ∧ g.name ∉ seen ∧ g.check d = .ok () ∧
          seen' = g.name :: seen) := by
  rw [walk] at h
  cases hfind : guards.find? (·.answers key) with
  | none =>
    rw [hfind] at h
    obtain ⟨_, hd, h⟩ := bind_eq_ok.1 h
    obtain ⟨rest, hrest, h⟩ := bind_eq_ok.1 h
    cases h
    exact ⟨seen, rest, Decoded.later_eq_ok.1 hrest, rfl,
      .inl ⟨rfl, Decoded.inside_eq_ok.1 hd, rfl⟩⟩
  | some g =>
    rw [hfind] at h
    dsimp only at h
    cases hseen : seen.contains g.name with
    | true =>
      rw [hseen, if_pos rfl] at h
      cases h
    | false =>
      rw [hseen, if_neg Bool.false_ne_true] at h
      obtain ⟨_, hd, h⟩ := bind_eq_ok.1 h
      obtain ⟨rest, hrest, h⟩ := bind_eq_ok.1 h
      cases h
      exact ⟨g.name :: seen, rest, Decoded.later_eq_ok.1 hrest, rfl,
        .inr ⟨g, rfl, by simpa using hseen, Decoded.inside_eq_ok.1 hd, rfl⟩⟩

theorem values_of_walk {guards : List (Guard Json)} {other : Json → Decoded Unit}
    {seen : List String} {fs : List (String × Json)} {out : List (String × Json)}
    (h : walk guards other seen (fs.map fun (k, v) => (.ok k, v)) = .ok out) : out = fs := by
  induction fs generalizing seen out with
  | nil => simpa [walk] using h.symm
  | cons f fs ih =>
    obtain ⟨_, rest, hrest, rfl, -⟩ := walk_cons_eq_ok h
    rw [ih hrest]

theorem exists_parts_of_record {α : Type} {kind : String} {guards : List (Guard Json)}
    {build : Parts Json → Decoded α} {v : Json} {a : α} (h : record kind guards build v = .ok a) :
    ∃ p : Parts Json, p.members = v.parts ∧ build p = .ok a := by
  cases v with
  | object fs =>
    simp only [record, layer_eq, valueLayer] at h
    obtain ⟨out, hw, h⟩ := bind_eq_ok.1 h
    obtain ⟨_, _, h⟩ := bind_eq_ok.1 h
    exact ⟨.named out, by rw [values_of_walk hw]; rfl, h⟩
  | array ds =>
    simp only [record, layer_eq, valueLayer] at h
    obtain ⟨b, hb, h⟩ := bind_eq_ok.1 h
    have ha : b = a := by
      simp only [surplus] at h
      split at h
      · split at h <;> cases h
      · cases h
        rfl
    exact ⟨.placed kind (guards.map (·.name)) ds none, rfl, ha ▸ hb⟩
  | _ => simp [record, valueLayer] at h

theorem mem_of_each {α : Type} {read : Json → Decoded α} {ds : List Json} {as : List α}
    (h : each read ds = .ok as) {a : α} (ha : a ∈ as) : ∃ d ∈ ds, read d = .ok a := by
  induction ds generalizing as with
  | nil => cases h; cases ha
  | cons d ds ih =>
    simp only [each] at h
    obtain ⟨b, hb, h⟩ := bind_eq_ok.1 h
    obtain ⟨bs, hbs, h⟩ := bind_eq_ok.1 h
    cases h
    rcases List.mem_cons.1 ha with rfl | ha
    · exact ⟨d, by simp, Decoded.inside_eq_ok.1 hb⟩
    · obtain ⟨e, he, hr⟩ := ih (Decoded.later_eq_ok.1 hbs) ha
      exact ⟨e, List.mem_cons_of_mem _ he, hr⟩

theorem mem_of_list {α : Type} {read : Json → Decoded α} {v : Json} {as : List α}
    (h : list read v = .ok as) {a : α} (ha : a ∈ as) : ∃ d ∈ v.parts, read d = .ok a := by
  cases v with
  | array ds =>
    simp only [list, layer_eq, valueLayer] at h
    obtain ⟨bs, hbs, h⟩ := bind_eq_ok.1 h
    cases h
    exact mem_of_each hbs ha
  | _ => simp [list, valueLayer] at h

end EidMap.Json
