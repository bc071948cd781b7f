import EidMap.Proofs.Json.Member
import EidMap.Proofs.Json.Order

/-!
# Records read from values

A leaf that was read is the value that would be written for it. An object that was read as a record
has every field of the record at most once, under whatever spelling, so that nothing is lost when
its fields are renamed and looked up by their names.
-/

namespace EidMap.Json

variable {α : Type}

@[simp]
theorem ofNat_ne_null (n : Nat) : ofNat n ≠ null := Json.noConfusion

@[simp]
theorem ofInt_ne_null (z : Int) : ofInt z ≠ null := Json.noConfusion

theorem eq_of_integerIn {low high : Int} {expected : String} {v : Json} {z : Int}
    (h : integerIn low high expected v = .ok z) : v = ofInt z ∧ low ≤ z ∧ z ≤ high := by
  cases v with
  | number n =>
    cases n with
    | integer w =>
      simp only [integerIn, layer_eq, valueLayer] at h
      split at h
      · rename_i hrange
        cases h
        simp only [Bool.and_eq_true, decide_eq_true_eq] at hrange
        exact ⟨rfl, hrange⟩
      · cases h
    | real r => cases h
  | _ => cases h

theorem eq_of_wordIn {size : Nat} {expected : String} {v : Json} {z : Int}
    (h : integerIn 0 (size - 1) expected v = .ok z) : z.toNat < size ∧ v = ofNat z.toNat := by
  obtain ⟨rfl, hlow, hhigh⟩ := eq_of_integerIn h
  refine ⟨by omega, ?_⟩
  rw [ofNat, ofInt, Int.toNat_of_nonneg hlow]

theorem eq_of_uint8 {v : Json} {n : UInt8} (h : uint8 v = .ok n) : v = ofNat n.toNat := by
  obtain ⟨z, hz, rfl⟩ := map_eq_ok.1 h
  obtain ⟨hsize, hv⟩ := eq_of_wordIn hz
  rwa [UInt8.toNat_ofNat_of_lt' hsize]

theorem eq_of_uint16 {v : Json} {n : UInt16} (h : uint16 v = .ok n) : v = ofNat n.toNat := by
  obtain ⟨z, hz, rfl⟩ := map_eq_ok.1 h
  obtain ⟨hsize, hv⟩ := eq_of_wordIn hz
  rwa [UInt16.toNat_ofNat_of_lt' hsize]

theorem eq_of_uint32 {v : Json} {n : UInt32} (h : uint32 v = .ok n) : v = ofNat n.toNat := by
  obtain ⟨z, hz, rfl⟩ := map_eq_ok.1 h
  obtain ⟨hsize, hv⟩ := eq_of_wordIn hz
  rwa [UInt32.toNat_ofNat_of_lt' hsize]

theorem eq_of_int16 {v : Json} {z : Int} (h : int16 v = .ok z) : v = ofInt z := (eq_of_integerIn h).1

theorem eq_of_int64 {v : Json} {z : Int} (h : int64 v = .ok z) : v = ofInt z := (eq_of_integerIn h).1

theorem eq_of_text {v : Json} {s : String} (h : text v = .ok s) : v = .string s := by
  cases v with
  | string t =>
    cases h
    rfl
  | _ => cases h

theorem eq_of_boolean {v : Json} {b : Bool} (h : boolean v = .ok b) : v = .bool b := by
  cases v with
  | bool c =>
    cases h
    rfl
  | _ => cases h

section
variable {δ : Type} [Source δ] {d : δ} {z : Int}

theorem int16_ofInt_of_int16 (h : int16 d = .ok z) : int16 (ofInt z) = .ok z := by
  have hrange : -(Number.twoPow 15 : Int) ≤ z ∧ z ≤ Number.twoPow 15 - 1 := by
    rw [int16, integerIn] at h
    split at h
    · split at h
      · rename_i hrange
        cases h
        rwa [Bool.and_eq_true, decide_eq_true_eq, decide_eq_true_eq] at hrange
      · cases h
    · cases h
  simp only [int16, integerIn, layer_eq, ofInt, valueLayer, hrange, decide_true, Bool.and_self,
    if_true]

theorem eq_ok_of_option {α : Type} {read : δ → Decoded α} {a : α}
    (h : option read d = .ok (some a)) : read d = .ok a := by
  unfold option at h
  split at h
  · cases h
  · cases h
  · obtain ⟨b, hb, hba⟩ := map_eq_ok.1 h
    cases hba
    exact hb

end

def present : Json → Option Json
  | .null => none
  | v => some v

theorem present_of_option {read : Json → Decoded α} {write : α → Json}
    (hread : ∀ {v a}, read v = .ok a → v = write a) {v : Json} {o : Option α}
    (h : option read v = .ok o) : present v = o.map write := by
  cases v with
  | null =>
    cases h
    rfl
  | _ =>
    obtain ⟨a, ha, rfl⟩ := map_eq_ok.1 h
    exact congrArg some (hread ha)

theorem forall₂_of_list_value {read : Json → Decoded α} {v : Json} {as : List α}
    (h : list read v = .ok as) :
    ∃ xs, v = .array xs ∧ List.Forall₂ (fun x a => read x = .ok a) xs as := by
  cases v with
  | array xs =>
    simp only [list, layer_eq, valueLayer] at h
    obtain ⟨bs, hbs, h⟩ := bind_eq_ok.1 h
    cases h
    exact ⟨xs, rfl, forall₂_of_each hbs⟩
  | _ => cases h

section Fields

variable {p : Parts Json} {name : String} {read : Json → Decoded α} {write : α → Json}
  {aliases : List String}

theorem present_of_get_optional (hread : ∀ {v a}, read v = .ok a → v = write a) {o : Option α}
    (h : p.get (optional name read aliases) = .ok o) :
    (p.member? name aliases).bind present = o.map write := by
  rcases Parts.get_eq_ok h with ⟨v, hv, h⟩ | ⟨hv, h⟩
  · rw [show p.member? name aliases = some v from hv]
    exact present_of_option hread h
  · rw [show p.member? name aliases = none from hv]
    cases h
    rfl

theorem getD_of_get_defaulted (hread : ∀ {v a}, read v = .ok a → v = write a) {a b : α}
    (h : p.get (defaulted name read b aliases) = .ok a) :
    (p.member? name aliases).getD (write b) = write a := by
  rcases Parts.get_eq_ok h with ⟨v, hv, h⟩ | ⟨hv, h⟩
  · rw [show p.member? name aliases = some v from hv]
    exact hread h
  · rw [show p.member? name aliases = none from hv]
    cases h
    rfl

theorem member?_of_get_value {x : Json} (h : p.get (required name value aliases) = .ok x) :
    p.member? name aliases = some x := by
  rcases Parts.get_eq_ok h with ⟨v, hv, h⟩ | ⟨-, h⟩
  · cases h
    exact hv
  · cases h

end Fields

/-- Of every spelling of a field, and of no other name, `canon` makes the name of the field. -/
structure Spelling (guards : List (Guard Json)) (canon : String → String) : Prop where
  answers : ∀ g ∈ guards, ∀ k, g.answers k = (canon k == g.name)
  other : ∀ k, canon k = k ∨ canon k ∈ guards.map (·.name)

theorem spelling_of_unaliased {guards : List (Guard Json)} (h : ∀ g ∈ guards, g.aliases = []) :
    Spelling guards fun k => k where
  answers g hg k := by simp [Guard.answers, h g hg]
  other _ := .inl rfl

def renamed (canon : String → String) (fs : List (String × Json)) : List (String × Json) :=
  fs.map fun f => (canon f.1, f.2)

def Single (names : List String) (fs : List (String × Json)) : Prop :=
  ∀ name ∈ names, (fs.map Prod.fst).count name ≤ 1

variable {guards : List (Guard Json)} {canon : String → String}

theorem Spelling.canon_eq (hc : Spelling guards canon) {g : Guard Json} {key : String}
    (h : guards.find? (·.answers key) = some g) : canon key = g.name := by
  have hanswers := List.find?_some h
  rw [hc.answers g (List.mem_of_find?_eq_some h)] at hanswers
  exact eq_of_beq hanswers

theorem count_of_walk (hc : Spelling guards canon) {other : Json → Decoded Unit}
    {seen : List String} {fs out : List (String × Json)}
    (h : walk guards other seen (fs.map fun (k, v) => (.ok k, v)) = .ok out) {name : String}
    (hname : name ∈ guards.map (·.name)) :
    ((renamed canon fs).map Prod.fst).count name ≤ if seen.contains name then 0 else 1 := by
  induction fs generalizing seen out with
  | nil => simp [renamed]
  | cons f fs ih =>
    obtain ⟨k, v⟩ := f
    obtain ⟨_, rest, hrest, -, ⟨hnone, -, rfl⟩ | ⟨g, hsome, hfresh, -, rfl⟩⟩ := walk_cons_eq_ok h
    · have hne : canon k ≠ name := by
        rintro rfl
        obtain ⟨g, hg, hgk⟩ := List.mem_map.1 hname
        have := List.find?_eq_none.1 hnone g hg
        simp [hc.answers g hg, hgk] at this
      rw [renamed, List.map_cons, List.map_cons, List.count_cons_of_ne hne]
      exact ih hrest
    · have hcount := ih hrest
      rw [renamed, List.map_cons, List.map_cons, hc.canon_eq hsome]
      by_cases hn : g.name = name
      · subst hn
        rw [List.count_cons_self, if_neg (by simpa using hfresh)]
        simpa [renamed] using hcount
      · rw [List.count_cons_of_ne hn]
        simpa [renamed, Ne.symm hn] using hcount

theorem find?_eq_lookup {name : String} {aliases : List String}
    (h : ∀ k, (k == name || aliases.contains k) = (canon k == name))
    (fs : List (String × Json)) :
    Parts.find? name aliases fs = lookup name (renamed canon fs) := by
  induction fs with
  | nil => rfl
  | cons f fs ih =>
    obtain ⟨k, v⟩ := f
    rw [Parts.find?, h, ih]
    by_cases hk : canon k = name
    · simp [renamed, lookup, hk]
    · simp [renamed, lookup, hk]

theorem find?_unaliased (name : String) (fs : List (String × Json)) :
    Parts.find? name [] fs = lookup name fs := by
  have h := @find?_eq_lookup (fun k => k) name [] (by simp) fs
  rwa [renamed, List.map_id'] at h

theorem mapM_value (fs : List (String × Json)) :
    (fs.mapM fun (k, d) => return (k, ← value d) : Decoded (List (String × Json))) = .ok fs := by
  induction fs with
  | nil => rfl
  | cons f fs ih =>
    rw [List.mapM_cons, ih]
    rfl

theorem leaves_of_openRecord (hc : Spelling guards canon) {kind : String}
    {build : Parts Json → List (String × Json) → Decoded α} {v : Json} {a : α}
    (h : openRecord kind guards build v = .ok a) :
    ∃ fs, v = .object fs ∧ Single (guards.map (·.name)) (renamed canon fs) ∧
      build (.named fs) (sortFields (fs.filter fun f => !guards.any (·.answers f.1))) = .ok a := by
  cases v with
  | object fs =>
    simp only [openRecord, layer_eq, valueLayer] at h
    obtain ⟨out, hw, h⟩ := bind_eq_ok.1 h
    obtain ⟨_, -, h⟩ := bind_eq_ok.1 h
    obtain ⟨kept, hkept, h⟩ := bind_eq_ok.1 h
    rw [mapM_value] at hkept
    cases hkept
    rw [values_of_walk hw] at h
    exact ⟨fs, rfl, fun name hname => count_of_walk hc hw hname, h⟩
  | _ => cases h

inductive AreParts (guards : List (Guard Json)) (canon : String → String) : Json → Parts Json → Prop
  | named {fs : List (String × Json)} (single : Single (guards.map (·.name)) (renamed canon fs)) :
    AreParts guards canon (.object fs) (.named fs)
  | placed (kind : String) (xs : List Json) :
    AreParts guards canon (.array xs) (.placed kind (guards.map (·.name)) xs none)

theorem areParts_of_record (hc : Spelling guards canon) {kind : String}
    {build : Parts Json → Decoded α} {v : Json} {a : α} (h : record kind guards build v = .ok a) :
    ∃ p, AreParts guards canon v p ∧ build p = .ok a := by
  cases v with
  | object fs =>
    simp only [record, layer_eq, valueLayer] at h
    obtain ⟨out, hw, h⟩ := bind_eq_ok.1 h
    obtain ⟨_, -, h⟩ := bind_eq_ok.1 h
    rw [values_of_walk hw] at h
    exact ⟨.named fs, .named fun name hname => count_of_walk hc hw hname, h⟩
  | array xs =>
    simp only [record, layer_eq, valueLayer] at h
    obtain ⟨b, hb, h⟩ := bind_eq_ok.1 h
    have hba : b = a := by
      simp only [surplus] at h
      split at h
      · split at h <;> cases h
      · cases h
        rfl
    exact ⟨_, .placed kind xs, hba ▸ hb⟩
  | _ => cases h

theorem last?_of_count {n : String} {fs : List (String × Json)}
    (h : (fs.map Prod.fst).count n ≤ 1) : last? n fs = lookup n fs := by
  induction fs with
  | nil => rfl
  | cons f fs ih =>
    obtain ⟨k, v⟩ := f
    rw [List.map_cons] at h
    by_cases hk : k = n
    · rw [hk, List.count_cons_self] at h
      have habsent : n ∉ fs.map Prod.fst := List.count_eq_zero.1 (by omega)
      rw [last?_cons, last?_eq_none_iff.2 habsent, if_pos hk, lookup, if_pos hk]
      rfl
    · rw [List.count_cons_of_ne hk] at h
      rw [last?_cons, lookup, if_neg hk, if_neg hk, ih h, Option.or_none]

theorem lookup_of_mem {n : String} {v : Json} {fs : List (String × Json)}
    (h : (fs.map Prod.fst).count n ≤ 1) (hm : (n, v) ∈ fs) : lookup n fs = some v := by
  induction fs with
  | nil => cases hm
  | cons f fs ih =>
    obtain ⟨k, w⟩ := f
    rw [List.map_cons] at h
    by_cases hk : k = n
    · rw [hk, List.count_cons_self] at h
      have habsent : n ∉ fs.map Prod.fst := List.count_eq_zero.1 (by omega)
      rcases List.mem_cons.1 hm with he | hm
      · cases he
        rw [lookup, if_pos hk]
      · exact absurd (List.mem_map.2 ⟨_, hm, rfl⟩) habsent
    · rw [List.count_cons_of_ne hk] at h
      rw [lookup, if_neg hk]
      rcases List.mem_cons.1 hm with he | hm
      · cases he
        exact absurd rfl hk
      · exact ih h hm

theorem last?_filterMap {n : String} {keep : String → Json → Option Json}
    {fs : List (String × Json)}
    (h : (∀ v, keep n v = some v) ∨ (fs.map Prod.fst).count n ≤ 1) :
    last? n (fs.filterMap fun f => (keep f.1 f.2).map (f.1, ·)) = (last? n fs).bind (keep n) := by
  induction fs with
  | nil => rfl
  | cons f fs ih =>
    obtain ⟨k, v⟩ := f
    have hhead : ∀ gs, last? n (((keep k v).map (k, ·)).toList ++ gs) =
        (last? n gs).or (if k = n then keep n v else none) := by
      intro gs
      by_cases hk : k = n
      · subst hk
        cases hv : keep k v <;> simp
      · cases hv : keep k v <;> simp [hk]
    have hsplit : ((k, v) :: fs).filterMap (fun f => (keep f.1 f.2).map (f.1, ·)) =
        ((keep k v).map (k, ·)).toList ++ fs.filterMap fun f => (keep f.1 f.2).map (f.1, ·) := by
      rw [List.filterMap_cons]
      cases keep k v <;> rfl
    rw [hsplit, hhead, last?_cons]
    by_cases hk : k = n
    · subst hk
      rcases h with h | h
      · rw [ih (.inl h), h, if_pos rfl]
        cases last? k fs <;> simp [h]
      · rw [List.map_cons, List.count_cons_self] at h
        have habsent : k ∉ fs.map Prod.fst := List.count_eq_zero.1 (by omega)
        rw [ih (.inr (by omega)), last?_eq_none_iff.2 habsent]
        simp
    · have hrest : (∀ v, keep n v = some v) ∨ (fs.map Prod.fst).count n ≤ 1 := by
        refine h.imp_right fun h => ?_
        rwa [List.map_cons, List.count_cons_of_ne hk] at h
      rw [ih hrest, if_neg hk, if_neg hk, Option.or_none, Option.or_none]

theorem last?_unknown (hc : Spelling guards canon) (n : String) (fs : List (String × Json)) :
    last? n (fs.filter fun f => !guards.any (·.answers f.1)) =
      if n ∈ guards.map (·.name) then none else last? n (renamed canon fs) := by
  have hknown : ∀ k, guards.any (·.answers k) = true ↔ canon k ∈ guards.map (·.name) := by
    intro k
    rw [List.any_eq_true, List.mem_map]
    refine exists_congr fun g => and_congr_right fun hg => ?_
    rw [hc.answers g hg, beq_iff_eq, eq_comm]
  induction fs with
  | nil => simp [renamed]
  | cons f fs ih =>
    obtain ⟨k, v⟩ := f
    rw [List.filter_cons]
    by_cases hk : canon k ∈ guards.map (·.name)
    · have hne : n ∉ guards.map (·.name) → canon k ≠ n := fun hn he => hn (he ▸ hk)
      simp only [(hknown k).2 hk, Bool.not_true, Bool.false_eq_true, if_false, ih]
      split
      · rfl
      · rename_i hn
        simp [renamed, hne hn]
    · have hcanon : canon k = k := (hc.other k).resolve_right hk
      have hfalse : guards.any (·.answers k) = false :=
        Bool.eq_false_iff.2 fun ht => hk ((hknown k).1 ht)
      simp only [hfalse, Bool.not_false, if_true, last?_cons, ih]
      split
      · rename_i hn
        have hkn : k ≠ n := by
          rintro rfl
          exact hk (hcanon.symm ▸ hn)
        simp [hkn]
      · simp [renamed, hcanon]

end EidMap.Json
