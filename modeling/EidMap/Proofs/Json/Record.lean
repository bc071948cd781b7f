import EidMap.Json.Parts

/-!
# Records that were written are read

What a writer puts under the name of a field is what the reader of the field finds there. The walk
over the fields passes a record whose fields are all readable and all different.
-/

namespace EidMap.Json

theorem integerIn_ofNat {n high : Nat} (h : n ≤ high) (expected : String) :
    integerIn 0 high expected (ofNat n) = .ok (n : Int) := by
  have hle : (n : Int) ≤ high := Int.ofNat_le.2 h
  simp [integerIn, ofNat, valueLayer, hle]

theorem uint8_ofNat (n : UInt8) : uint8 (ofNat n.toNat) = .ok n := by
  have hn : n.toNat ≤ 255 := Nat.le_of_lt_succ n.toNat_lt
  have hi : integerIn 0 (UInt8.size - 1) "u8" (ofNat n.toNat) = .ok (n.toNat : Int) :=
    integerIn_ofNat hn "u8"
  rw [uint8, hi, Except.map, Int.toNat_natCast, UInt8.ofNat_toNat]

theorem uint16_ofNat (n : UInt16) : uint16 (ofNat n.toNat) = .ok n := by
  have hn : n.toNat ≤ 65535 := Nat.le_of_lt_succ n.toNat_lt
  have hi : integerIn 0 (UInt16.size - 1) "u16" (ofNat n.toNat) = .ok (n.toNat : Int) :=
    integerIn_ofNat hn "u16"
  rw [uint16, hi, Except.map, Int.toNat_natCast, UInt16.ofNat_toNat]

theorem uint32_ofNat (n : UInt32) : uint32 (ofNat n.toNat) = .ok n := by
  have hn : n.toNat ≤ 4294967295 := Nat.le_of_lt_succ n.toNat_lt
  have hi : integerIn 0 (UInt32.size - 1) "u32" (ofNat n.toNat) = .ok (n.toNat : Int) :=
    integerIn_ofNat hn "u32"
  rw [uint32, hi, Except.map, Int.toNat_natCast, UInt32.ofNat_toNat]

theorem option_uint8_ofNat (n : UInt8) : option uint8 (ofNat n.toNat) = .ok (some n) := by
  have hn := uint8_ofNat n
  simp only [ofNat] at hn ⊢
  simp only [option, layer_eq, valueLayer, hn, Except.map]

theorem option_text_string (s : String) : option text (Json.string s) = .ok (some s) := by
  simp only [option, text, layer_eq, valueLayer, Except.map]

theorem each_map {α β : Type} {read : Json → Decoded α} {write : β → Json} {f : β → α}
    {bs : List β} (h : ∀ b ∈ bs, read (write b) = .ok (f b)) :
    each read (bs.map write) = .ok (bs.map f) := by
  induction bs with
  | nil => rfl
  | cons b bs ih =>
    have hb := h b (by simp)
    have hbs := ih fun c hc => h c (by simp [hc])
    rw [List.map_cons, each, hb, hbs]
    rfl

theorem each_value (vs : List Json) : each value vs = .ok vs := by
  have h := @each_map Json Json value id id vs fun v _ => rfl
  rwa [List.map_id] at h

theorem list_array {α : Type} {read : Json → Decoded α} {vs : List Json} {as : List α}
    (h : each read vs = .ok as) : list read (.array vs) = .ok as := by
  simp only [list, layer_eq, valueLayer, h]
  rfl

section Fields

variable {δ : Type} {α : Type}

theorem get_named {f : Field δ α} {fs : List (String × δ)} {v : δ}
    (h : Parts.find? f.name f.aliases fs = some v) : (Parts.named fs).get f = f.read v := by
  simp only [Parts.get, h]

theorem get_named_absent {f : Field δ α} {fs : List (String × δ)} {a : α}
    (h : Parts.find? f.name f.aliases fs = none) (absent : f.absent = some a) :
    (Parts.named fs).get f = .ok a := by
  simp only [Parts.get, h, absent]

theorem get_of_map {f : Field δ (Option α)} {write : α → δ} {fs : List (String × δ)}
    {a : Option α} (absent : f.absent = some none)
    (hread : ∀ b, f.read (write b) = .ok (some b))
    (h : Parts.find? f.name f.aliases fs = a.map write) : (Parts.named fs).get f = .ok a := by
  cases a with
  | none => exact get_named_absent h absent
  | some b => exact (get_named h).trans (hread b)

theorem get_optional [Source δ] {name : String} {read : δ → Decoded α} {write : α → δ}
    {fs : List (String × δ)} {a : Option α}
    (hread : ∀ b, option read (write b) = .ok (some b))
    (h : Parts.find? name [] fs = a.map write) :
    (Parts.named fs).get (optional name read) = .ok a :=
  get_of_map rfl hread h

theorem check_guard {f : Field δ α} {v : δ} {a : α} (h : f.read v = .ok a) :
    f.guard.check v = .ok () := by
  simp only [Field.guard, h, Except.map]

/-- Fields that a walk passes: each is known, readable and not seen before. -/
inductive Passes (guards : List (Guard δ)) : List String → List (String × δ) → Prop
  | nil (seen : List String) : Passes guards seen []
  | cons {seen : List String} {key : String} {v : δ} {fs : List (String × δ)}
      {g : Guard δ} (known : guards.find? (·.answers key) = some g)
      (fresh : seen.contains g.name = false) (check : g.check v = .ok ())
      (rest : Passes guards (g.name :: seen) fs) : Passes guards seen ((key, v) :: fs)

theorem Passes.optionalField {guards : List (Guard Json)} {seen : List String} {name : String}
    {write : α → Json} {fs : List (String × Json)} {g : Guard Json} (a : Option α)
    (known : guards.find? (·.answers name) = some g) (fresh : seen.contains g.name = false)
    (check : ∀ b, g.check (write b) = .ok ()) (present : Passes guards (g.name :: seen) fs)
    (absent : Passes guards seen fs) :
    Passes guards seen (Json.optionalField name write a ++ fs) := by
  cases a with
  | none => exact absent
  | some b => exact .cons known fresh (check b) present

theorem passes_of_distinct {guards : List (Guard δ)} {fs : List (String × δ)}
    (known : ∀ f ∈ fs, ∃ g, guards.find? (·.answers f.1) = some g ∧ g.name = f.1 ∧
      g.check f.2 = .ok ()) {seen : List String} (distinct : (seen ++ fs.map Prod.fst).Nodup) :
    Passes guards seen fs := by
  induction fs generalizing seen with
  | nil => exact .nil seen
  | cons f fs ih =>
    obtain ⟨k, v⟩ := f
    obtain ⟨g, hg, hname, hcheck⟩ := known (k, v) (by simp)
    have hfresh : seen.contains k = false := by
      rw [List.contains_eq_mem, decide_eq_false_iff_not]
      exact fun hk => (List.nodup_append.1 distinct).2.2 k hk k (by simp) rfl
    have hseen : ((k :: seen) ++ fs.map Prod.fst).Nodup :=
      List.perm_middle.nodup_iff.1 distinct
    refine .cons hg (hname ▸ hfresh) hcheck ?_
    rw [hname]
    exact ih (fun f hf => known f (by simp [hf])) hseen

theorem Passes.walk {guards : List (Guard δ)} {other : δ → Decoded Unit}
    {seen : List String} {fs : List (String × δ)} (h : Passes guards seen fs) :
    walk guards other seen (fs.map fun (k, v) => (.ok k, v)) = .ok fs := by
  induction h with
  | nil seen => rfl
  | @cons seen key v fs g known fresh check rest ih =>
    simp only [List.map_cons, Json.walk, known, fresh, check, ih, Bool.false_eq_true, if_false]
    rfl

theorem record_of_layer [Source δ] {kind : String} {guards : List (Guard δ)}
    {build : Parts δ → Decoded α} {d : δ} {fs : List (String × δ)} (h : Passes guards [] fs)
    (layer : Source.layer d = .object (fs.map fun (k, v) => (.ok k, v)) none) :
    record kind guards build d = build (.named fs) := by
  simp only [record, layer, h.walk]
  rfl

theorem record_object {kind : String} {guards : List (Guard Json)}
    {build : Parts Json → Decoded α} {fs : List (String × Json)} (h : Passes guards [] fs) :
    record kind guards build (.object fs) = build (.named fs) :=
  record_of_layer h rfl

end Fields

end EidMap.Json
