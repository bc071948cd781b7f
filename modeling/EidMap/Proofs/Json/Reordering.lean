import Mathlib.Data.List.Nodup
import EidMap.Proofs.Json.Record
import EidMap.Proofs.Json.Value

/-!
# Reading does not depend on the order of the fields

A value that can be read can be read in its ordered form too. What comes out is the same, apart from
the values inside that are kept as they are: those come out in their own ordered form. So each reader
has an arrangement of its results, and the arrangement of a record is made of those of its fields.
-/

namespace EidMap.Json

variable {α : Type}

/-- Out of the ordered form of a value `read` gets what `arrange` makes of what it gets out of the
value. -/
def Arranges (read : Json → Decoded α) (arrange : α → α) : Prop :=
  ∀ (v : Json) (a : α), read v = .ok a → read v.ordered = .ok (arrange a)

theorem arranges_value : Arranges value ordered := by
  intro v a h
  rw [value_eq_ok] at h ⊢
  rw [h]

theorem arranges_of_eq {read : Json → Decoded α} {write : α → Json}
    (hread : ∀ {v a}, read v = .ok a → v = write a) (leaf : ∀ a, (write a).ordered = write a) :
    Arranges read id := by
  intro v a h
  rw [hread h, leaf, ← hread h]
  exact h

theorem arranges_text : Arranges text id := arranges_of_eq eq_of_text fun _ => rfl

theorem arranges_boolean : Arranges boolean id := arranges_of_eq eq_of_boolean fun _ => rfl

theorem arranges_uint8 : Arranges uint8 id := arranges_of_eq eq_of_uint8 fun _ => rfl

theorem arranges_uint16 : Arranges uint16 id := arranges_of_eq eq_of_uint16 fun _ => rfl

theorem arranges_uint32 : Arranges uint32 id := arranges_of_eq eq_of_uint32 fun _ => rfl

theorem arranges_int16 : Arranges int16 id := arranges_of_eq eq_of_int16 fun _ => rfl

theorem arranges_int64 : Arranges int64 id := arranges_of_eq eq_of_int64 fun _ => rfl

theorem Arranges.option {read : Json → Decoded α} (h : Arranges read id) :
    Arranges (option read) id := by
  intro v o ho
  cases v with
  | null => exact ho
  | _ =>
    obtain ⟨a, ha, rfl⟩ := map_eq_ok.1 ho
    exact map_eq_ok.2 ⟨a, h _ a ha, rfl⟩

theorem Arranges.each {read : Json → Decoded α} {arrange : α → α} (h : Arranges read arrange)
    {xs : List Json} {as : List α} (hxs : each read xs = .ok as) :
    Json.each read (xs.map ordered) = .ok (as.map arrange) := by
  induction xs generalizing as with
  | nil =>
    cases hxs
    rfl
  | cons x xs ih =>
    obtain ⟨a, ha, hxs⟩ := bind_eq_ok.1 hxs
    obtain ⟨bs, hbs, hxs⟩ := bind_eq_ok.1 hxs
    cases hxs
    rw [List.map_cons, Json.each, h x a (Decoded.inside_eq_ok.1 ha), ih (Decoded.later_eq_ok.1 hbs)]
    rfl

theorem Arranges.list {read : Json → Decoded α} {arrange : α → α} (h : Arranges read arrange) :
    Arranges (list read) (List.map arrange) := by
  intro v as hv
  cases v with
  | array xs =>
    obtain ⟨bs, hbs, hv⟩ := bind_eq_ok.1 hv
    cases hv
    rw [ordered, orderedItems_eq]
    exact list_array (h.each hbs)
  | _ => cases hv

theorem countP_insertField_le (p : String → Bool) (name : String) (v : Json)
    (fs : List (String × Json)) :
    ((insertField name v fs).map Prod.fst).countP p ≤
      (fs.map Prod.fst).countP p + if p name then 1 else 0 := by
  induction fs with
  | nil => simp [insertField, List.countP_cons]
  | cons f fs ih =>
    obtain ⟨k, w⟩ := f
    rw [insertField]
    split_ifs with hlt heq
    all_goals simp only [List.map_cons, List.countP_cons] at ih ⊢
    all_goals subst_vars
    all_goals split_ifs at ih ⊢
    all_goals omega

theorem countP_sortFields_le (p : String → Bool) (fs : List (String × Json)) :
    ((sortFields fs).map Prod.fst).countP p ≤ (fs.map Prod.fst).countP p := by
  induction fs using List.reverseRecOn with
  | nil => exact Nat.le_refl _
  | append_singleton fs f ih =>
    have hinsert := countP_insertField_le p f.1 f.2 (sortFields fs)
    rw [sortFields_snoc, List.map_append, List.countP_append]
    simp only [List.map_cons, List.map_nil, List.countP_cons, List.countP_nil]
    omega

theorem last?_filter (p : String → Bool) (n : String) (fs : List (String × Json)) :
    last? n (fs.filter fun f => p f.1) = if p n then last? n fs else none := by
  induction fs with
  | nil => simp
  | cons f fs ih =>
    obtain ⟨k, v⟩ := f
    by_cases hk : k = n
    · subst hk
      by_cases hp : p k <;> simp [hp, ih]
    · by_cases hp : p k <;> simp [hp, ih, hk]

def arrangedFields (fs : List (String × Json)) : List (String × Json) :=
  sortFields (orderedFields fs)

theorem ordered_object (fs : List (String × Json)) :
    (Json.object fs).ordered = .object (arrangedFields fs) := rfl

theorem lookup_arrangedFields (n : String) (fs : List (String × Json)) :
    lookup n (arrangedFields fs) = (last? n fs).map ordered := by
  rw [arrangedFields, lookup_sortFields_eq, orderedFields_eq, last?_map n fun _ => ordered]

theorem mem_of_mem_arrangedFields {fs : List (String × Json)} {f : String × Json}
    (h : f ∈ arrangedFields fs) : ∃ v, (f.1, v) ∈ fs ∧ f.2 = v.ordered := by
  have hf := mem_of_mem_sortFields h
  rw [orderedFields_eq] at hf
  obtain ⟨g, hg, rfl⟩ := List.mem_map.1 hf
  exact ⟨g.2, hg, rfl⟩

theorem keys_orderedFields (fs : List (String × Json)) :
    (orderedFields fs).map Prod.fst = fs.map Prod.fst := by
  rw [orderedFields_eq, List.map_map]
  rfl

variable {guards : List (Guard Json)} {canon : String → String}

theorem count_renamed (name : String) (fs : List (String × Json)) :
    ((renamed canon fs).map Prod.fst).count name =
      (fs.map Prod.fst).countP (fun k => canon k == name) := by
  rw [renamed, List.map_map, List.count, List.countP_map, List.countP_map]
  rfl

theorem single_arrangedFields {names : List String} {fs : List (String × Json)}
    (h : Single names (renamed canon fs)) : Single names (renamed canon (arrangedFields fs)) := by
  intro name hname
  rw [count_renamed]
  refine Nat.le_trans (countP_sortFields_le _ _) ?_
  rw [keys_orderedFields, ← count_renamed]
  exact h name hname

theorem countP_of_single {names : List String} {fs : List (String × Json)}
    (h : Single names (renamed canon fs)) {name : String} (hname : name ∈ names) {k : String}
    (hk : canon k = name) : (fs.map Prod.fst).count k ≤ 1 := by
  have hle := h name hname
  rw [count_renamed] at hle
  refine Nat.le_trans (List.countP_mono_left fun k' _ hk' => ?_) hle
  rw [beq_iff_eq] at hk' ⊢
  rw [hk', hk]

theorem lookup_renamed_arrangedFields {names : List String} {fs : List (String × Json)}
    (h : Single names (renamed canon fs)) {name : String} (hname : name ∈ names) :
    lookup name (renamed canon (arrangedFields fs)) =
      (lookup name (renamed canon fs)).map ordered := by
  cases hv : lookup name (renamed canon fs) with
  | none =>
    rw [Option.map_none, lookup_eq_none_iff]
    intro hmem
    obtain ⟨_, hrenamed, rfl⟩ := List.mem_map.1 hmem
    obtain ⟨g, hg, rfl⟩ := List.mem_map.1 hrenamed
    obtain ⟨v, hv', -⟩ := mem_of_mem_arrangedFields hg
    exact lookup_eq_none_iff.1 hv (List.mem_map.2 ⟨_, List.mem_map.2 ⟨_, hv', rfl⟩, rfl⟩)
  | some v =>
    obtain ⟨f, hf, he⟩ := List.mem_map.1 (mem_of_lookup hv)
    obtain ⟨hk, rfl⟩ := Prod.mk.inj he
    have hone := countP_of_single h hname hk
    have hlook : lookup f.1 (arrangedFields fs) = some f.2.ordered := by
      rw [lookup_arrangedFields, last?_of_count hone, lookup_of_mem hone hf, Option.map_some]
    refine lookup_of_mem (single_arrangedFields h name hname) ?_
    exact List.mem_map.2 ⟨_, mem_of_lookup hlook, by rw [hk]⟩

def Guard.Steady (g : Guard Json) : Prop :=
  ∀ v, g.check v = .ok () → g.check v.ordered = .ok ()

theorem Arranges.steady {f : Field Json α} {arrange : α → α} (h : Arranges f.read arrange) :
    f.guard.Steady := by
  intro v hv
  obtain ⟨a, ha, -⟩ := map_eq_ok.1 hv
  exact check_guard (h v a ha)

def Checked (guards : List (Guard Json)) (other : Json → Decoded Unit) (f : String × Json) : Prop :=
  match guards.find? (·.answers f.1) with
  | none => other f.2 = .ok ()
  | some g => g.check f.2 = .ok ()

theorem checked_of_read {other : Json → Decoded Unit} {f : Field Json α} {name : String} {v : Json}
    {a : α} (known : guards.find? (·.answers name) = some f.guard) (h : f.read v = .ok a) :
    Checked guards other (name, v) := by
  simp only [Checked, known]
  exact check_guard h

theorem checked_of_walk {other : Json → Decoded Unit} {seen : List String}
    {fs out : List (String × Json)}
    (h : walk guards other seen (fs.map fun (k, v) => (.ok k, v)) = .ok out) :
    ∀ f ∈ fs, Checked guards other f := by
  induction fs generalizing seen out with
  | nil => exact List.forall_mem_nil _
  | cons f fs ih =>
    obtain ⟨_, rest, hrest, -, hstep⟩ := walk_cons_eq_ok h
    refine List.forall_mem_cons.2 ⟨?_, ih hrest⟩
    rcases hstep with ⟨hnone, hother, -⟩ | ⟨g, hsome, -, hcheck, -⟩
    · simp only [Checked, hnone]
      exact hother
    · simp only [Checked, hsome]
      exact hcheck

theorem walk_of_checked (hc : Spelling guards canon) {other : Json → Decoded Unit}
    {fs : List (String × Json)} (checked : ∀ f ∈ fs, Checked guards other f) (seen : List String)
    (single : ∀ name ∈ guards.map (·.name),
      ((renamed canon fs).map Prod.fst).count name ≤ if seen.contains name then 0 else 1) :
    walk guards other seen (fs.map fun (k, v) => (.ok k, v)) = .ok fs := by
  induction fs generalizing seen with
  | nil => rfl
  | cons f fs ih =>
    obtain ⟨k, v⟩ := f
    obtain ⟨hk, hfs⟩ := List.forall_mem_cons.1 checked
    simp only [renamed, List.map_cons] at single
    simp only [List.map_cons, walk]
    cases hg : guards.find? (·.answers k) with
    | none =>
      simp only [Checked, hg] at hk
      have hrest := ih hfs seen fun name hname =>
        Nat.le_trans List.count_le_count_cons (single name hname)
      simp only [hk, hrest]
      rfl
    | some g =>
      simp only [Checked, hg] at hk
      have hmem := List.mem_of_find?_eq_some hg
      have hname := hc.canon_eq hg
      have hone := single g.name (List.mem_map_of_mem hmem)
      rw [hname, List.count_cons_self] at hone
      have hfresh : seen.contains g.name = false := by
        by_contra hseen
        rw [if_pos (by simpa using hseen)] at hone
        omega
      have hrest := ih hfs (g.name :: seen) fun name hn => by
        have hle := single name hn
        by_cases he : g.name = name
        · subst he
          rw [hname, List.count_cons_self, hfresh] at hle
          simpa [renamed] using hle
        · rw [hname, List.count_cons_of_ne he] at hle
          simpa [renamed, Ne.symm he] using hle
      simp only [hfresh, hk, hrest, Bool.false_eq_true, if_false]
      rfl

section Unaliased

variable {f : Field Json α} {fs : List (String × Json)} {v : Json} {a : α}

theorem get_of_lookup (unaliased : f.aliases = []) (h : lookup f.name fs = some v)
    (hread : f.read v = .ok a) : (Parts.named fs).get f = .ok a := by
  rw [get_named (v := v), hread]
  rwa [unaliased, find?_unaliased]

theorem get_of_lookup_eq_none (unaliased : f.aliases = []) (h : lookup f.name fs = none)
    (absent : f.absent = some a) : (Parts.named fs).get f = .ok a := by
  refine get_named_absent ?_ absent
  rwa [unaliased, find?_unaliased]

theorem check_of_get (unaliased : f.aliases = []) (h : (Parts.named fs).get f = .ok a) :
    ∀ v, lookup f.guard.name fs = some v → f.guard.check v = .ok () := by
  intro v hv
  rw [get_named (v := v)] at h
  · exact check_guard h
  · rw [unaliased, find?_unaliased]
    exact hv

end Unaliased

theorem record_of_checks {β : Type} (unaliased : ∀ g ∈ guards, g.aliases = []) {kind : String}
    {build : Parts Json → Decoded β} {fs : List (String × Json)} (distinct : (fs.map Prod.fst).Nodup)
    (checks : ∀ g ∈ guards, ∀ v, lookup g.name fs = some v → g.check v = .ok ()) :
    record kind guards build (.object fs) = build (.named fs) := by
  have hc := spelling_of_unaliased unaliased
  have hchecked : ∀ f ∈ fs, Checked guards passOver f := by
    intro f hf
    rw [Checked]
    split
    · rfl
    · rename_i g hg
      have hmem := List.mem_of_find?_eq_some hg
      have hname : f.1 = g.name := hc.canon_eq hg
      refine checks g hmem f.2 (lookup_of_mem (List.nodup_iff_count_le_one.1 distinct _) ?_)
      rw [← hname]
      exact hf
  have hwalk := walk_of_checked hc hchecked [] fun name _ => by
    rw [renamed, List.map_id']
    exact List.nodup_iff_count_le_one.1 distinct name
  simp only [record, layer_eq, valueLayer, hwalk]
  rfl

theorem walk_arrangedFields (hc : Spelling guards canon) (steady : ∀ g ∈ guards, g.Steady)
    {other : Json → Decoded Unit} (hother : ∀ v, other v = .ok () → other v.ordered = .ok ())
    {fs out : List (String × Json)}
    (h : walk guards other [] (fs.map fun (k, v) => (.ok k, v)) = .ok out) :
    walk guards other [] ((arrangedFields fs).map fun (k, v) => (.ok k, v)) =
      .ok (arrangedFields fs) := by
  refine walk_of_checked hc (fun f hf => ?_) [] fun name hname => ?_
  · obtain ⟨v, hv, hfv⟩ := mem_of_mem_arrangedFields hf
    have hchecked := checked_of_walk h _ hv
    simp only [Checked] at hchecked ⊢
    split
    · rename_i hnone
      rw [hnone] at hchecked
      exact hfv ▸ hother v hchecked
    · rename_i g hsome
      rw [hsome] at hchecked
      exact hfv ▸ steady g (List.mem_of_find?_eq_some hsome) v hchecked
  · have hsingle : Single (guards.map (·.name)) (renamed canon fs) := fun n hn =>
      count_of_walk hc h hn
    exact single_arrangedFields hsingle name hname

def Parts.arranged : Parts Json → Parts Json
  | .named fs => .named (arrangedFields fs)
  | .placed kind names xs close => .placed kind names (xs.map ordered) close

theorem member?_arranged (hc : Spelling guards canon) {v : Json} {p : Parts Json}
    (hp : AreParts guards canon v p) {g : Guard Json} (hg : g ∈ guards) :
    p.arranged.member? g.name g.aliases = (p.member? g.name g.aliases).map ordered := by
  cases hp with
  | @named fs single =>
    have hfind := find?_eq_lookup (hc.answers g hg)
    simp only [Parts.arranged, Parts.member?, hfind]
    exact lookup_renamed_arrangedFields single (List.mem_map_of_mem hg)
  | placed kind xs => exact List.getElem?_map

theorem Parts.get_of_member {p : Parts Json} {f : Field Json α} {v : Json} {a : α}
    (h : p.member? f.name f.aliases = some v) (hv : f.read v = .ok a) : p.get f = .ok a := by
  cases p with
  | named fs =>
    have hfind : find? f.name f.aliases fs = some v := h
    simp only [get, hfind, hv]
  | placed kind names xs close =>
    have hplace : xs[names.idxOf f.name]? = some v := h
    simp only [get, hplace, hv, Decoded.inside_ok]

theorem get_arranged_of_absent (hc : Spelling guards canon) {v : Json} {p : Parts Json}
    (hp : AreParts guards canon v p) {f : Field Json α} (hf : f.guard ∈ guards)
    (hnone : p.member? f.name f.aliases = none) : p.arranged.get f = p.get f := by
  have hmember := member?_arranged hc hp hf
  have harranged : p.arranged.member? f.name f.aliases = none :=
    hmember.trans (congrArg _ hnone)
  cases hp with
  | @named fs single =>
    have hfind : Parts.find? f.name f.aliases fs = none := hnone
    have hfind' : Parts.find? f.name f.aliases (arrangedFields fs) = none := harranged
    simp only [Parts.arranged, Parts.get, hfind, hfind']
  | placed kind xs =>
    have hplace : xs[(guards.map (·.name)).idxOf f.name]? = none := hnone
    have hplace' : (xs.map ordered)[(guards.map (·.name)).idxOf f.name]? = none := harranged
    simp only [Parts.arranged, Parts.get, hplace, hplace']

theorem get_arranged (hc : Spelling guards canon) {v : Json} {p : Parts Json}
    (hp : AreParts guards canon v p) {f : Field Json α} {arrange : α → α} {a : α}
    (h : p.get f = .ok a) (hf : f.guard ∈ guards) (hread : Arranges f.read arrange)
    (absent : ∀ b ∈ f.absent, arrange b = b) : p.arranged.get f = .ok (arrange a) := by
  rcases Parts.get_eq_ok h with ⟨m, hm, ha⟩ | ⟨hm, hb⟩
  · refine Parts.get_of_member ?_ (hread m a ha)
    exact (member?_arranged hc hp hf).trans (congrArg _ hm)
  · rw [get_arranged_of_absent hc hp hf hm, h, absent a hb]

theorem bind_arranged {β : Type} (hc : Spelling guards canon) {v : Json} {p : Parts Json}
    (hp : AreParts guards canon v p) {f : Field Json α} {arrange : α → α}
    {rest rest' : α → Decoded β}
    {b b' : β} (h : p.get f >>= rest = .ok b) (hf : f.guard ∈ guards)
    (hread : Arranges f.read arrange) (absent : ∀ a ∈ f.absent, arrange a = a)
    (next : ∀ a, rest a = .ok b → rest' (arrange a) = .ok b') :
    p.arranged.get f >>= rest' = .ok b' := by
  obtain ⟨a, ha, h⟩ := bind_eq_ok.1 h
  exact bind_eq_ok.2 ⟨_, get_arranged hc hp ha hf hread absent, next a h⟩

theorem arranges_record (hc : Spelling guards canon) (steady : ∀ g ∈ guards, g.Steady)
    {kind : String} {build : Parts Json → Decoded α} {arrange : α → α}
    (hbuild : ∀ {v p a}, AreParts guards canon v p → build p = .ok a →
      build p.arranged = .ok (arrange a)) : Arranges (record kind guards build) arrange := by
  intro v a h
  obtain ⟨p, hp, ha⟩ := areParts_of_record hc h
  have hordered := hbuild hp ha
  cases hp with
  | @named fs single =>
    obtain ⟨out, hw, -⟩ := bind_eq_ok.1 h
    have hwalk := walk_arrangedFields hc steady (fun _ _ => rfl) hw
    simp only [ordered_object, record, layer_eq, valueLayer, hwalk]
    exact hordered
  | placed kind' xs =>
    obtain ⟨b, hb, h⟩ := bind_eq_ok.1 h
    -- the name of the record is in the errors only
    have hkind : build (.placed kind (guards.map (·.name)) (xs.map ordered) none) =
        .ok (arrange b) := hbuild (.placed kind xs) hb
    have hba : surplus guards.length (xs.map ordered) none (arrange b) = .ok (arrange a) := by
      simp only [surplus, List.length_map] at h ⊢
      split at h
      · split at h <;> cases h
      · rename_i hfew
        rw [if_neg hfew]
        cases h
        rfl
    rw [ordered, orderedItems_eq]
    simp only [record, layer_eq, valueLayer, hkind]
    exact hba

theorem unknown_arrangedFields (p : String → Bool) (fs : List (String × Json)) :
    sortFields ((arrangedFields fs).filter fun f => p f.1) =
      orderedFields (sortFields (fs.filter fun f => p f.1)) := by
  have hascending : Ascending (orderedFields (sortFields (fs.filter fun f => p f.1))) := by
    rw [orderedFields_eq]
    exact List.pairwise_map.2 (ascending_sortFields _)
  refine (ascending_sortFields _).ext hascending fun n => ?_
  rw [lookup_sortFields_eq, last?_filter, orderedFields_eq, lookup_map n fun _ => ordered,
    lookup_sortFields_eq, last?_filter, arrangedFields, last?_sortFields, orderedFields_eq,
    last?_map n fun _ => ordered]
  split <;> rfl

theorem arranges_openRecord (hc : Spelling guards canon) (steady : ∀ g ∈ guards, g.Steady)
    {kind : String} {build : Parts Json → List (String × Json) → Decoded α} {arrange : α → α}
    (hbuild : ∀ {v p extra a}, AreParts guards canon v p → build p extra = .ok a →
      build p.arranged (orderedFields extra) = .ok (arrange a)) :
    Arranges (openRecord kind guards build) arrange := by
  intro v a h
  obtain ⟨fs, rfl, hsingle, ha⟩ := leaves_of_openRecord hc h
  obtain ⟨out, hw, -⟩ := bind_eq_ok.1 h
  have hwalk := walk_arrangedFields hc steady (fun _ _ => rfl) hw
  have hordered := hbuild (.named hsingle) ha
  rw [← unknown_arrangedFields fun k => !guards.any (·.answers k)] at hordered
  exact bind_eq_ok.2 ⟨_, hwalk, bind_eq_ok.2 ⟨(), rfl, bind_eq_ok.2 ⟨_, mapM_value _, hordered⟩⟩⟩

end EidMap.Json
