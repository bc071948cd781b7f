import EidMap.Proofs.Json.Member
import EidMap.Proofs.Json.Record
import EidMap.Proofs.Json.Text
import EidMap.Proofs.Json.Value
import Mathlib.Data.List.Nodup

/-!
# Records read from spelled values

A record is read from the document that spells an object as from the object itself: a field with the
value under its name, in whatever order the fields stand, and a list with its items.
-/

namespace EidMap.Json

variable {δ α : Type}

theorem each_of_forall₂ {read : δ → Decoded α} {ds : List δ} {as : List α}
    (h : List.Forall₂ (fun d a => read d = .ok a) ds as) : each read ds = .ok as := by
  induction h with
  | nil => rfl
  | cons hd _ ih =>
    rw [each, hd, ih]
    rfl

def spelled (depth : Nat) (fs : List (String × Json)) : List (String × Doc) :=
  fs.map fun f => (f.1, f.2.toDoc depth)

theorem find?_spelled (name : String) (depth : Nat) (fs : List (String × Json)) :
    Parts.find? name [] (spelled depth fs) = (lookup name fs).map (toDoc depth) := by
  induction fs with
  | nil => rfl
  | cons f fs ih =>
    obtain ⟨k, v⟩ := f
    have hcons : spelled depth ((k, v) :: fs) = (k, v.toDoc depth) :: spelled depth fs := rfl
    rw [hcons, Parts.find?, lookup, ih, List.contains_nil, Bool.or_false]
    by_cases hk : k = name
    · rw [hk, beq_self_eq_true, if_pos rfl, if_pos rfl, Option.map_some]
    · rw [beq_false_of_ne hk, if_neg Bool.false_ne_true, if_neg hk]

mutual
theorem skip_toDoc (depth : Nat) : ∀ v : Json, (v.toDoc depth).skip = none
  | .null | .bool _ | .number _ | .string _ => by simp [toDoc, Doc.skip]
  | .array xs => by simp [toDoc, Doc.skip, skipItems_toDocItems (depth + 1) xs]
  | .object fs => by simp [toDoc, Doc.skip, skipFields_toDocFields (depth + 1) fs]

theorem skipItems_toDocItems (depth : Nat) :
    ∀ xs : List Json, Doc.skipItems (toDocItems depth xs) = none
  | [] => rfl
  | x :: xs => by
    simp [toDocItems, Doc.skipItems, skip_toDoc depth x, skipItems_toDocItems depth xs]

theorem skipFields_toDocFields (depth : Nat) :
    ∀ fs : List (String × Json), Doc.skipFields (toDocFields depth fs) = none
  | [] => rfl
  | (k, v) :: fs => by
    simp [toDocFields, Doc.skipFields, skip_toDoc depth v, skipFields_toDocFields depth fs]
end

theorem walk_spelled {guards : List (Guard Doc)} {depth : Nat} {fs : List (String × Json)}
    (checks : ∀ f ∈ fs, ∀ g, guards.find? (·.answers f.1) = some g →
      g.name = f.1 ∧ g.check (f.2.toDoc depth) = .ok ())
    {seen : List String} (distinct : (seen ++ fs.map Prod.fst).Nodup) :
    walk guards passOver seen ((spelled depth fs).map fun (k, v) => (.ok k, v)) =
      .ok (spelled depth fs) := by
  induction fs generalizing seen with
  | nil => rfl
  | cons f fs ih =>
    obtain ⟨k, v⟩ := f
    have hcons : spelled depth ((k, v) :: fs) = (k, v.toDoc depth) :: spelled depth fs := rfl
    rw [List.forall_mem_cons] at checks
    have hfresh : (k :: (seen ++ fs.map Prod.fst)).Nodup := List.perm_middle.nodup_iff.1 distinct
    rw [hcons, List.map_cons, walk]
    cases hg : guards.find? (·.answers k) with
    | none =>
      have hskip : passOver (v.toDoc depth) = .ok () := by
        have hnone : Source.skip (v.toDoc depth) = none := skip_toDoc depth v
        rw [passOver, hnone]
      simp only [hskip, ih checks.2 hfresh.of_cons]
      rfl
    | some g =>
      obtain ⟨hname, hcheck⟩ := checks.1 g hg
      have hnew : seen.contains g.name = false := by
        rw [hname, List.contains_eq_mem, decide_eq_false_iff_not]
        exact fun hk => (List.nodup_cons.1 hfresh).1 (List.mem_append_left _ hk)
      have hseen : ((g.name :: seen) ++ fs.map Prod.fst).Nodup := hname ▸ hfresh
      simp only [hnew, hcheck, ih checks.2 hseen, Bool.false_eq_true, if_false]
      rfl

theorem record_spelled {kind : String} {guards : List (Guard Doc)} {build : Parts Doc → Decoded α}
    {depth : Nat} {fs : List (String × Json)} (distinct : (fs.map Prod.fst).Nodup)
    (checks : ∀ f ∈ fs, ∀ g, guards.find? (·.answers f.1) = some g →
      g.name = f.1 ∧ g.check (f.2.toDoc (depth + 1)) = .ok ()) :
    record kind guards build ((Json.object fs).toDoc depth) =
      build (.named (spelled (depth + 1) fs)) := by
  have hlayer : Source.layer ((Json.object fs).toDoc depth) =
      .object ((spelled (depth + 1) fs).map fun (k, v) => (.ok k, v)) none := by
    rw [toDoc, toDocFields_eq]
    rfl
  rw [record, hlayer]
  dsimp only
  rw [walk_spelled checks distinct]
  rfl

section

variable {depth : Nat} {fs : List (String × Json)} {f : Field Doc α} {v : Json} {a : α}

theorem record_of_lookup {kind : String} {guards : List (Guard Doc)} {build : Parts Doc → Decoded α}
    (unaliased : ∀ g ∈ guards, g.aliases = []) (distinct : (fs.map Prod.fst).Nodup)
    (checks : ∀ g ∈ guards, ∀ v, lookup g.name fs = some v →
      g.check (v.toDoc (depth + 1)) = .ok ()) :
    record kind guards build ((Json.object fs).toDoc depth) =
      build (.named (spelled (depth + 1) fs)) := by
  refine record_spelled distinct fun f hf g hg => ?_
  have hmem := List.mem_of_find?_eq_some hg
  have hname : g.name = f.1 := by
    have hanswers := List.find?_some hg
    rw [Guard.answers, unaliased g hmem, List.contains_nil, Bool.or_false, beq_iff_eq] at hanswers
    exact hanswers.symm
  refine ⟨hname, checks g hmem f.2 ?_⟩
  rw [hname]
  exact lookup_of_mem (List.nodup_iff_count_le_one.1 distinct _) hf

theorem get_spelled (unaliased : f.aliases = []) (found : lookup f.name fs = some v)
    (read : f.read (v.toDoc depth) = .ok a) : (Parts.named (spelled depth fs)).get f = .ok a := by
  have hfind : Parts.find? f.name f.aliases (spelled depth fs) = some (v.toDoc depth) := by
    rw [unaliased, find?_spelled, found, Option.map_some]
  exact (get_named hfind).trans read

theorem get_spelled_absent (unaliased : f.aliases = []) (missing : lookup f.name fs = none)
    (absent : f.absent = some a) : (Parts.named (spelled depth fs)).get f = .ok a := by
  refine get_named_absent ?_ absent
  rw [unaliased, find?_spelled, missing, Option.map_none]

theorem member?_spelled {name : String} (found : lookup name fs = some v) (place : Nat) :
    ((Json.object fs).toDoc depth).member? [name] place = some (v.toDoc (depth + 1)) := by
  rw [toDoc, toDocFields_eq, Doc.member?, find?_member, ← spelled, find?_spelled, found,
    Option.map_some]

end

structure Arranged (fs ws : List (String × Json)) : Prop where
  fields : fs.Perm ws
  distinct : (ws.map Prod.fst).Nodup

namespace Arranged

variable {depth : Nat} {fs ws : List (String × Json)}

theorem names_nodup (h : Arranged fs ws) : (fs.map Prod.fst).Nodup :=
  (h.fields.map Prod.fst).nodup_iff.2 h.distinct

theorem lookup_eq (h : Arranged fs ws) (name : String) : lookup name fs = lookup name ws := by
  cases hw : lookup name ws with
  | none =>
    rw [lookup_eq_none_iff] at hw ⊢
    rwa [(h.fields.map Prod.fst).mem_iff]
  | some v =>
    have hmem := h.fields.mem_iff.2 (mem_of_lookup hw)
    exact lookup_of_mem (List.nodup_iff_count_le_one.1 h.names_nodup _) hmem

theorem record {kind : String} {guards : List (Guard Doc)} {build : Parts Doc → Decoded α}
    (h : Arranged fs ws)
    (known : ∀ f ∈ ws, ∃ g, guards.find? (·.answers f.1) = some g ∧ g.name = f.1 ∧
      g.check (f.2.toDoc (depth + 1)) = .ok ()) :
    record kind guards build ((Json.object fs).toDoc depth) =
      build (.named (spelled (depth + 1) fs)) := by
  refine record_spelled h.names_nodup fun f hf g hg => ?_
  obtain ⟨g', hg', hname, hcheck⟩ := known f (h.fields.mem_iff.1 hf)
  rw [hg] at hg'
  cases hg'
  exact ⟨hname, hcheck⟩

variable {f : Field Doc α} {v : Json} {a : α}

theorem get (h : Arranged fs ws) (unaliased : f.aliases = []) (found : lookup f.name ws = some v)
    (read : f.read (v.toDoc depth) = .ok a) : (Parts.named (spelled depth fs)).get f = .ok a :=
  get_spelled unaliased ((h.lookup_eq f.name).trans found) read

theorem get_absent (h : Arranged fs ws) (unaliased : f.aliases = [])
    (missing : lookup f.name ws = none) (absent : f.absent = some a) :
    (Parts.named (spelled depth fs)).get f = .ok a :=
  get_spelled_absent unaliased ((h.lookup_eq f.name).trans missing) absent

theorem member? (h : Arranged fs ws) {name : String} (found : lookup name ws = some v)
    (place : Nat) :
    ((Json.object fs).toDoc depth).member? [name] place = some (v.toDoc (depth + 1)) :=
  member?_spelled ((h.lookup_eq name).trans found) place

end Arranged

theorem list_spelled {depth : Nat} {read : Doc → Decoded α} {xs : List Json} {as : List α}
    (h : List.Forall₂ (fun x a => read (x.toDoc (depth + 1)) = .ok a) xs as) :
    list read ((Json.array xs).toDoc depth) = .ok as := by
  have heach : each read (xs.map (toDoc (depth + 1))) = .ok as :=
    each_of_forall₂ (List.forall₂_map_left_iff.2 h)
  rw [toDoc, toDocItems_eq]
  exact bind_eq_ok.2 ⟨as, heach, rfl⟩

end EidMap.Json
