import EidMap.Proofs.Json.Reordering
import Mathlib.Data.List.Nodup

/-!
# Values read in either form

What a program writes it may read again as it was written, or after the fields were put in order. A
record is read from both forms if each of its fields is.
-/

namespace EidMap.Json

variable {α β : Type}

inductive FormOf (v : Json) : Json → Prop
  | written : FormOf v v
  | ordered : FormOf v v.ordered

/-- `a` is read from `v` in both forms. -/
def Reads (read : Json → Decoded α) (v : Json) (a : α) : Prop := ∀ w, FormOf v w → read w = .ok a

variable {read : Json → Decoded α} {v : Json} {a : α}

theorem reads_of_ordered (hv : v.ordered = v) (h : read v = .ok a) : Reads read v a := by
  rintro w (_ | _)
  · exact h
  · rwa [hv]

theorem reads_ofOption {write : α → Json} (o : Option α)
    (leaf : ∀ a ∈ o, (write a).ordered = write a ∧ write a ≠ .null ∧ read (write a) = .ok a) :
    Reads (option read) (ofOption write o) o := by
  cases o with
  | none => exact reads_of_ordered rfl rfl
  | some a =>
    obtain ⟨hordered, hnull, hread⟩ := leaf a rfl
    refine reads_of_ordered hordered ?_
    rw [ofOption]
    cases hw : write a with
    | null => exact absurd hw hnull
    | _ => exact map_eq_ok.2 ⟨a, hw ▸ hread, rfl⟩

theorem reads_text (s : String) : Reads text (.string s) s := reads_of_ordered rfl rfl

theorem reads_boolean (b : Bool) : Reads boolean (.bool b) b := reads_of_ordered rfl rfl

theorem reads_uint8 (n : UInt8) : Reads uint8 (.ofNat n.toNat) n :=
  reads_of_ordered rfl (uint8_ofNat n)

theorem reads_uint32 (n : UInt32) : Reads uint32 (.ofNat n.toNat) n :=
  reads_of_ordered rfl (uint32_ofNat n)

theorem reads_nullable_text (s : Option String) :
    Reads (option text) (ofOption .string s) s :=
  reads_ofOption s fun _ _ => ⟨rfl, Json.noConfusion, rfl⟩

theorem Reads.list {write : α → Json} {as : List α} (h : ∀ a ∈ as, Reads read (write a) a) :
    Reads (list read) (.array (as.map write)) as := by
  have heach : ∀ form : Json → Json, (∀ v, FormOf v (form v)) →
      each read ((as.map write).map form) = .ok as := by
    intro form hform
    rw [List.map_map]
    have hread := each_map (f := id) fun a ha => h a ha _ (hform (write a))
    rwa [List.map_id] at hread
  rintro w (_ | _)
  · have hwritten := heach id fun _ => .written
    rw [List.map_id] at hwritten
    exact list_array hwritten
  · rw [ordered, orderedItems_eq]
    exact list_array (heach ordered fun _ => .ordered)

/-- Fields that have both the names of `fs` and the values, in one form or the other. -/
structure Holds (fs gs : List (String × Json)) : Prop where
  present : ∀ name v, lookup name fs = some v → ∃ w, FormOf v w ∧ lookup name gs = some w
  absent : ∀ name, lookup name fs = none → lookup name gs = none

section

variable {fs gs : List (String × Json)}

theorem holds_self (fs : List (String × Json)) : Holds fs fs :=
  ⟨fun _ v h => ⟨v, .written, h⟩, fun _ h => h⟩

theorem holds_arrangedFields (distinct : (fs.map Prod.fst).Nodup) :
    Holds fs (arrangedFields fs) := by
  have hlookup : ∀ name, lookup name (arrangedFields fs) = (lookup name fs).map ordered := by
    intro name
    rw [lookup_arrangedFields, last?_of_count (List.nodup_iff_count_le_one.1 distinct name)]
  refine ⟨fun name v h => ⟨v.ordered, .ordered, ?_⟩, fun name h => ?_⟩
  · rw [hlookup, h, Option.map_some]
  · rw [hlookup, h, Option.map_none]

theorem Holds.get (h : Holds fs gs) {f : Field Json α} (unaliased : f.aliases = [])
    (found : lookup f.name fs = some v) (reads : Reads f.read v a) :
    (Parts.named gs).get f = .ok a := by
  obtain ⟨w, hw, hfound⟩ := h.present f.name v found
  exact get_of_lookup unaliased hfound (reads w hw)

theorem Holds.get_absent (h : Holds fs gs) {f : Field Json α} (unaliased : f.aliases = [])
    (missing : lookup f.name fs = none) (absent : f.absent = some a) :
    (Parts.named gs).get f = .ok a :=
  get_of_lookup_eq_none unaliased (h.absent f.name missing) absent

theorem Reads.check {f : Field Json α} (h : Reads f.read v a) : Reads f.guard.check v () :=
  fun w hw => check_guard (h w hw)

theorem reads_record {kind : String} {guards : List (Guard Json)} {build : Parts Json → Decoded α}
    (named : (fs.map Prod.fst).Sublist (guards.map (·.name))) (single : (guards.map (·.name)).Nodup)
    (known : ∀ f ∈ fs, ∃ g, guards.find? (·.answers f.1) = some g ∧ g.name = f.1 ∧
      Reads g.check f.2 ())
    (built : ∀ gs, Holds fs gs → build (.named gs) = .ok a) :
    Reads (record kind guards build) (.object fs) a := by
  have distinct := named.nodup single
  rintro w (_ | _)
  · rw [record_object (passes_of_distinct ?_ distinct)]
    · exact built fs (holds_self fs)
    · intro f hf
      obtain ⟨g, hg, hname, hcheck⟩ := known f hf
      exact ⟨g, hg, hname, hcheck f.2 .written⟩
  · have harranged : ((arrangedFields fs).map Prod.fst).Nodup :=
      (List.pairwise_map.2 (ascending_sortFields _)).imp fun hlt => String.ne_of_lt hlt
    rw [ordered_object, record_object (passes_of_distinct ?_ harranged)]
    · exact built _ (holds_arrangedFields distinct)
    · intro f hf
      obtain ⟨v, hv, hfv⟩ := mem_of_mem_arrangedFields hf
      obtain ⟨g, hg, hname, hcheck⟩ := known _ hv
      exact ⟨g, hg, hname, hfv ▸ hcheck v.ordered .ordered⟩

end

end EidMap.Json
