import EidMap.Config.Basic
import EidMap.Proofs.Json.Order
import EidMap.Proofs.Json.Record
import EidMap.Proofs.Toml.Merge
import Mathlib.Tactic.SplitIfs

/-!
# Configurations read back

The settings that are written for a configuration are read as the same configuration: what a profile
does not set is not there to be read, and profiles in the order of their names stay in it.
-/

namespace EidMap

namespace Toml

theorem text_string (s : String) : Json.text (.string s : Toml) = .ok s := rfl

theorem path_string (s : String) : Profile.path (.string s : Toml) = .ok s := rfl

theorem boolean_boolean (b : Bool) : Json.boolean (.boolean b : Toml) = .ok b := rfl

theorem uint64_ofUInt64 (n : UInt64) : Json.uint64 (ofUInt64 n) = .ok n := by
  have hn : n.toNat ≤ 18446744073709551615 := Nat.le_of_lt_succ n.toNat_lt
  have hle : (n.toNat : Int) ≤ UInt64.size - 1 := Int.ofNat_le.2 hn
  have hi : Json.integerIn 0 (UInt64.size - 1) "u64" (ofUInt64 n) = .ok (n.toNat : Int) := by
    simp only [Json.integerIn, Json.Source.layer, ofUInt64, layer, hle, Int.natCast_nonneg,
      decide_true, Bool.and_self, if_true]
  rw [Json.uint64, hi, Except.map, Int.toNat_natCast, UInt64.ofNat_toNat]

theorem option_eq {α : Type} (read : Toml → Json.Decoded α) (t : Toml) :
    Json.option read t = (read t).map some := by
  cases t <;> rfl

theorem option_of_read {α : Type} {read : Toml → Json.Decoded α} {t : Toml} {a : α}
    (h : read t = .ok a) : Json.option read t = .ok (some a) := by
  rw [option_eq, h, Except.map]

theorem find?_eq_lookup (name : String) (es : List (String × Toml)) :
    Json.Parts.find? name [] es = lookup name es := by
  induction es with
  | nil => rfl
  | cons e es ih =>
    obtain ⟨k, v⟩ := e
    simp [Json.Parts.find?, lookup, ih]

theorem get_nullable {α : Type} {name : String} {read : Toml → Json.Decoded α} {write : α → Toml}
    {es : List (String × Toml)} {a : Option α} (hread : ∀ b, read (write b) = .ok b)
    (h : lookup name es = a.map write) :
    (Json.Parts.named es).get (Json.nullable name read) = .ok a :=
  Json.get_of_map rfl (fun b => option_of_read (hread b)) ((find?_eq_lookup name es).trans h)

theorem check_nullable {α : Type} {name : String} {read : Toml → Json.Decoded α} {t : Toml} {a : α}
    (h : read t = .ok a) : (Json.nullable name read).guard.check t = .ok () :=
  Json.check_guard (option_of_read h)

theorem lookup_optionalEntry_append {α : Type} (name k : String) (write : α → Toml) (a : Option α)
    (es : List (String × Toml)) :
    lookup name (optionalEntry k write a ++ es) =
      if k = name then (a.map write).or (lookup name es) else lookup name es := by
  cases a with
  | none => simp [optionalEntry]
  | some b => simp [optionalEntry, lookup]

theorem mem_optionalEntry {α : Type} {k : String} {write : α → Toml} {a : Option α}
    {e : String × Toml} : e ∈ optionalEntry k write a ↔ ∃ b, a = some b ∧ e = (k, write b) := by
  cases a <;> simp [optionalEntry]

theorem sublist_optionalEntry {α : Type} (k : String) (write : α → Toml) (a : Option α) :
    ((optionalEntry k write a).map Prod.fst).Sublist [k] := by
  cases a <;> simp [optionalEntry]

end Toml

open Json (check_guard get_named passes_of_distinct record_of_layer)

theorem Defaults.read_toToml (d : Defaults) : Defaults.read d.toToml = .ok d := by
  have hp : Json.Passes [outputField.guard, colorField.guard, insecureField.guard,
      timeoutField.guard] [] [("output", Toml.string d.output), ("color", .string d.color),
        ("insecure", .boolean d.insecure), ("timeout", .ofUInt64 d.timeout)] :=
    .cons rfl rfl (check_guard (Toml.text_string _)) <|
      .cons rfl rfl (check_guard (Toml.text_string _)) <|
      .cons rfl rfl (check_guard (Toml.boolean_boolean _)) <|
      .cons rfl rfl (check_guard (Toml.uint64_ofUInt64 _)) <| .nil _
  rw [Defaults.read, record_of_layer hp rfl, get_named rfl, get_named rfl, get_named rfl,
    get_named rfl]
  simp only [outputField, colorField, insecureField, timeoutField, Json.defaulted,
    Toml.text_string, Toml.boolean_boolean, Toml.uint64_ofUInt64]
  rfl

namespace Profile

def toEntries (p : Profile) : List (String × Toml) := p.toToml.entries?.getD []

theorem toEntries_eq (p : Profile) : p.toEntries = [("controller", .string p.controller)] ++
    (Toml.optionalEntry "username" .string p.username ++
    (Toml.optionalEntry "password" .string p.password ++
    (Toml.optionalEntry "password_env" .string p.passwordEnv ++
    (Toml.optionalEntry "ca_cert" .string p.caCert ++
    (Toml.optionalEntry "insecure" .boolean p.insecure ++
    (Toml.optionalEntry "timeout" .ofUInt64 p.timeout ++ [])))))) := by
  simp [toEntries, toToml, Toml.entries?]

theorem toToml_eq (p : Profile) : p.toToml = .table p.toEntries := rfl

theorem lookup_toEntries (p : Profile) (name : String) :
    Toml.lookup name p.toEntries =
      if name = "controller" then some (.string p.controller)
      else if name = "username" then p.username.map .string
      else if name = "password" then p.password.map .string
      else if name = "password_env" then p.passwordEnv.map .string
      else if name = "ca_cert" then p.caCert.map .string
      else if name = "insecure" then p.insecure.map .boolean
      else if name = "timeout" then p.timeout.map .ofUInt64
      else none := by
  simp only [toEntries_eq, List.singleton_append, Toml.lookup, Toml.lookup_optionalEntry_append,
    @eq_comm _ _ name]
  grind

theorem nodup_toEntries (p : Profile) : (p.toEntries.map Prod.fst).Nodup := by
  have hsub : (p.toEntries.map Prod.fst).Sublist (["controller"] ++ (["username"] ++
      (["password"] ++ (["password_env"] ++ (["ca_cert"] ++ (["insecure"] ++
        (["timeout"] ++ []))))))) := by
    rw [toEntries_eq]
    simp only [List.map_append, List.map_cons, List.map_nil]
    exact .append (.refl _) <| .append (Toml.sublist_optionalEntry ..) <|
      .append (Toml.sublist_optionalEntry ..) <| .append (Toml.sublist_optionalEntry ..) <|
      .append (Toml.sublist_optionalEntry ..) <| .append (Toml.sublist_optionalEntry ..) <|
      .append (Toml.sublist_optionalEntry ..) <| .refl _
  exact hsub.nodup (by decide)

theorem read_toToml (p : Profile) : Profile.read p.toToml = .ok p := by
  have hp : Json.Passes [controllerField.guard, usernameField.guard, passwordField.guard,
      passwordEnvField.guard, caCertField.guard, insecureField.guard, timeoutField.guard] []
        p.toEntries := by
    refine passes_of_distinct (fun e he => ?_) (by simpa using p.nodup_toEntries)
    simp only [toEntries_eq, List.mem_append, List.mem_singleton, Toml.mem_optionalEntry,
      List.not_mem_nil, or_false] at he
    rcases he with rfl | ⟨s, -, rfl⟩ | ⟨s, -, rfl⟩ | ⟨s, -, rfl⟩ | ⟨s, -, rfl⟩ | ⟨b, -, rfl⟩ |
      ⟨n, -, rfl⟩
    · exact ⟨controllerField.guard, rfl, rfl, check_guard (Toml.text_string _)⟩
    · exact ⟨usernameField.guard, rfl, rfl, Toml.check_nullable (Toml.text_string s)⟩
    · exact ⟨passwordField.guard, rfl, rfl, Toml.check_nullable (Toml.text_string s)⟩
    · exact ⟨passwordEnvField.guard, rfl, rfl, Toml.check_nullable (Toml.text_string s)⟩
    · exact ⟨caCertField.guard, rfl, rfl, Toml.check_nullable (Toml.path_string s)⟩
    · exact ⟨insecureField.guard, rfl, rfl, Toml.check_nullable (Toml.boolean_boolean b)⟩
    · exact ⟨timeoutField.guard, rfl, rfl, Toml.check_nullable (Toml.uint64_ofUInt64 n)⟩
  have hcontroller : (Json.Parts.named p.toEntries).get controllerField = .ok p.controller := by
    rw [get_named rfl]
    rfl
  have husername : (Json.Parts.named p.toEntries).get usernameField = .ok p.username :=
    Toml.get_nullable Toml.text_string (p.lookup_toEntries _)
  have hpassword : (Json.Parts.named p.toEntries).get passwordField = .ok p.password :=
    Toml.get_nullable Toml.text_string (p.lookup_toEntries _)
  have hpasswordEnv : (Json.Parts.named p.toEntries).get passwordEnvField = .ok p.passwordEnv :=
    Toml.get_nullable Toml.text_string (p.lookup_toEntries _)
  have hcaCert : (Json.Parts.named p.toEntries).get caCertField = .ok p.caCert :=
    Toml.get_nullable Toml.path_string (p.lookup_toEntries _)
  have hinsecure : (Json.Parts.named p.toEntries).get insecureField = .ok p.insecure :=
    Toml.get_nullable Toml.boolean_boolean (p.lookup_toEntries _)
  have htimeout : (Json.Parts.named p.toEntries).get timeoutField = .ok p.timeout :=
    Toml.get_nullable Toml.uint64_ofUInt64 (p.lookup_toEntries _)
  rw [Profile.read, record_of_layer hp rfl, hcontroller, husername, hpassword, hpasswordEnv,
    hcaCert, hinsecure, htimeout]
  rfl

end Profile

namespace Config

def Ordered (ps : List (String × Profile)) : Prop := ps.Pairwise fun a b => a.1 < b.1

theorem Ordered.nodup {ps : List (String × Profile)} (h : Ordered ps) :
    (ps.map Prod.fst).Nodup :=
  List.pairwise_map.2 (h.imp fun hlt => String.ne_of_lt hlt)

theorem find?_insert (n name : String) (p : Profile) (ps : List (String × Profile)) :
    find? n (insert name p ps) = if n = name then some p else find? n ps := by
  induction ps with
  | nil => grind [insert, find?]
  | cons q ps ih =>
    obtain ⟨k, q⟩ := q
    rw [insert]
    split_ifs <;> simp only [find?] <;> grind

theorem map_insert (name : String) (p : Profile) (ps : List (String × Profile)) :
    (insert name p ps).map (fun (k, p) => (k, p.toJson)) =
      Json.insertField name p.toJson (ps.map fun (k, p) => (k, p.toJson)) := by
  induction ps with
  | nil => rfl
  | cons q ps ih =>
    obtain ⟨k, q⟩ := q
    simp only [insert, List.map_cons, Json.insertField]
    split_ifs
    · rfl
    · rfl
    · rw [List.map_cons, ih]

theorem ordered_iff {ps : List (String × Profile)} :
    Ordered ps ↔ Json.Ascending (ps.map fun (k, p) => (k, p.toJson)) := by
  rw [Json.Ascending, List.pairwise_map]
  rfl

theorem Ordered.insert {ps : List (String × Profile)} (h : Ordered ps) (name : String)
    (p : Profile) : Ordered (insert name p ps) := by
  rw [ordered_iff, map_insert]
  exact (ordered_iff.1 h).insertField name p.toJson

theorem insert_of_greatest {name : String} {p : Profile} {ps : List (String × Profile)}
    (h : ∀ q ∈ ps, q.1 < name) : insert name p ps = ps ++ [(name, p)] := by
  induction ps with
  | nil => rfl
  | cons q ps ih =>
    obtain ⟨k, q⟩ := q
    have hk : k < name := h (k, q) List.mem_cons_self
    rw [insert, if_neg (String.lt_asymm hk), if_neg (String.ne_of_lt hk).symm,
      ih fun r hr => h r (List.mem_cons_of_mem _ hr), List.cons_append]

end Config

namespace Profile

theorem readEach_toToml {ps done : List (String × Profile)} (h : Config.Ordered (done ++ ps)) :
    readEach (ps.map fun (k, p) => (.ok k, p.toToml)) done = .ok (done ++ ps) := by
  induction ps generalizing done with
  | nil => rw [List.map_nil, readEach, List.append_nil]
  | cons q ps ih =>
    obtain ⟨k, p⟩ := q
    have hgreatest : ∀ q ∈ done, q.1 < k := fun q hq =>
      (List.pairwise_append.1 h).2.2 q hq (k, p) (by simp)
    have hordered : Config.Ordered (done ++ [(k, p)] ++ ps) := by simpa using h
    rw [List.map_cons, readEach, p.read_toToml]
    change (readEach (ps.map fun (k, p) => (.ok k, p.toToml)) (Config.insert k p done)).later = _
    rw [Config.insert_of_greatest hgreatest, ih hordered, List.append_assoc, List.singleton_append,
      Json.Decoded.later_ok]

theorem readAll_toToml {ps : List (String × Profile)} (h : Config.Ordered ps) :
    readAll (Toml.table (ps.map fun (k, p) => (k, p.toToml))) = .ok ps := by
  have hlayer : Json.Source.layer (Toml.table (ps.map fun (k, p) => (k, p.toToml))) =
      .object (ps.map fun (k, p) => (.ok k, p.toToml)) none := by
    simp [Json.Source.layer, Toml.layer, Function.comp_def]
  have hread : readEach (ps.map fun (k, p) => (.ok k, p.toToml)) [] = .ok ps :=
    readEach_toToml h
  rw [readAll, hlayer]
  simp only [hread]
  rfl

end Profile

namespace Config

theorem toEntries_eq (c : Config) :
    c.toEntries = Toml.optionalEntry "default_profile" .string c.defaultProfile ++
      [("defaults", c.defaults.toToml),
        ("profiles", .table (c.profiles.map fun (k, p) => (k, p.toToml)))] := rfl

theorem read_toToml {c : Config} (h : Ordered c.profiles) : Config.read c.toToml = .ok c := by
  have hprofiles := Profile.readAll_toToml h
  have hp : Json.Passes [defaultProfileField.guard, defaultsField.guard, profilesField.guard] []
      c.toEntries := by
    have hdistinct : (c.toEntries.map Prod.fst).Nodup := by
      cases c with
      | mk name d ps => cases name <;> simp [toEntries, Toml.optionalEntry]
    refine passes_of_distinct (fun e he => ?_) (by simpa using hdistinct)
    simp only [toEntries_eq, List.mem_append, Toml.mem_optionalEntry, List.mem_cons,
      List.not_mem_nil, or_false] at he
    rcases he with ⟨s, -, rfl⟩ | rfl | rfl
    · exact ⟨defaultProfileField.guard, rfl, rfl, Toml.check_nullable (Toml.text_string s)⟩
    · exact ⟨defaultsField.guard, rfl, rfl, check_guard c.defaults.read_toToml⟩
    · exact ⟨profilesField.guard, rfl, rfl, check_guard hprofiles⟩
  have hlookup : ∀ name, Json.Parts.find? name [] c.toEntries = Toml.lookup name c.toEntries :=
    fun name => Toml.find?_eq_lookup name _
  have hname : (Json.Parts.named c.toEntries).get defaultProfileField = .ok c.defaultProfile :=
    Toml.get_nullable Toml.text_string
      (by simp [toEntries_eq, Toml.lookup_optionalEntry_append, Toml.lookup])
  have hdefaults : (Json.Parts.named c.toEntries).get defaultsField = .ok c.defaults := by
    have hfind : Json.Parts.find? "defaults" [] c.toEntries = some c.defaults.toToml := by
      rw [hlookup, toEntries_eq, Toml.lookup_optionalEntry_append]
      rfl
    rw [get_named hfind]
    exact c.defaults.read_toToml
  have hall : (Json.Parts.named c.toEntries).get profilesField = .ok c.profiles := by
    have hfind : Json.Parts.find? "profiles" [] c.toEntries =
        some (.table (c.profiles.map fun (k, p) => (k, p.toToml))) := by
      rw [hlookup, toEntries_eq, Toml.lookup_optionalEntry_append]
      rfl
    rw [get_named hfind]
    exact hprofiles
  rw [Config.read, toToml, record_of_layer hp rfl, hname, hdefaults, hall]
  rfl

end Config

end EidMap
