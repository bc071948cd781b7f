import EidMap.Config.File
import EidMap.Proofs.Config.Reading
import EidMap.Proofs.Json.Member
import EidMap.Proofs.Toml.Document

/-!
# Configurations saved and loaded

A configuration that was loaded names a default profile and keeps its profiles in the order of their
names. Every such configuration that was saved is loaded again as it was, where the environment has
nothing to say.
-/

namespace EidMap

namespace Environment

def Silent (env : Environment) : Prop := ∀ v ∈ env, path? v.1 = none

theorem path?_ne_nil {name : String} {path : List String} (h : path? name = some path) :
    path ≠ [] := by
  have hpieces : ∀ cs, Text.pieces '.' cs ≠ [] := by
    intro cs
    cases cs with
    | nil => simp [Text.pieces]
    | cons c cs =>
      rw [Text.pieces]
      split_ifs
      · simp
      · split <;> simp
  simp only [path?] at h
  split_ifs at h
  cases h
  simpa using hpieces _

theorem exists_settings (env : Environment) : ∃ es, env.settings = .table es := by
  rw [settings]
  generalize hnone : ([] : List (String × Toml)) = start
  clear hnone
  induction env generalizing start with
  | nil => exact ⟨start, rfl⟩
  | cons v env ih =>
    obtain ⟨name, text⟩ := v
    rw [List.foldl_cons]
    simp only
    split
    · rename_i path hpath
      obtain ⟨k, ks, rfl⟩ := List.exists_cons_of_ne_nil (path?_ne_nil hpath)
      rw [Toml.nest, List.foldr_cons, Toml.merge]
      exact ih _
    · exact ih start

theorem settings_of_silent {env : Environment} (h : env.Silent) : env.settings = .table [] := by
  rw [settings]
  induction env with
  | nil => rfl
  | cons v env ih =>
    rw [List.foldl_cons]
    simp only [h v (by simp)]
    exact ih fun w hw => h w (by simp [hw])

end Environment

namespace Config

theorem exists_fileTree {file : Option String} {t : Toml} (h : fileTree file = .ok t) :
    ∃ es, t = .table es := by
  cases file with
  | none =>
    cases h
    exact ⟨[], rfl⟩
  | some text =>
    simp only [fileTree] at h
    split at h
    · rename_i t' hread
      cases h
      obtain ⟨d, -, hd⟩ := Option.map_eq_some_iff.1 hread
      exact ⟨_, hd.symm⟩
    · cases h

theorem load_eq_ok {file : Option String} {env : Environment} {c : Config}
    (h : load file env = .ok c) :
    ∃ es, fileTree file = .ok (.table es) ∧
      Config.read ((builtIn.toToml.merge (.table es)).merge env.settings) = .ok c := by
  cases hfile : fileTree file with
  | error e =>
    rw [load, hfile] at h
    cases h
  | ok t =>
    obtain ⟨es, rfl⟩ := exists_fileTree hfile
    rw [load, hfile] at h
    change ofTree _ = .ok c at h
    rw [ofTree] at h
    split at h
    · rename_i c' hread
      cases h
      exact ⟨es, rfl, hread⟩
    · cases h

theorem load_of_silent (file : Option String) {env : Environment} (h : env.Silent) :
    load file env = load file [] := by
  rw [load, load, Environment.settings_of_silent h]
  rfl

/-- A default profile is named, and the profiles are in the order of their names. -/
structure Complete (c : Config) : Prop where
  named : ∃ name, c.defaultProfile = some name
  ordered : Ordered c.profiles

theorem complete_builtIn : Complete builtIn := ⟨⟨"default", rfl⟩, List.Pairwise.nil⟩

theorem Complete.setProfile {c : Config} (h : Complete c) (name : String) (p : Profile) :
    Complete (c.setProfile name p) := ⟨h.named, h.ordered.insert name p⟩

theorem Complete.use {c : Config} (h : Complete c) (name : String) :
    Complete { c with defaultProfile := some name } := ⟨⟨name, rfl⟩, h.ordered⟩

theorem ordered_of_readEach {fs : List (Except Json.Fault String × Toml)}
    {done ps : List (String × Profile)} (h : Profile.readEach fs done = .ok ps)
    (ordered : Ordered done) : Ordered ps := by
  induction fs generalizing done with
  | nil =>
    cases h
    exact ordered
  | cons f fs ih =>
    obtain ⟨k | k, d⟩ := f
    · cases h
    · obtain ⟨p, -, h⟩ := Json.bind_eq_ok.1 h
      exact ih (Json.Decoded.later_eq_ok.1 h) (ordered.insert k p)

theorem ordered_of_readAll {t : Toml} {ps : List (String × Profile)}
    (h : Profile.readAll t = .ok ps) : Ordered ps := by
  rw [Profile.readAll] at h
  split at h
  · obtain ⟨qs, hqs, h⟩ := Json.bind_eq_ok.1 h
    simp only [Json.close] at h
    split at h
    · cases h
      exact ordered_of_readEach hqs .nil
    · cases h
  · cases h

theorem complete_of_read {es : List (String × Toml)} {c : Config}
    (named : (Toml.lookup "default_profile" es).isSome) (h : Config.read (Toml.table es) = .ok c) :
    Complete c := by
  obtain ⟨fields, hwalk, hclose⟩ := Json.bind_eq_ok.1 h
  obtain ⟨_, _, hbuild⟩ := Json.bind_eq_ok.1 hclose
  obtain ⟨name, hname, hbuild⟩ := Json.bind_eq_ok.1 hbuild
  obtain ⟨d, -, hbuild⟩ := Json.bind_eq_ok.1 hbuild
  obtain ⟨ps, hps, hbuild⟩ := Json.bind_eq_ok.1 hbuild
  cases hbuild
  -- The walk keeps every field, so the default profile that was laid under is among them.
  have hfields : es = fields := by
    refine List.map_injective_iff.2 ?_ (Json.walk_eq_ok hwalk)
    rintro ⟨k, v⟩ ⟨k', v'⟩ heq
    cases heq
    rfl
  refine ⟨?_, ?_⟩
  · obtain ⟨t, ht⟩ := Option.isSome_iff_exists.1 named
    have hfind : Json.Parts.find? "default_profile" [] fields = some t :=
      (Toml.find?_eq_lookup _ _).trans (hfields ▸ ht)
    have hread : Json.option Json.text t = .ok name := (Json.get_named hfind).symm.trans hname
    rw [Toml.option_eq] at hread
    obtain ⟨s, -, rfl⟩ := Json.map_eq_ok.1 hread
    exact ⟨s, rfl⟩
  · rcases Json.Parts.get_eq_ok hps with ⟨t, -, hread⟩ | ⟨-, habsent⟩
    · exact ordered_of_readAll hread
    · cases habsent
      exact .nil

theorem complete_of_load {file : Option String} {env : Environment} {c : Config}
    (h : load file env = .ok c) : Complete c := by
  obtain ⟨es, -, hread⟩ := load_eq_ok h
  obtain ⟨settings, hsettings⟩ := env.exists_settings
  rw [hsettings, toToml, Toml.merge, Toml.merge] at hread
  exact complete_of_read (Toml.isSome_lookup_mergeEntries
    (Toml.isSome_lookup_mergeEntries rfl es) settings) hread

theorem complete_loadOrBuiltIn (file : Option String) (env : Environment) :
    Complete (loadOrBuiltIn file env) := by
  rw [loadOrBuiltIn]
  split
  · exact complete_of_load ‹_›
  · exact complete_builtIn

def timeouts (c : Config) : List UInt64 :=
  c.defaults.timeout :: c.profiles.filterMap fun (_, p) => p.timeout

theorem fits_iff {c : Config} : c.fits = true ↔ ∀ t ∈ c.timeouts, t.toNat < Nat.pow 2 63 := by
  have hstorable : ∀ t : UInt64, isStorable t = true ↔ t.toNat < Nat.pow 2 63 := fun t =>
    decide_eq_true_iff
  simp only [fits, timeouts, Bool.and_eq_true, List.all_eq_true, Option.all_eq_true,
    List.forall_mem_cons, List.mem_filterMap, hstorable]
  refine and_congr_right fun _ => ⟨?_, ?_⟩
  · rintro h t ⟨e, he, ht⟩
    exact h e he t ht
  · intro h e he t ht
    exact h t ⟨e, he, ht⟩

theorem isLeaf_ofUInt64 {n : UInt64} (h : isStorable n = true) : Toml.IsLeaf (.ofUInt64 n) :=
  .natural (of_decide_eq_true h)

theorem legible_defaults {d : Defaults} (h : isStorable d.timeout = true) (depth : Nat) :
    Toml.Legible (depth + 1) (d.toToml.entries?.getD []) := by
  refine Toml.legible_of_leaves (fun e he => ?_) (by simp [Defaults.toToml, Toml.entries?]) depth
  simp only [Defaults.toToml, Toml.entries?, Option.getD_some, List.mem_cons, List.not_mem_nil,
    or_false] at he
  rcases he with rfl | rfl | rfl | rfl
  · exact .string _
  · exact .string _
  · exact .boolean _
  · exact isLeaf_ofUInt64 h

theorem legible_profile {p : Profile} (h : p.timeout.all isStorable = true) (depth : Nat) :
    Toml.Legible (depth + 1) p.toEntries := by
  refine Toml.legible_of_leaves (fun e he => ?_) p.nodup_toEntries depth
  simp only [p.toEntries_eq, List.mem_append, List.mem_singleton, Toml.mem_optionalEntry,
    List.not_mem_nil, or_false] at he
  rcases he with rfl | ⟨s, -, rfl⟩ | ⟨s, -, rfl⟩ | ⟨s, -, rfl⟩ | ⟨s, -, rfl⟩ | ⟨b, -, rfl⟩ |
    ⟨n, hn, rfl⟩
  · exact .string _
  · exact .string _
  · exact .string _
  · exact .string _
  · exact .string _
  · exact .boolean _
  · exact isLeaf_ofUInt64 (by simpa [hn] using h)

theorem legible_profiles {ps : List (String × Profile)} (ordered : Ordered ps)
    (h : ps.all (fun (_, p) => p.timeout.all isStorable) = true) (depth : Nat) :
    Toml.Legible (depth + 2) (Toml.tables (ps.map fun (k, p) => (k, p.toEntries))) := by
  refine Toml.legible_of_tables (fun t ht => ?_)
    (by simpa [Function.comp_def] using ordered.nodup)
  obtain ⟨⟨k, p⟩, hp, rfl⟩ := List.mem_map.1 ht
  exact legible_profile (List.all_eq_true.1 h (k, p) hp) depth

theorem tables_toEntries (ps : List (String × Profile)) :
    Toml.tables (ps.map fun (k, p) => (k, p.toEntries)) = ps.map fun (k, p) => (k, p.toToml) := by
  simp [Toml.tables, Function.comp_def, Profile.toToml_eq]

theorem read?_save {c : Config} (h : Complete c) {text : String} (saved : c.save = .ok text) :
    Toml.read? text = some c.toToml := by
  obtain ⟨⟨name, hname⟩, hordered⟩ := h
  rw [save] at saved
  split_ifs at saved with hfits
  cases saved
  obtain ⟨hdefaults, hprofiles⟩ := Bool.and_eq_true_iff.1 hfits
  have hleaf : ∀ e ∈ [("default_profile", Toml.string name)], Toml.IsLeaf e.2 := by
    simpa using .string name
  have hentries : c.toEntries = [("default_profile", .string name)] ++ Toml.tables
      [("defaults", c.defaults.toToml.entries?.getD []),
        ("profiles", Toml.tables (c.profiles.map fun (k, p) => (k, p.toEntries)))] := by
    rw [tables_toEntries]
    simp [toEntries, hname, Toml.optionalEntry, Toml.tables, Defaults.toToml, Toml.entries?]
  rw [toToml, hentries]
  refine Toml.read?_documentText hleaf (by simp) (fun t ht => ?_) (by simp)
  simp only [List.mem_cons, List.not_mem_nil, or_false] at ht
  rcases ht with rfl | rfl
  · exact legible_defaults hdefaults _
  · exact legible_profiles hordered hprofiles _

theorem mergeEntries_profiles {ps : List (String × Profile)} (h : Ordered ps) :
    Toml.mergeEntries [] (ps.map fun (k, p) => (k, p.toToml)) =
      ps.map fun (k, p) => (k, p.toToml) :=
  Toml.mergeEntries_fresh (by simpa [Function.comp_def] using h.nodup)

theorem merge_builtIn {c : Config} (h : Complete c) : builtIn.toToml.merge c.toToml = c.toToml := by
  obtain ⟨⟨name, hname⟩, hordered⟩ := h
  simp [toToml, toEntries, hname, Toml.optionalEntry, builtIn, Defaults.toToml, Toml.ofUInt64,
    Toml.merge, Toml.mergeEntries, Toml.lookup, Toml.put, Toml.entries?,
    mergeEntries_profiles hordered]

theorem load_save {c : Config} (h : Complete c) {text : String} (saved : c.save = .ok text)
    {env : Environment} (silent : env.Silent) : load (some text) env = .ok c := by
  have htree : fileTree (some text) = .ok c.toToml := by
    rw [fileTree]
    simp only [read?_save h saved]
  rw [load, htree, Environment.settings_of_silent silent]
  change ofTree ((builtIn.toToml.merge c.toToml).merge (.table [])) = .ok c
  rw [merge_builtIn h, toToml, Toml.merge_empty, ofTree, ← toToml, read_toToml h.ordered]

end Config

end EidMap
