import EidMap.Json.Parts
import Mathlib.Data.List.Forall2

/-!
# Members of a document

What a record read from a document holds in a field is what the reader of the field makes of one
member of the document: the first under a name of the field, or the one at the place of the field in
an array. A list read from a document holds one value for each element, in order.
-/

namespace EidMap.Json

namespace Doc

def member? (d : Doc) (names : List String) (place : Nat) : Option Doc :=
  match d with
  | .object _ fs _ => (fs.find? fun f => f.1.toOption.any names.contains).map Prod.snd
  | .array _ ds _ => ds[place]?
  | _ => none

def elements : Doc → List Doc
  | .array _ ds _ => ds
  | _ => []

def string? : Doc → Option String
  | .string s => some s
  | _ => none

end Doc

theorem walk_eq_ok {δ : Type} {guards : List (Guard δ)} {other : δ → Decoded Unit}
    {seen : List String} {fs : List (Except Fault String × δ)} {out : List (String × δ)}
    (h : walk guards other seen fs = .ok out) : fs = out.map fun f => (.ok f.1, f.2) := by
  induction fs generalizing seen out with
  | nil =>
    cases h
    rfl
  | cons f fs ih =>
    obtain ⟨key | key, d⟩ := f
    · cases h
    · obtain ⟨_, rest, hrest, rfl, -⟩ := walk_cons_eq_ok h
      rw [ih hrest, List.map_cons]

@[simp]
theorem close_eq_ok {α : Type} {fault : Option Fault} {a b : α} :
    close fault a = .ok b ↔ fault = none ∧ a = b := by
  cases fault <;> simp [Json.close]

theorem surplus_eq_ok {α : Type} {count : Nat} {ds : List Doc} {fault : Option Fault} {a b : α} :
    surplus count ds fault a = .ok b ↔ ds.length ≤ count ∧ fault = none ∧ a = b := by
  have hdoc : (decide (count < ds.length) && !Source.generous Doc) = decide (count < ds.length) :=
    Bool.and_true _
  unfold surplus
  rw [hdoc]
  by_cases hlong : count < ds.length
  · rw [if_pos (decide_eq_true hlong)]
    exact ⟨nofun, fun h => absurd h.1 (Nat.not_le.2 hlong)⟩
  · rw [if_neg (by simpa using hlong)]
    split <;> simp [Nat.not_lt.1 hlong]

/-- The parts of a document as a record sees them: its fields, or its elements in the order of the
fields of the record. -/
inductive IsParts (names : List String) : Doc → Parts Doc → Prop
  | named (depth : Nat) (fs : List (String × Doc)) (close : Option Break) :
    IsParts names (.object depth (fs.map fun f => (.ok f.1, f.2)) close) (.named fs)
  | placed (depth : Nat) (ds : List Doc) (close : Option Break) (kind : String)
    (fault : Option Fault) : IsParts names (.array depth ds close) (.placed kind names ds fault)

theorem isParts_of_record {α : Type} {kind : String} {guards : List (Guard Doc)}
    {build : Parts Doc → Decoded α} {d : Doc} {a : α} (h : record kind guards build d = .ok a) :
    ∃ p, IsParts (guards.map (·.name)) d p ∧ build p = .ok a := by
  cases d with
  | object depth fs close =>
    obtain ⟨out, hw, h⟩ := bind_eq_ok.1 h
    obtain ⟨_, _, h⟩ := bind_eq_ok.1 h
    rw [walk_eq_ok hw]
    exact ⟨.named out, .named depth out close, h⟩
  | array depth ds close =>
    obtain ⟨b, hb, h⟩ := bind_eq_ok.1 h
    obtain ⟨-, -, rfl⟩ := surplus_eq_ok.1 h
    exact ⟨_, .placed depth ds close kind _, hb⟩
  | _ => cases h

theorem keys_of_mapM_value {fs : List (String × Doc)} {out : List (String × Json)}
    (h : (fs.mapM fun (k, d) => return (k, ← value d) : Decoded (List (String × Json))) = .ok out) :
    out.map Prod.fst = fs.map Prod.fst := by
  induction fs generalizing out with
  | nil =>
    cases h
    rfl
  | cons f fs ih =>
    rw [List.mapM_cons] at h
    obtain ⟨g, hg, h⟩ := bind_eq_ok.1 h
    obtain ⟨v, -, hg⟩ := bind_eq_ok.1 hg
    obtain ⟨gs, hgs, h⟩ := bind_eq_ok.1 h
    cases hg
    cases h
    rw [List.map_cons, List.map_cons, ih hgs]

theorem isParts_of_openRecord {α : Type} {kind : String} {guards : List (Guard Doc)}
    {build : Parts Doc → List (String × Json) → Decoded α} {d : Doc} {a : α}
    (h : openRecord kind guards build d = .ok a) :
    ∃ p extra, IsParts (guards.map (·.name)) d p ∧ build p (sortFields extra) = .ok a ∧
      ∀ k ∈ extra.map Prod.fst, guards.any (·.answers k) = false := by
  cases d with
  | object depth fs close =>
    obtain ⟨out, hw, h⟩ := bind_eq_ok.1 h
    obtain ⟨_, _, h⟩ := bind_eq_ok.1 h
    obtain ⟨kept, hkept, h⟩ := bind_eq_ok.1 h
    rw [walk_eq_ok hw]
    refine ⟨.named out, kept, .named depth out close, h, fun k hk => ?_⟩
    rw [keys_of_mapM_value hkept] at hk
    obtain ⟨f, hf, rfl⟩ := List.mem_map.1 hk
    simpa using (List.mem_filter.1 hf).2
  | _ => cases h

def Parts.member? {δ : Type} (name : String) (aliases : List String) : Parts δ → Option δ
  | .named fs => find? name aliases fs
  | .placed _ names ds _ => ds[names.idxOf name]?

theorem Parts.get_eq_ok {δ α : Type} {p : Parts δ} {f : Field δ α} {a : α} (h : p.get f = .ok a) :
    (∃ m, p.member? f.name f.aliases = some m ∧ f.read m = .ok a) ∨
      p.member? f.name f.aliases = none ∧ f.absent = some a := by
  cases p with
  | named fs =>
    simp only [Parts.get] at h
    split at h
    · rename_i m hm
      exact .inl ⟨m, hm, h⟩
    · rename_i b hm hb
      cases h
      exact .inr ⟨hm, hb⟩
    · cases h
  | placed kind names ds fault =>
    simp only [Parts.get] at h
    split at h
    · rename_i m hm
      exact .inl ⟨m, hm, Decoded.inside_eq_ok.1 h⟩
    · cases h
    · rename_i hm hb
      cases h
      refine .inr ⟨hm, ?_⟩
      split_ifs at hb
      exact hb
    · cases h

theorem find?_member (name : String) (aliases : List String) (fs : List (String × Doc)) :
    ((fs.map fun f => (Except.ok f.1, f.2)).find? fun f : Except Fault String × Doc =>
      f.1.toOption.any (name :: aliases).contains).map Prod.snd = Parts.find? name aliases fs := by
  induction fs with
  | nil => rfl
  | cons f fs ih =>
    obtain ⟨k, d⟩ := f
    rw [List.map_cons, List.find?_cons, Parts.find?, ← ih]
    have hk : (Except.ok k : Except Fault String).toOption.any (name :: aliases).contains =
        (k == name || aliases.contains k) := rfl
    rw [hk]
    cases k == name || aliases.contains k <;> rfl

variable {names : List String} {d : Doc} {p : Parts Doc} {α : Type} {a : α}

theorem IsParts.member?_eq (hp : IsParts names d p) (name : String) (aliases : List String) :
    p.member? name aliases = d.member? (name :: aliases) (names.idxOf name) := by
  cases hp with
  | named depth fs close => rw [Doc.member?, find?_member, Parts.member?]
  | placed depth ds close kind fault => rfl

theorem IsParts.get (hp : IsParts names d p) {f : Field Doc α} (h : p.get f = .ok a) :
    (∃ m, d.member? (f.name :: f.aliases) (names.idxOf f.name) = some m ∧ f.read m = .ok a) ∨
      d.member? (f.name :: f.aliases) (names.idxOf f.name) = none ∧ f.absent = some a := by
  rw [← hp.member?_eq]
  exact Parts.get_eq_ok h

theorem IsParts.get_required (hp : IsParts names d p) {name : String} {read : Doc → Decoded α}
    (h : p.get (required name read) = .ok a) :
    ∃ m, d.member? [name] (names.idxOf name) = some m ∧ read m = .ok a := by
  rcases hp.get h with hm | ⟨-, hb⟩
  · exact hm
  · cases hb

theorem IsParts.get_defaulted (hp : IsParts names d p) {name : String} {read : Doc → Decoded α}
    {b : α} (h : p.get (defaulted name read b) = .ok a) :
    (∃ m, d.member? [name] (names.idxOf name) = some m ∧ read m = .ok a) ∨
      d.member? [name] (names.idxOf name) = none ∧ a = b := by
  rcases hp.get h with hm | ⟨hm, hb⟩
  · exact .inl hm
  · cases hb
    exact .inr ⟨hm, rfl⟩

theorem string?_of_text {s : String} (h : text d = .ok s) : d.string? = some s := by
  cases d with
  | string t =>
    cases h
    rfl
  | _ => cases h

theorem capture_of_value {v : Json} (h : value d = .ok v) : d.capture = .ok v := by
  have hc : Source.capture d = d.capture := rfl
  simp only [value, hc] at h
  split at h
  · cases h
    assumption
  · cases h

theorem forall₂_of_each {δ : Type} {read : δ → Decoded α} {ds : List δ} {as : List α}
    (h : each read ds = .ok as) : List.Forall₂ (fun d a => read d = .ok a) ds as := by
  induction ds generalizing as with
  | nil =>
    cases h
    exact .nil
  | cons d ds ih =>
    obtain ⟨b, hb, h⟩ := bind_eq_ok.1 h
    obtain ⟨bs, hbs, h⟩ := bind_eq_ok.1 h
    cases h
    exact .cons (Decoded.inside_eq_ok.1 hb) (ih (Decoded.later_eq_ok.1 hbs))

theorem forall₂_of_list {read : Doc → Decoded α} {as : List α} (h : list read d = .ok as) :
    List.Forall₂ (fun d a => read d = .ok a) d.elements as := by
  cases d with
  | array depth ds close =>
    obtain ⟨bs, hbs, h⟩ := bind_eq_ok.1 h
    obtain ⟨-, rfl⟩ := close_eq_ok.1 h
    exact forall₂_of_each hbs
  | _ => cases h

theorem read_of_decodeText {read : Doc → Decoded α} {s : String} (h : decodeText read s = .ok a) :
    read (Doc.ofText s).1 = .ok a := by
  simp only [decodeText] at h
  split at h
  · cases h
  · rename_i b hb
    split at h <;> cases h
    exact hb

end EidMap.Json
