import EidMap.Json.Decode
import EidMap.Proofs.Paired
import EidMap.Text.Cut
import Mathlib.Data.List.Forall2

/-!
# Documents with masked secrets

The secrets of a document are the texts of its fields named `key-string`, at any depth. A reader is
blind if it fails in the same way whatever the secrets are, and else finds the same but for them.
-/

namespace EidMap.Json

open Source (layer)

namespace Doc

def secretName : String := "key-string"

def hidden (key : Except Fault String) : Doc → Doc
  | .string s => if key.toOption = some secretName then .string "****" else .string s
  | d => d

mutual
def masked : Doc → Doc
  | .array depth ds close => .array depth (maskedItems ds) close
  | .object depth fs close => .object depth (maskedFields fs) close
  | d => d

def maskedItems : List Doc → List Doc
  | [] => []
  | d :: ds => d.masked :: maskedItems ds

def maskedFields : List (Except Fault String × Doc) → List (Except Fault String × Doc)
  | [] => []
  | (key, d) :: fs => (key, d.masked.hidden key) :: maskedFields fs
end

theorem maskedItems_eq (ds : List Doc) : maskedItems ds = ds.map masked := by
  induction ds with
  | nil => rfl
  | cons d ds ih => rw [maskedItems, ih, List.map_cons]

theorem hidden_of_ne {name : String} (h : name ≠ secretName) (d : Doc) :
    d.hidden (.ok name) = d := by
  cases d with
  | string s => exact if_neg fun heq => h (Option.some.inj heq)
  | _ => rfl

theorem skip_hidden (key : Except Fault String) (d : Doc) : (d.hidden key).skip = d.skip := by
  cases d with
  | string s =>
    rw [hidden]
    split_ifs <;> rfl
  | _ => rfl

mutual
theorem skip_masked : ∀ d : Doc, d.masked.skip = d.skip
  | .array depth ds close => by rw [masked, skip, skip, skipItems_masked ds]
  | .object depth fs close => by rw [masked, skip, skip, skipFields_masked fs]
  | .null | .bool _ | .number _ | .string _ | .faulty _ _ => rfl

theorem skipItems_masked : ∀ ds : List Doc, skipItems (maskedItems ds) = skipItems ds
  | [] => rfl
  | d :: ds => by rw [maskedItems, skipItems, skipItems, skip_masked d, skipItems_masked ds]

theorem skipFields_masked : ∀ fs : List (Except Fault String × Doc),
    skipFields (maskedFields fs) = skipFields fs
  | [] => rfl
  | (key, d) :: fs => by
    rw [maskedFields, skipFields, skipFields, skipFields_masked fs, skip_hidden, skip_masked d]
end

abbrev Alike {α : Type} : Except Fault α → Except Fault α → Prop := Paired Eq fun _ _ => True

theorem capture_hidden (key : Except Fault String) (d : Doc) :
    Alike d.capture (d.hidden key).capture := by
  cases d with
  | string s =>
    rw [hidden]
    split_ifs <;> exact .ok trivial
  | _ => exact .refl (fun _ => rfl) (fun _ => trivial) _

theorem Alike.trans {α : Type} {x y z : Except Fault α} (h : Alike x y) (h' : Alike y z) :
    Alike x z := by
  cases h with
  | ok => cases h' with | ok => exact .ok trivial
  | error he => cases h' with | error he' => exact .error (he.trans he')

theorem capture_array (depth : Nat) (ds : List Doc) (close : Option Break) :
    capture (.array depth ds close) = if maxDepth < depth then .error .tooDeep
      else captureItems ds >>= fun xs => close.elim (.ok (.array xs)) fun b => .error b.read := by
  rw [capture.eq_def]
  dsimp only
  cases captureItems ds <;> cases close <;> rfl

theorem capture_object (depth : Nat) (fs : List (Except Fault String × Doc))
    (close : Option Break) :
    capture (.object depth fs close) = if maxDepth < depth then .error .tooDeep
      else captureFields fs >>= fun xs =>
        close.elim (.ok (ofFields xs)) fun b => .error b.read := by
  rw [capture.eq_def]
  dsimp only
  cases captureFields fs <;> cases close <;> rfl

mutual
theorem capture_masked : ∀ d : Doc, Alike d.capture d.masked.capture
  | .array depth ds close => by
    rw [masked, capture_array, capture_array]
    split_ifs
    · exact .error rfl
    · refine (captureItems_masked ds).bind fun _ _ _ => ?_
      cases close with
      | none => exact .ok trivial
      | some b => exact .error rfl
  | .object depth fs close => by
    rw [masked, capture_object, capture_object]
    split_ifs
    · exact .error rfl
    · refine (captureFields_masked fs).bind fun _ _ _ => ?_
      cases close with
      | none => exact .ok trivial
      | some b => exact .error rfl
  | .null | .bool _ | .number _ | .string _ => .ok trivial
  | .faulty _ _ => .error rfl

theorem captureItems_masked : ∀ ds : List Doc,
    Alike (captureItems ds) (captureItems (maskedItems ds))
  | [] => .ok trivial
  | d :: ds => by
    have hitem := capture_masked d
    have hitems := captureItems_masked ds
    rw [maskedItems, captureItems, captureItems]
    generalize capture d = x at hitem ⊢
    generalize capture d.masked = y at hitem ⊢
    cases hitem with
    | ok => exact hitems.map fun _ _ _ => trivial
    | error he => exact .error he

theorem captureFields_masked : ∀ fs : List (Except Fault String × Doc),
    Alike (captureFields fs) (captureFields (maskedFields fs))
  | [] => .ok trivial
  | (.error f, d) :: fs => .error rfl
  | (.ok key, d) :: fs => by
    have hitem := (capture_masked d).trans (capture_hidden (.ok key) d.masked)
    have hfields := captureFields_masked fs
    rw [maskedFields, captureFields, captureFields]
    generalize capture d = x at hitem ⊢
    generalize capture (d.masked.hidden (.ok key)) = y at hitem ⊢
    cases hitem with
    | ok => exact hfields.map fun _ _ _ => trivial
    | error he => exact .error he
end

end Doc

/-- A reader that fails in the same way whatever the secrets are, and else finds what belongs
together. -/
def Blind {α : Type} (read : Doc → Decoded α) (R : α → α → Prop) : Prop :=
  ∀ d, Paired Eq R (read d) (read d.masked)

abbrev Any {α : Type} (_ _ : α) : Prop := True

section Readers

variable {α : Type} {R : α → α → Prop} {read : Doc → Decoded α}

theorem blind_of_eq (h : ∀ d, read d.masked = read d) : Blind read Eq := fun d =>
  (h d).symm ▸ .refl (fun _ => rfl) (fun _ => rfl) _

theorem Blind.any (h : Blind read R) : Blind read Any := fun d => (h d).mono fun _ _ _ => trivial

theorem blind_text : Blind text Eq := blind_of_eq fun d => by cases d <;> rfl

theorem blind_boolean : Blind boolean Eq := blind_of_eq fun d => by cases d <;> rfl

theorem integerIn_masked (low high : Int) (expected : String) (d : Doc) :
    integerIn low high expected d.masked = integerIn low high expected d := by
  cases d <;> rfl

theorem blind_uint8 : Blind uint8 Eq := blind_of_eq fun d => by
  rw [uint8, uint8, integerIn_masked]

theorem blind_uint16 : Blind uint16 Eq := blind_of_eq fun d => by
  rw [uint16, uint16, integerIn_masked]

theorem blind_uint32 : Blind uint32 Eq := blind_of_eq fun d => by
  rw [uint32, uint32, integerIn_masked]

theorem blind_int16 : Blind int16 Eq := blind_of_eq fun d => integerIn_masked _ _ _ d

theorem blind_int64 : Blind int64 Eq := blind_of_eq fun d => integerIn_masked _ _ _ d

theorem value_eq (d : Doc) :
    value d = d.capture.mapError fun f => Flaw.at (.malformed f) .reading := by
  rw [value, show Source.capture d = d.capture from rfl]
  cases d.capture <;> rfl

theorem blind_value : Blind value Any := fun d => by
  rw [value_eq, value_eq]
  exact d.capture_masked.mapError fun _ _ => congrArg fun f => Flaw.at (.malformed f) .reading

theorem Blind.option (h : Blind read R) : Blind (Json.option read) (Option.Rel R) := fun d => by
  have hsome := (h d).map fun _ _ hab => Option.Rel.some hab
  cases d with
  | null => exact .ok .none
  | faulty => exact .error rfl
  | _ => exact hsome

theorem Decoded.inside_paired {x y : Decoded α} (i : Nat) (h : Paired Eq R x y) :
    Paired Eq R (x.inside i) (y.inside i) :=
  h.mapError fun _ _ he => by rw [he]

theorem Decoded.later_paired {x y : Decoded α} (h : Paired Eq R x y) :
    Paired Eq R x.later y.later :=
  h.mapError fun _ _ he => by rw [he]

theorem Blind.each (h : Blind read R) :
    ∀ ds : List Doc,
      Paired Eq (List.Forall₂ R) (Json.each read ds) (Json.each read (ds.map Doc.masked))
  | [] => .ok .nil
  | d :: ds => (Decoded.inside_paired 0 (h d)).bind fun _ _ hab =>
    (Decoded.later_paired (h.each ds)).bind fun _ _ hrest => .ok (.cons hab hrest)

theorem close_paired (fault : Option Fault) {a b : α} (h : R a b) :
    Paired Eq R (close fault a) (close fault b) := by
  cases fault with
  | none => exact .ok h
  | some f => exact .error rfl

theorem Blind.list (h : Blind read R) : Blind (Json.list read) (List.Forall₂ R) := fun d => by
  cases d with
  | array depth ds fault =>
    have hclosed := (h.each ds).bind fun _ _ hab => close_paired (fault.map Break.read) hab
    rw [← Doc.maskedItems_eq] at hclosed
    exact hclosed
  | _ => exact .error rfl

end Readers

def maskedNamed (fs : List (String × Doc)) : List (String × Doc) :=
  fs.map fun f => (f.1, f.2.masked.hidden (.ok f.1))

def Parts.masked : Parts Doc → Parts Doc
  | .named fs => .named (maskedNamed fs)
  | .placed kind names ds fault => .placed kind names (ds.map Doc.masked) fault

def Guard.Blind (g : Guard Doc) : Prop :=
  ∀ key d, g.answers key = true → g.check (d.masked.hidden (.ok key)) = g.check d

structure Field.Blind {α : Type} (f : Field Doc α) (R : α → α → Prop) : Prop where
  placed : Json.Blind f.read R
  named : ∀ key d, f.guard.answers key = true →
    Paired Eq R (f.read d) (f.read (d.masked.hidden (.ok key)))
  absent : ∀ a ∈ f.absent, R a a

section Records

variable {α : Type} {R : α → α → Prop} {f : Field Doc α} {guards : List (Guard Doc)}
  {other : Doc → Decoded Unit} {kind : String}

theorem map_eq_of_paired {β : Type} {P : β → β → Prop} {x y : Decoded β} (h : Paired Eq P x y) :
    (y.map fun _ => ()) = x.map fun _ => () := by
  cases h with
  | ok => rfl
  | error he => exact congrArg Except.error he.symm

theorem Blind.field (h : Blind f.read R) (hname : f.guard.answers Doc.secretName = false)
    (absent : ∀ a ∈ f.absent, R a a) : f.Blind R := by
  refine ⟨h, fun key d hkey => ?_, absent⟩
  have hne : key ≠ Doc.secretName := by
    rintro rfl
    rw [hname] at hkey
    cases hkey
  rw [Doc.hidden_of_ne hne]
  exact h d

theorem Blind.anyField (h : Blind f.read R) (hname : f.guard.answers Doc.secretName = false) :
    f.Blind Any :=
  h.any.field hname fun _ _ => trivial

theorem Field.Blind.guard (h : f.Blind R) : f.guard.Blind := fun key d hkey =>
  map_eq_of_paired (h.named key d hkey)

theorem walk_masked (hguards : ∀ g ∈ guards, g.Blind)
    (hother : ∀ key d, other (d.masked.hidden (.ok key)) = other d) (seen : List String)
    (fs : List (Except Fault String × Doc)) :
    walk guards other seen (Doc.maskedFields fs) = (walk guards other seen fs).map maskedNamed := by
  induction fs generalizing seen with
  | nil => rfl
  | cons field fs ih =>
    rcases field with ⟨_ | key, d⟩
    · rfl
    · rw [Doc.maskedFields, walk, walk]
      cases hfind : guards.find? (·.answers key) with
      | none =>
        dsimp only
        rw [hother, ih]
        cases other d with
        | error e => rfl
        | ok _ => cases walk guards other seen fs <;> rfl
      | some g =>
        -- the field belongs to this guard alone, so no other one sees what is hidden here
        have hcheck := hguards g (List.mem_of_find?_eq_some hfind) key d
          (List.find?_some (p := fun g : Guard Doc => g.answers key) hfind)
        dsimp only
        split_ifs
        · rfl
        · rw [hcheck, ih]
          cases g.check d with
          | error e => rfl
          | ok _ => cases walk guards other (g.name :: seen) fs <;> rfl

theorem rel_find?_masked (name : String) (aliases : List String) (fs : List (String × Doc)) :
    Option.Rel (fun d d' => ∃ key, (key == name || aliases.contains key) = true ∧
        d' = d.masked.hidden (.ok key))
      (Parts.find? name aliases fs) (Parts.find? name aliases (maskedNamed fs)) := by
  induction fs with
  | nil => exact .none
  | cons field fs ih =>
    rcases field with ⟨key, d⟩
    rw [maskedNamed, List.map_cons, Parts.find?, Parts.find?]
    split_ifs with hkey
    · exact .some ⟨key, hkey, rfl⟩
    · exact ih

theorem Field.Blind.get (h : f.Blind R) (p : Parts Doc) :
    Paired Eq R (p.get f) (p.masked.get f) := by
  cases p with
  | named fs =>
    have hfind := rel_find?_masked f.name f.aliases fs
    rw [Parts.masked, Parts.get, Parts.get]
    generalize Parts.find? f.name f.aliases fs = o at hfind ⊢
    generalize Parts.find? f.name f.aliases (maskedNamed fs) = o' at hfind ⊢
    cases hfind with
    | none =>
      cases habsent : f.absent with
      | none => exact .error rfl
      | some a => exact .ok (h.absent a habsent)
    | some hd =>
      obtain ⟨key, hkey, rfl⟩ := hd
      exact h.named key _ hkey
  | placed kind names ds fault =>
    rw [Parts.masked]
    unfold Parts.get
    dsimp only
    rw [List.getElem?_map]
    cases ds[names.idxOf f.name]? with
    | some d => exact Decoded.inside_paired _ (h.placed d)
    | none =>
      cases fault with
      | some g => exact .error rfl
      | none =>
        cases habsent : (if f.trailing = true then f.absent else none) with
        | none => exact .error rfl
        | some a =>
          have hsome : f.absent = some a := by
            split_ifs at habsent
            exact habsent
          exact .ok (h.absent a hsome)

theorem surplus_paired (count : Nat) (ds : List Doc) (fault : Option Fault) {a b : α} (h : R a b) :
    Paired Eq R (surplus count ds fault a) (surplus count (ds.map Doc.masked) fault b) := by
  unfold surplus
  rw [List.length_map]
  split_ifs
  · exact .error rfl
  · exact .error rfl
  · cases fault with
    | none => exact .ok h
    | some f => cases f <;> exact .error rfl

theorem passOver_masked (key : String) (d : Doc) :
    passOver (d.masked.hidden (.ok key)) = passOver d := by
  rw [passOver, passOver, show Source.skip (d.masked.hidden (.ok key)) = Source.skip d from
    (Doc.skip_hidden _ _).trans (Doc.skip_masked d)]

theorem text_hidden (key : String) (d : Doc) :
    Paired Eq Any (text d) (text (d.masked.hidden (.ok key))) := by
  cases d with
  | string s =>
    change Paired Eq Any (text (Doc.string s)) (text ((Doc.string s).hidden (.ok key)))
    rw [Doc.hidden]
    split_ifs <;> exact .ok trivial
  | _ => exact blind_text.any _

theorem value_hidden (key : String) (d : Doc) :
    Paired Eq Any (value d) (value (d.masked.hidden (.ok key))) := by
  rw [value_eq, value_eq]
  exact (d.capture_masked.trans (Doc.capture_hidden (.ok key) d.masked)).mapError
    fun _ _ => congrArg fun f => Flaw.at (.malformed f) .reading

theorem blind_record {build : Parts Doc → Decoded α} (hguards : ∀ g ∈ guards, g.Blind)
    (hbuild : ∀ p, Paired Eq R (build p) (build p.masked)) :
    Blind (record kind guards build) R := fun d => by
  cases d with
  | object depth fs fault =>
    change Paired Eq R (walk guards passOver [] fs >>= fun fields =>
        close (fault.map Break.read) () >>= fun _ => build (.named fields))
      (walk guards passOver [] (Doc.maskedFields fs) >>= fun fields =>
        close (fault.map Break.read) () >>= fun _ => build (.named fields))
    rw [walk_masked hguards passOver_masked]
    cases walk guards passOver [] fs with
    | error e => exact .error rfl
    | ok fields =>
      cases fault with
      | none => exact hbuild (.named fields)
      | some b => exact .error rfl
  | array depth ds fault =>
    change Paired Eq R (build (.placed kind (guards.map (·.name)) ds (fault.map Break.read)) >>=
        surplus guards.length ds (fault.map Break.read))
      (build (.placed kind (guards.map (·.name)) (Doc.maskedItems ds) (fault.map Break.read)) >>=
        surplus guards.length (Doc.maskedItems ds) (fault.map Break.read))
    rw [Doc.maskedItems_eq]
    exact (hbuild (.placed kind (guards.map (·.name)) ds (fault.map Break.read))).bind
      fun _ _ => surplus_paired _ ds _
  | _ => exact .error rfl

theorem filter_masked (p : String → Bool) (fs : List (String × Doc)) :
    (maskedNamed fs).filter (fun f => p f.1) = maskedNamed (fs.filter fun f => p f.1) := by
  rw [maskedNamed, maskedNamed, List.filter_map]
  rfl

theorem mapM_masked (fs : List (String × Doc)) :
    Paired Eq Any (fs.mapM fun f => (return (f.1, ← value f.2) : Decoded (String × Json)))
      ((maskedNamed fs).mapM fun f => (return (f.1, ← value f.2) : Decoded (String × Json))) := by
  induction fs with
  | nil => exact .ok trivial
  | cons f fs ih =>
    rw [maskedNamed, List.map_cons, List.mapM_cons, List.mapM_cons]
    exact ((value_hidden f.1 f.2).bind (Q := Any) fun _ _ _ => .ok trivial).bind
      fun _ _ _ => ih.bind fun _ _ _ => .ok trivial

theorem blind_openRecord {build : Parts Doc → List (String × Json) → Decoded α}
    (hguards : ∀ g ∈ guards, g.Blind)
    (hbuild : ∀ p extra extra', Paired Eq R (build p extra) (build p.masked extra')) :
    Blind (openRecord kind guards build) R := fun d => by
  cases d with
  | object depth fs fault =>
    have hopen : ∀ gs : List (Except Fault String × Doc),
        openRecord kind guards build (.object depth gs fault) =
          (walk guards (fun d => (value d).map fun _ => ()) [] gs >>= fun fields =>
            close (fault.map Break.read) () >>= fun _ =>
              ((fields.filter fun f => !guards.any (·.answers f.1)).mapM fun f =>
                (return (f.1, ← value f.2) : Decoded (String × Json))) >>= fun kept =>
                  build (.named fields) (sortFields kept)) := fun gs => rfl
    rw [Doc.masked, hopen, hopen, walk_masked hguards fun key d =>
      map_eq_of_paired (value_hidden key d)]
    cases walk guards (fun d => (value d).map fun _ => ()) [] fs with
    | error e => exact .error rfl
    | ok fields =>
      cases fault with
      | none =>
        have hkept := mapM_masked (fields.filter fun f => !guards.any (·.answers f.1))
        rw [← filter_masked fun key => !guards.any (·.answers key)] at hkept
        exact hkept.bind fun _ _ _ => hbuild _ _ _
      | some b => exact .error rfl
  | _ => exact .error rfl

end Records

/-- Texts that are the same but for the texts of secrets. A text that is no document is compared as
far as it is one; what follows a document is not masked. -/
structure SameButSecrets (s s' : String) : Prop where
  document : (Doc.ofText s').1.masked = (Doc.ofText s).1.masked
  rest : (Doc.ofText s').2 = (Doc.ofText s).2
  blank : (Text.trim s'.toList).isEmpty = (Text.trim s.toList).isEmpty

theorem Blind.decodeText {α : Type} {R Q : α → α → Prop} {read : Doc → Decoded α}
    (h : Blind read R) (both : ∀ a b c, R a c → R b c → Q a b) {s s' : String}
    (same : SameButSecrets s s') :
    Paired Eq Q (Json.decodeText read s) (Json.decodeText read s') := by
  obtain ⟨hdocument, hrest, -⟩ := same
  have hleft := h (Doc.ofText s).1
  have hright := h (Doc.ofText s').1
  rw [hdocument] at hright
  rw [Json.decodeText, Json.decodeText]
  generalize Doc.ofText s = x at hleft hrest hright ⊢
  generalize Doc.ofText s' = x' at hright hrest ⊢
  rcases x with ⟨d, rest⟩
  rcases x' with ⟨d', rest'⟩
  cases hrest
  dsimp only at hleft hright ⊢
  have hjoin := hleft.join hright
  generalize read d = x at hjoin ⊢
  generalize read d' = x' at hjoin ⊢
  cases hjoin with
  | error he => exact .error he
  | ok hab =>
    obtain ⟨c, hac, hbc⟩ := hab
    dsimp only
    split_ifs
    · exact .ok (both _ _ _ hac hbc)
    · exact .error rfl

end EidMap.Json
