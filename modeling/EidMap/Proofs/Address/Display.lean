import EidMap.Address.Parse
import EidMap.Proofs.Address.Simple

/-!
# Display text that is read back

The text of a plain address is a label, a colon and a body, and the body is read under its label. An
instance puts brackets in front and a mask length behind, which are cut off again whatever stands
between them. On the other side every address that is read is plain, or an instance around a plain
one, with what its family asks for. Both together say exactly which addresses survive being
displayed and read.
-/

namespace EidMap.Address

open Text (digits isHex isBlank)

def arrow : List Char := ['=', '>']

/-- Plain addresses whose text can be read: mask lengths in range, MAC addresses of the right form
and names of at least one character. -/
def Legible : Address → Prop
  | .noAddress | .asNumber _ => True
  | .ipv4 _ length => ∀ n ∈ length, n ≤ 32
  | .ipv6 _ length => ∀ n ∈ length, n ≤ 128
  | .mac text => isMac text.toList = true
  | .distinguishedName name => name ≠ ""
  | _ => False

/-- Addresses that are read back from their text. A name that stands alone must hold no arrow and
must not end in white space. -/
def Printable : Address → Prop
  | .instanceId _ _ a => a.Legible
  | .distinguishedName name =>
    name ≠ "" ∧ ¬ arrow <:+: name.toList ∧ ∀ c ∈ name.toList.getLast?, isBlank c = false
  | a => a.Legible

theorem isScalar_of_legible {a : Address} (h : a.Legible) : a.isScalar = true := by
  cases a <;> first | rfl | exact h.elim

def label : Address → String
  | .noAddress => "no"
  | .ipv4 .. => "ipv4"
  | .ipv6 .. => "ipv6"
  | .mac _ => "mac"
  | .distinguishedName _ => "dn"
  | .asNumber _ => "as"
  | _ => ""

def body : Address → String
  | .noAddress => "No Address Present"
  | .ipv4 v length => String.ofList (lengthened v.text length)
  | .ipv6 v length => String.ofList (lengthened v.text length)
  | .mac text => text
  | .distinguishedName name => name
  | .asNumber n => "AS" ++ Text.natText n.toNat
  | _ => ""

theorem ipText_eq (tag : String) (host : List Char) (length : Option UInt8) :
    ipText tag (String.ofList host) length =
      tag ++ ":" ++ String.ofList (lengthened host length) := by
  apply String.toList_inj.1
  cases length with
  | none => simp [ipText, lengthened]
  | some n => simp [ipText, masked, lengthened, Text.natText]

theorem display_eq {a : Address} (h : a.isScalar = true) :
    a.display = a.label ++ ":" ++ a.body := by
  cases a with
  | noAddress => simp only [display, label, body]; rfl
  | ipv4 v length => simp only [display, ipText_eq, label, body]
  | ipv6 v length => simp only [display, ipText_eq, label, body]
  | mac text => simp only [display, label, body]; rfl
  | distinguishedName name => simp only [display, label, body]; rfl
  | asNumber n => simp only [display, label, body, String.append_assoc]; rfl
  | _ => cases h

theorem toList_display {a : Address} (h : a.isScalar = true) :
    a.display.toList = a.label.toList ++ ':' :: a.body.toList := by
  simp [display_eq h]

theorem colon_not_mem_label (a : Address) : ':' ∉ a.label.toList := by
  cases a <;> simp [label]

theorem arrow_not_infix {cs : List Char} (h : '=' ∉ cs) : ¬ arrow <:+: cs :=
  fun hi => h (hi.subset (by decide))

theorem arrow_infix_body {a : Address} (h : arrow <:+: a.label.toList ++ ':' :: a.body.toList) :
    arrow <:+: a.body.toList := by
  have peel : ∀ (c : Char) (cs : List Char), c ≠ '=' → arrow <:+: c :: cs → arrow <:+: cs := by
    intro c cs hc hi
    rcases List.infix_cons_iff.1 hi with hp | hi
    · exact absurd (List.cons_prefix_cons.1 hp).1.symm hc
    · exact hi
  have hl : '=' ∉ a.label.toList := by cases a <;> simp [label]
  generalize a.label.toList = cs at h hl
  induction cs with
  | nil => exact peel ':' _ (by decide) h
  | cons c cs ih =>
    have hc : c ≠ '=' := fun hc => hl (by simp [hc])
    exact ih (peel c _ hc h) fun hm => hl (by simp [hm])

def Solid (c : Char) : Prop := isBlank c = false ∧ c ≠ '='

instance : DecidablePred Solid := fun _ => inferInstanceAs (Decidable (_ ∧ _))

theorem solid_of_isHex {c : Char} (h : isHex c = true) : Solid c := by
  have hn := Text.toNat_of_isHex h
  constructor
  · simp only [isBlank, Bool.or_eq_false_iff, Bool.and_eq_false_iff, decide_eq_false_iff_not,
      beq_eq_false_iff_ne]
    omega
  · rintro rfl
    cases h

theorem solid_digits {n : Nat} {c : Char} (h : c ∈ digits n) : Solid c :=
  solid_of_isHex (Text.isHex_of_isDigit (Text.isDigit_of_mem_digits h))

theorem solid_lengthened {host : List Char} (h : ∀ c ∈ host, Solid c) (length : Option UInt8) :
    ∀ c ∈ lengthened host length, Solid c := by
  cases length with
  | none => exact h
  | some n =>
    intro c hc
    rw [lengthened, List.mem_append, List.mem_cons] at hc
    rcases hc with hc | rfl | hc
    · exact h c hc
    · exact ⟨rfl, by decide⟩
    · exact solid_digits hc

theorem solid_v4 {v : Ip.V4} : ∀ c ∈ v.text, Solid c := by
  intro c h
  rcases Ip.V4.mem_text h with h | rfl
  · exact solid_of_isHex (Text.isHex_of_isDigit h)
  · exact ⟨rfl, by decide⟩

theorem solid_v6 {v : Ip.V6} : ∀ c ∈ v.text, Solid c := by
  intro c h
  rcases Ip.V6.mem_text h with h | rfl | rfl
  · exact solid_of_isHex h
  · exact ⟨rfl, by decide⟩
  · exact ⟨rfl, by decide⟩

theorem solid_mac {cs : List Char} (h : isMac cs = true) : ∀ c ∈ cs, Solid c := by
  intro c hc
  rcases mem_of_isMac h hc with hc | rfl | rfl
  · exact solid_of_isHex hc
  · exact ⟨rfl, by decide⟩
  · exact ⟨rfl, by decide⟩

theorem isBlank_getLast?_append {front back : List Char} (hne : back ≠ [])
    (h : ∀ c ∈ back.getLast?, isBlank c = false) :
    ∀ c ∈ (front ++ back).getLast?, isBlank c = false := by
  intro c hc
  rw [List.getLast?_append] at hc
  cases hb : back.getLast? with
  | none => exact absurd (List.getLast?_eq_none_iff.1 hb) hne
  | some d =>
    rw [hb] at hc h
    exact h c hc

theorem head?_label {a : Address} (h : a.isScalar = true) :
    ∃ c cs, a.label.toList = c :: cs ∧ isBlank c = false ∧ c ≠ '[' := by
  cases a with
  | noAddress => exact ⟨'n', ['o'], by simp [label], by decide, by decide⟩
  | ipv4 v length => exact ⟨'i', ['p', 'v', '4'], by simp [label], by decide, by decide⟩
  | ipv6 v length => exact ⟨'i', ['p', 'v', '6'], by simp [label], by decide, by decide⟩
  | mac text => exact ⟨'m', ['a', 'c'], by simp [label], by decide, by decide⟩
  | distinguishedName name => exact ⟨'d', ['n'], by simp [label], by decide, by decide⟩
  | asNumber n => exact ⟨'a', ['s'], by simp [label], by decide, by decide⟩
  | _ => cases h

theorem parseTagged_label {a : Address} (h : a.Legible) (text : List Char) :
    parseTagged a.label.toList a.body.toList text = .ok a := by
  cases a with
  | noAddress => simp [parseTagged, label]
  | ipv4 v length => simp [parseTagged, label, body, ofSimple_ipv4 v h]
  | ipv6 v length => simp [parseTagged, label, body, ofSimple_ipv6 v h]
  | mac text =>
    have hm : isMac text.toList = true := h
    simp [parseTagged, label, body, hm]
  | distinguishedName name =>
    have hn : name ≠ "" := h
    simp [parseTagged, label, body, hn]
  | asNumber n =>
    simp [parseTagged, label, body, Text.natText, asDigits, Text.uint32?_digits]
  | _ => cases h

theorem parseScalar_display {a : Address} (h : a.Legible) :
    parseScalar a.display.toList = .ok a := by
  rw [toList_display (isScalar_of_legible h), parseScalar,
    Text.cutFirst_append (colon_not_mem_label a)]
  exact parseTagged_label h _

structure Closed (cs : List Char) : Prop where
  last : ∀ c ∈ cs.getLast?, isBlank c = false
  arrow : ¬ arrow <:+: cs

theorem closed_of_solid {cs : List Char} (h : ∀ c ∈ cs, Solid c) : Closed cs :=
  ⟨fun c hc => (h c (List.mem_of_getLast? hc)).1, arrow_not_infix fun he => (h '=' he).2 rfl⟩

theorem closed_body {a : Address} (h : a.Printable) (hs : a.isScalar = true) :
    Closed a.body.toList := by
  cases a with
  | noAddress => exact ⟨by simp [body]; decide, arrow_not_infix (by simp [body])⟩
  | ipv4 v length => exact closed_of_solid (by simpa [body] using solid_lengthened solid_v4 length)
  | ipv6 v length => exact closed_of_solid (by simpa [body] using solid_lengthened solid_v6 length)
  | mac text => exact closed_of_solid (solid_mac h)
  | distinguishedName name => exact ⟨h.2.2, h.2.1⟩
  | asNumber n =>
    apply closed_of_solid
    intro c hc
    simp only [body, Text.natText, String.toList_append, String.toList_ofList,
      List.mem_append] at hc
    rcases hc with hc | hc
    · have hm : c = 'A' ∨ c = 'S' := by simpa using hc
      rcases hm with rfl | rfl
      · exact ⟨rfl, by decide⟩
      · exact ⟨rfl, by decide⟩
    · exact solid_digits hc
  | _ => cases hs

theorem parseText_eq {cs : List Char} (first : ∃ c ds, cs = c :: ds ∧ isBlank c = false ∧ c ≠ '[')
    (h : Closed cs) : parseText cs = parseScalar cs := by
  obtain ⟨c, ds, rfl, hc, hb⟩ := first
  have htrim : Text.trim (c :: ds) = c :: ds := by
    apply Text.trim_eq _ h.last
    intro d hd
    cases hd
    exact hc
  have hno : Text.holds ['=', '>'] (c :: ds) = false :=
    Bool.eq_false_iff.2 fun ht => h.arrow (Text.holds_iff.1 ht)
  rw [parseText, htrim]
  split
  · rename_i he
    cases he
  · rename_i he
    cases he
    exact absurd rfl hb
  · rw [if_neg (by simp [hno])]

theorem parseText_instance {cs : List Char} (first : ∃ c ds, cs = c :: ds ∧ isBlank c = false)
    (iid : UInt32) (mask : UInt8) :
    parseText ('[' :: (digits iid.toNat ++ ']' :: ' ' :: (cs ++ '/' :: digits mask.toNat))) =
      (parseScalar cs).map fun a => a.withInstanceId iid mask := by
  have hmask : ∀ c ∈ (digits mask.toNat).getLast?, isBlank c = false :=
    fun c hc => (solid_digits (List.mem_of_getLast? hc)).1
  have hlast : ∀ front : List Char,
      ∀ c ∈ (front ++ '/' :: digits mask.toNat).getLast?, isBlank c = false := by
    intro front
    rw [List.append_cons]
    exact isBlank_getLast?_append (Text.digits_ne_nil _) hmask
  have houter : Text.trim
      ('[' :: (digits iid.toNat ++ ']' :: ' ' :: (cs ++ '/' :: digits mask.toNat))) =
      '[' :: (digits iid.toNat ++ ']' :: ' ' :: (cs ++ '/' :: digits mask.toNat)) := by
    apply Text.trim_eq
    · intro c hc
      cases hc
      rfl
    · simpa using hlast ('[' :: (digits iid.toNat ++ ']' :: ' ' :: cs))
  have hinner : Text.trim (' ' :: (cs ++ '/' :: digits mask.toNat)) =
      cs ++ '/' :: digits mask.toNat := by
    obtain ⟨c, ds, rfl, hc⟩ := first
    rw [Text.trim_cons rfl]
    apply Text.trim_eq _ (hlast _)
    intro d hd
    cases hd
    exact hc
  have hiid : Text.trim (digits iid.toNat) = digits iid.toNat :=
    Text.trim_eq_of_all fun c hc => (solid_digits hc).1
  have hbracket : ']' ∉ digits iid.toNat := by
    intro hm
    have := Text.isDigit_of_mem_digits hm
    simp at this
  simp only [parseText, houter, parseInstance, Text.cutFirst_append hbracket, hiid,
    Text.uint32?_digits, hinner, Text.cutLast_append _ (slash_not_mem_digits _),
    Text.uint8?_digits]

theorem toList_display_instanceId (iid : UInt32) (mask : UInt8) (a : Address) :
    (display (.instanceId iid mask a)).toList =
      '[' :: (digits iid.toNat ++
        ']' :: ' ' :: (a.display.toList ++ '/' :: digits mask.toNat)) := by
  simp [display, masked, Text.natText]

theorem parse_instanceId {a : Address} (hs : a.isScalar = true) (iid : UInt32) (mask : UInt8) :
    parse (display (.instanceId iid mask a)) =
      (parseScalar a.display.toList).map fun a => a.withInstanceId iid mask := by
  obtain ⟨c, cs, hc, hblank, -⟩ := head?_label hs
  rw [parse, toList_display_instanceId, parseText_instance]
  rw [toList_display hs, hc]
  exact ⟨c, cs ++ ':' :: a.body.toList, rfl, hblank⟩

theorem legible_of_printable {a : Address} (h : a.Printable) (hs : a.isScalar = true) :
    a.Legible := by
  cases a with
  | distinguishedName name => exact h.1
  | instanceId iid mask a => cases hs
  | _ => exact h

theorem parse_scalar {a : Address} (h : a.Printable) (hs : a.isScalar = true) :
    parse a.display = .ok a := by
  have hl := legible_of_printable h hs
  have hbody := closed_body h hs
  obtain ⟨c, cs, hc, hblank, hbracket⟩ := head?_label hs
  rw [parse, parseText_eq, parseScalar_display hl]
  · rw [toList_display hs, hc]
    exact ⟨c, cs ++ ':' :: a.body.toList, rfl, hblank, hbracket⟩
  · rw [toList_display hs]
    refine ⟨isBlank_getLast?_append (by simp) ?_, fun hi => hbody.arrow (arrow_infix_body hi)⟩
    cases hb : a.body.toList with
    | nil =>
      intro d hd
      cases hd
      rfl
    | cons d ds =>
      rw [List.getLast?_cons_cons, ← hb]
      exact hbody.last

def tags : List String := ["no", "ipv4", "ipv6", "mac", "dn", "as"] ++ renderOnlyTags

theorem parseScalar_untagged {cs : List Char}
    (h : ∀ tag value, Text.cutFirst ':' cs = some (tag, value) → String.ofList tag ∉ tags) :
    parseScalar cs = .ok (ofSimple cs) := by
  unfold parseScalar
  split
  · rfl
  · rename_i tag value hcut
    have htag := h tag value hcut
    unfold parseTagged
    generalize String.ofList tag = t at htag
    simp only [tags, List.mem_append, not_or] at htag
    obtain ⟨hread, hrendered⟩ := htag
    split
    case h_7 => simp [hrendered]
    all_goals exact absurd (by simp) hread

/-- What comes out of a text without brackets: a legible address, whose name, if it is one, ends the
text; or the empty name, from no text. -/
inductive ReadFrom (text : List Char) : Address → Prop
  | legible {a : Address} (h : a.Legible)
      (name : ∀ n, a = .distinguishedName n → n.toList <:+ text) : ReadFrom text a
  | empty (h : text = []) : ReadFrom text (.distinguishedName "")

theorem readFrom_ofSimple (cs : List Char) : ReadFrom cs (ofSimple cs) := by
  have h := isSimple_ofSimple cs
  generalize ofSimple cs = a at h
  cases h with
  | ipv4 v length range => exact .legible range (by simp)
  | ipv6 v length range => exact .legible range (by simp)
  | mac h => exact .legible (by simpa [Legible] using h) (by simp)
  | name =>
    cases cs with
    | nil => exact .empty rfl
    | cons c cs =>
      apply ReadFrom.legible
      · intro he
        have := congrArg String.toList he
        simp at this
      · intro n hn
        cases hn
        simp

theorem readFrom_parseTagged {tag value text : List Char} {a : Address}
    (h : parseTagged tag value text = .ok a) (hv : value <:+ text) : ReadFrom text a := by
  unfold parseTagged at h
  split at h
  · cases h
    exact .legible trivial (by simp)
  · have hi := isSimple_ofSimple value
    split at h
    · rename_i v length he
      rw [he] at hi
      cases h
      cases hi with
      | ipv4 _ _ range => exact .legible range (by simp)
    · cases h
  · have hi := isSimple_ofSimple value
    split at h
    · rename_i v length he
      rw [he] at hi
      cases h
      cases hi with
      | ipv6 _ _ range => exact .legible range (by simp)
    · cases h
  · split at h
    · rename_i hm
      cases h
      exact .legible (by simpa [Legible] using hm) (by simp)
    · cases h
  · split at h
    · cases h
    · rename_i hne
      cases h
      apply ReadFrom.legible
      · intro he
        have := congrArg String.toList he
        simp at this
        exact hne (by simp [this])
      · intro n hn
        cases hn
        rwa [String.toList_ofList]
  · split at h
    · cases h
      exact .legible trivial (by simp)
    · cases h
  · split at h
    · cases h
    · cases h
      exact readFrom_ofSimple text

theorem readFrom_parseScalar {text : List Char} {a : Address} (h : parseScalar text = .ok a) :
    ReadFrom text a := by
  unfold parseScalar at h
  split at h
  · cases h
    exact readFrom_ofSimple text
  · rename_i tag value hc
    apply readFrom_parseTagged h
    rw [Text.eq_of_cutFirst hc]
    exact (List.suffix_cons _ _).trans (List.suffix_append _ _)

theorem withInstanceId_eq {a : Address} (h : a.isScalar = true) (iid : UInt32) (mask : UInt8) :
    a.withInstanceId iid mask = .instanceId iid mask a := by
  cases a with
  | instanceId iid mask a => cases h
  | _ => rfl

theorem parseInstance_ok {text rest : List Char} {a : Address}
    (h : parseInstance text rest = .ok a) :
    ∃ iid mask address b, parseScalar address = .ok b ∧ a = b.withInstanceId iid mask := by
  unfold parseInstance at h
  split at h
  · cases h
  · split at h
    · cases h
    · rename_i iid hiid
      split at h
      · cases h
      · rename_i address mask hcut
        split at h
        · cases h
        · rename_i mask hmask
          cases hb : parseScalar address with
          | error e =>
            rw [hb] at h
            cases h
          | ok b =>
            rw [hb] at h
            cases h
            exact ⟨iid, mask, address, b, hb, rfl⟩

theorem printable_of_parse {s : String} {a : Address} (h : parse s = .ok a) :
    a.Printable ∨ ∃ iid mask, a = .instanceId iid mask (.distinguishedName "") := by
  have hlast := Text.isBlank_getLast?_trim s.toList
  unfold parse parseText at h
  generalize Text.trim s.toList = text at h hlast
  split at h
  · cases h
  · obtain ⟨iid, mask, address, b, hb, rfl⟩ := parseInstance_ok h
    cases readFrom_parseScalar hb with
    | legible hl =>
      left
      rw [withInstanceId_eq (isScalar_of_legible hl)]
      exact hl
    | empty => exact .inr ⟨iid, mask, rfl⟩
  · rename_i hne _
    split at h
    · cases h
    · rename_i hno
      cases readFrom_parseScalar h with
      | legible hl hname =>
        left
        cases a with
        | distinguishedName name =>
          obtain ⟨front, hs⟩ := hname name rfl
          refine ⟨hl, fun hi => hno (Text.holds_iff.2 ?_), ?_⟩
          · rw [← hs]
            exact hi.trans (List.suffix_append _ _).isInfix
          · intro c hc
            apply hlast c
            rw [← hs, List.getLast?_append, Option.mem_def.1 hc]
            rfl
        | instanceId iid mask a => cases isScalar_of_legible hl
        | _ => exact hl
      | empty he => exact absurd he hne

/-- An address is read back from its display text exactly if it is printable. -/
theorem parse_render_eq_ok_iff (a : Address) : parse (render (some a)) = .ok a ↔ a.Printable := by
  constructor
  · intro h
    rcases printable_of_parse h with hp | ⟨iid, mask, rfl⟩
    · exact hp
    · rw [render, parse_instanceId rfl] at h
      have he : parseScalar (display (.distinguishedName "")).toList =
          .error (.invalid "dn" "") := by
        rw [toList_display rfl, parseScalar, Text.cutFirst_append (colon_not_mem_label _)]
        simp [parseTagged, label, body]
      rw [he] at h
      cases h
  · intro h
    rw [render]
    cases a with
    | instanceId iid mask a =>
      have hl : a.Legible := h
      have hs := isScalar_of_legible hl
      rw [parse_instanceId hs, parseScalar_display hl, Except.map, withInstanceId_eq hs]
    | noAddress | ipv4 | ipv6 | mac | distinguishedName | asNumber => exact parse_scalar h rfl
    | _ => exact h.elim

end EidMap.Address
