import EidMap.Proofs.Address.Canonical
import EidMap.Proofs.Address.RoundTrip

/-!
# Nested formats as display text

An address that is neither plain nor an instance around a plain one has a display text, but none
that could be typed in. Most of these texts are refused. The bracket of an instance leads past the
search for an arrow, and behind it a text that starts with a tag for names, with that for no address
or with a second bracket is read to its end: then the text stands for an address that it does not
display.
-/

namespace EidMap.Address

open Text (digits isBlank)

def head : Address → Address
  | .keyValue key _ => key.head
  | a => a

def RenderOnly : Address → Prop
  | .list _ | .applicationData .. | .locatorPath _ | .sourceDest .. | .unrenderable .. => True
  | _ => False

/-- Addresses whose text can be read when more text follows it: the tag for no address takes
whatever follows, a name takes it in, and a bracket is the start of a name. -/
def Swallows : Address → Prop
  | .noAddress | .distinguishedName _ | .instanceId .. => True
  | _ => False

theorem head_eq_or (a : Address) : a.head = a ∨ ∃ key value, a = .keyValue key value := by
  cases a with
  | keyValue key value => exact .inr ⟨key, value, rfl⟩
  | _ => exact .inl rfl

theorem display_of_renderOnly {a : Address} (h : a.RenderOnly) :
    ∃ tag ∈ renderOnlyTags, ∃ cs, a.display.toList = tag.toList ++ ':' :: cs := by
  cases a with
  | list members =>
    exact ⟨"list", by decide, _, by simp only [display, String.toList_append]; rfl⟩
  | applicationData a flow =>
    exact ⟨"appdata", by decide, _, by simp only [display, String.toList_append]; rfl⟩
  | locatorPath hops =>
    exact ⟨"elp", by decide, _, by simp only [display, String.toList_append]; rfl⟩
  | sourceDest source m dest n =>
    exact ⟨"srcdst", by decide, _, by simp only [display, String.toList_append]; rfl⟩
  | unrenderable tag reason raw =>
    exact ⟨"unknown", by decide, _, by simp only [display, String.toList_append]; rfl⟩
  | _ => exact h.elim

theorem display_keyValue (key value : Address) :
    (display (.keyValue key value)).toList =
      key.display.toList ++ '=' :: '>' :: value.display.toList := by
  simp [display]

theorem display_head (key value : Address) :
    ∃ cs, (display (.keyValue key value)).toList = key.head.display.toList ++ '=' :: '>' :: cs := by
  rw [display_keyValue]
  cases key with
  | keyValue k v =>
    obtain ⟨cs, hcs⟩ := display_head k v
    rw [hcs]
    exact ⟨cs ++ '=' :: '>' :: value.display.toList, by simp [head]⟩
  | _ => exact ⟨value.display.toList, rfl⟩

theorem colon_not_mem_tag {tag : String} (h : tag ∈ renderOnlyTags) : ':' ∉ tag.toList := by
  simp only [renderOnlyTags, List.mem_cons, List.not_mem_nil, or_false] at h
  rcases h with rfl | rfl | rfl | rfl | rfl <;> simp

theorem head?_tag {tag : String} (h : tag ∈ renderOnlyTags) :
    ∃ c cs, tag.toList = c :: cs ∧ isBlank c = false ∧ c ≠ '[' := by
  simp only [renderOnlyTags, List.mem_cons, List.not_mem_nil, or_false] at h
  rcases h with rfl | rfl | rfl | rfl | rfl <;>
    exact ⟨_, _, by simp; exact ⟨rfl, rfl⟩, by decide, by decide⟩

theorem head_cases (a : Address) :
    a.head.isScalar = true ∨ a.head.RenderOnly ∨ ∃ iid mask b, a.head = .instanceId iid mask b := by
  cases a with
  | keyValue key value => exact head_cases key
  | instanceId iid mask a => exact .inr (.inr ⟨iid, mask, a, rfl⟩)
  | list | applicationData | locatorPath | sourceDest | unrenderable => exact .inr (.inl trivial)
  | _ => exact .inl rfl

theorem first_head (a : Address) :
    ∃ c cs, a.head.display.toList = c :: cs ∧ isBlank c = false ∧
      (c = '[' ↔ ∃ iid mask b, a.head = .instanceId iid mask b) := by
  rcases head_cases a with h | h | ⟨iid, mask, b, h⟩
  · obtain ⟨c, cs, hc, hblank, hbracket⟩ := head?_label h
    refine ⟨c, cs ++ ':' :: a.head.body.toList, ?_, hblank, iff_of_false hbracket ?_⟩
    · rw [toList_display h, hc]
      rfl
    · rintro ⟨iid, mask, b, he⟩
      rw [he] at h
      cases h
  · obtain ⟨tag, htag, ds, hd⟩ := display_of_renderOnly h
    obtain ⟨c, cs, hc, hblank, hbracket⟩ := head?_tag htag
    refine ⟨c, cs ++ ':' :: ds, ?_, hblank, iff_of_false hbracket ?_⟩
    · rw [hd, hc]
      rfl
    · rintro ⟨iid, mask, b, he⟩
      rw [he] at h
      exact h
  · rw [h, toList_display_instanceId]
    exact ⟨'[', _, rfl, rfl, iff_of_true rfl ⟨iid, mask, b, rfl⟩⟩

theorem first_display (a : Address) :
    ∃ c cs, a.display.toList = c :: cs ∧ isBlank c = false ∧
      (c = '[' ↔ ∃ iid mask b, a.head = .instanceId iid mask b) := by
  obtain ⟨c, cs, hc, hfirst⟩ := first_head a
  rcases head_eq_or a with ha | ⟨key, value, rfl⟩
  · rw [ha] at hc
    exact ⟨c, cs, hc, hfirst⟩
  · obtain ⟨ds, hds⟩ := display_head key value
    exact ⟨c, cs ++ '=' :: '>' :: ds, by rw [hds]; exact congrArg (· ++ _) hc, hfirst⟩

theorem ofSimple_of_equals {cs : List Char} (h : '=' ∈ cs) :
    ofSimple cs = .distinguishedName (String.ofList cs) :=
  ofSimple_of_mem h (by decide)

theorem parseTagged_renderOnly {tag : String} (h : tag ∈ renderOnlyTags) (value text : List Char) :
    parseTagged tag.toList value text = .error (.unsupported (String.ofList text)) := by
  simp only [renderOnlyTags, List.mem_cons, List.not_mem_nil, or_false] at h
  rcases h with rfl | rfl | rfl | rfl | rfl <;> simp [parseTagged, renderOnlyTags]

theorem parseScalar_bracket (cs : List Char) :
    parseScalar ('[' :: cs) = .ok (ofSimple ('[' :: cs)) := by
  have hnone : ∀ tag ∈ tags, tag.toList.head? ≠ some '[' ∧ tag.toList ≠ [] := by decide
  refine parseScalar_untagged fun tag value hcut hmem => ?_
  obtain ⟨hhead, hne⟩ := hnone _ hmem
  rw [String.toList_ofList] at hhead hne
  have htext := Text.eq_of_cutFirst hcut
  cases tag with
  | nil => exact hne rfl
  | cons c tag =>
    cases htext
    exact hhead rfl

theorem parseTagged_label_append {a : Address} (hs : a.isScalar = true) {rest : List Char}
    (h : '=' ∈ rest) (text : List Char) :
    (∃ b, parseTagged a.label.toList (a.body.toList ++ rest) text = .ok b) ↔ a.Swallows := by
  have hmem : '=' ∈ a.body.toList ++ rest := List.mem_append_right _ h
  have hforeign : ¬ Numeric '=' := by decide
  cases a with
  | noAddress => simp [parseTagged, label, Swallows]
  | ipv4 v length => simp [parseTagged, label, ofSimple_of_equals hmem, Swallows]
  | ipv6 v length => simp [parseTagged, label, ofSimple_of_equals hmem, Swallows]
  | mac text => simp [parseTagged, label, not_isMac_of_mem hmem hforeign, Swallows]
  | distinguishedName name =>
    have hne : rest ≠ [] := List.ne_nil_of_mem h
    simp [parseTagged, label, Swallows, hne]
  | asNumber n =>
    have hn : Text.uint32? (Text.digits n.toNat ++ rest) = none := by
      apply Option.eq_none_iff_forall_ne_some.2
      intro m hm
      exact Text.not_mem_of_uint32? hm rfl (by decide) (List.mem_append_right _ h)
    simp [parseTagged, label, body, Text.natText, asDigits, hn, Swallows]
  | _ => cases hs

theorem not_swallows_of_renderOnly {a : Address} (h : a.RenderOnly) : ¬ a.Swallows := by
  cases a with
  | list | applicationData | locatorPath | sourceDest | unrenderable => exact id
  | _ => exact h.elim

theorem parseScalar_head_append (a : Address) {rest : List Char}
    (h : a.head.isScalar = true → '=' ∈ rest) :
    (∃ b, parseScalar (a.head.display.toList ++ rest) = .ok b) ↔ a.head.Swallows := by
  rcases head_cases a with hs | hr | ⟨iid, mask, b, hb⟩
  · rw [toList_display hs, List.append_assoc, List.cons_append, parseScalar,
      Text.cutFirst_append (colon_not_mem_label _)]
    exact parseTagged_label_append hs (h hs) _
  · obtain ⟨tag, htag, cs, hcs⟩ := display_of_renderOnly hr
    rw [hcs, List.append_assoc, List.cons_append, parseScalar,
      Text.cutFirst_append (colon_not_mem_tag htag)]
    simp only [parseTagged_renderOnly htag]
    refine iff_of_false ?_ (not_swallows_of_renderOnly hr)
    rintro ⟨b, hb⟩
    cases hb
  · rw [hb, toList_display_instanceId, List.cons_append, parseScalar_bracket]
    exact iff_of_true ⟨_, rfl⟩ trivial

theorem parseScalar_append (a : Address) {rest : List Char}
    (h : a.isScalar = true → '=' ∈ rest) :
    (∃ b, parseScalar (a.display.toList ++ rest) = .ok b) ↔ a.head.Swallows := by
  rcases head_eq_or a with ha | ⟨key, value, rfl⟩
  · have hhead := parseScalar_head_append a (by rwa [ha])
    rwa [ha] at hhead ⊢
  · obtain ⟨cs, hcs⟩ := display_head key value
    rw [hcs, List.append_assoc]
    exact parseScalar_head_append key fun _ => by simp

/-- Behind its last slash a text has a mask length, and nothing but white space after that. -/
def EndsInMask (cs : List Char) : Prop :=
  ∃ front mask, Text.trimEnd cs = front ++ '/' :: mask ∧ (Text.uint8? mask).isSome

/-- Addresses whose text stands for another address: an instance around a nested address whose head
swallows the rest of it, and a pair that starts with an instance around such an address, plain or
nested, and whose text ends like that of an instance. -/
inductive Misread : Address → Prop
  | inside (iid : UInt32) (mask : UInt8) {a : Address} (nested : a.isScalar = false)
      (swallows : a.head.Swallows) : Misread (.instanceId iid mask a)
  | behind {key value a : Address} {iid : UInt32} {mask : UInt8}
      (start : key.head = .instanceId iid mask a) (swallows : a.head.Swallows)
      (last : EndsInMask (display (.keyValue key value)).toList) : Misread (.keyValue key value)

theorem not_mem_mask {cs : List Char} (h : (Text.uint8? cs).isSome) : '/' ∉ cs ∧ '=' ∉ cs := by
  obtain ⟨n, hn⟩ := Option.isSome_iff_exists.1 h
  exact ⟨Text.not_mem_of_uint8? hn rfl (by decide), Text.not_mem_of_uint8? hn rfl (by decide)⟩

theorem parseText_of_first {c : Char} (hblank : isBlank c = false) (hbracket : c ≠ '[')
    (cs : List Char) :
    (arrow <:+: Text.trimEnd (c :: cs) → ∃ e, parseText (c :: cs) = .error e) ∧
      (¬ arrow <:+: Text.trimEnd (c :: cs) →
        parseText (c :: cs) = parseScalar (Text.trimEnd (c :: cs))) := by
  have hfirst : Text.trimEnd (c :: cs) = c :: Text.trimEnd cs := Text.trimEnd_append_cons [] hblank cs
  rw [parseText, Text.trim_of_first hblank, hfirst]
  split
  · rename_i he
    cases he
  · rename_i he
    cases he
    exact absurd rfl hbracket
  · rw [← Text.holds_iff]
    split
    · rename_i harrow
      exact ⟨fun _ => ⟨_, rfl⟩, fun hno => absurd harrow hno⟩
    · rename_i harrow
      exact ⟨fun h => absurd h harrow, fun _ => rfl⟩

theorem parse_display_renderOnly {a : Address} (h : a.RenderOnly) :
    ∃ e, parse a.display = .error e := by
  obtain ⟨tag, htag, cs, hcs⟩ := display_of_renderOnly h
  obtain ⟨c, ds, hc, hblank, hbracket⟩ := head?_tag htag
  have htext : a.display.toList = c :: (ds ++ ':' :: cs) := by rw [hcs, hc]; rfl
  obtain ⟨hrefused, hread⟩ := parseText_of_first hblank hbracket (ds ++ ':' :: cs)
  rw [parse, htext]
  by_cases harrow : arrow <:+: Text.trimEnd (c :: (ds ++ ':' :: cs))
  · exact hrefused harrow
  · rw [hread harrow, ← htext, hcs, Text.trimEnd_append_cons _ rfl, parseScalar,
      Text.cutFirst_append (colon_not_mem_tag htag)]
    exact ⟨_, parseTagged_renderOnly htag _ _⟩

theorem parse_display_instanceId (iid : UInt32) (mask : UInt8) (a : Address) :
    parse (display (.instanceId iid mask a)) =
      (parseScalar a.display.toList).map fun a => a.withInstanceId iid mask := by
  obtain ⟨c, cs, hc, hblank, -⟩ := first_display a
  rw [parse, toList_display_instanceId, parseText_instance ⟨c, cs, hc, hblank⟩]

theorem parse_display_keyValue {key : Address} (value : Address)
    (h : ∀ iid mask a, key.head ≠ .instanceId iid mask a) :
    ∃ e, parse (display (.keyValue key value)) = .error e := by
  obtain ⟨c, cs, hc, hblank, hbracket⟩ := first_display (.keyValue key value)
  have hne : c ≠ '[' := by
    intro hc
    obtain ⟨iid, mask, a, ha⟩ := hbracket.1 hc
    exact h iid mask a ha
  rw [parse, hc]
  apply (parseText_of_first hblank hne cs).1
  rw [← hc, display_keyValue, Text.trimEnd_append_cons _ rfl,
    show '>' :: value.display.toList = [] ++ '>' :: value.display.toList from rfl,
    Text.trimEnd_append_cons [] rfl]
  exact ⟨key.display.toList, Text.trimEnd value.display.toList, by simp [arrow]⟩

theorem parseText_bracket_iff {text body : List Char} {iid : UInt32}
    (h : Text.trim text = '[' :: (digits iid.toNat ++ ']' :: ' ' :: body))
    (first : ∀ c ∈ body.head?, isBlank c = false) :
    (∃ a, parseText text = .ok a) ↔ ∃ address mask, body = address ++ '/' :: mask ∧
      (Text.uint8? mask).isSome ∧ ∃ b, parseScalar address = .ok b := by
  have hlast : ∀ c ∈ body.getLast?, isBlank c = false := by
    apply isBlank_getLast?_of_append ('[' :: digits iid.toNat ++ [']', ' '])
    have := Text.isBlank_getLast?_trim text
    simpa [h] using this
  have hbracket : ']' ∉ digits iid.toNat := by
    intro hm
    have := Text.isDigit_of_mem_digits hm
    simp at this
  have hiid : Text.trim (digits iid.toNat) = digits iid.toNat :=
    Text.trim_eq_of_all fun c hc => (solid_digits hc).1
  have hinner : Text.trim (' ' :: body) = body := by
    rw [Text.trim_cons rfl, Text.trim_eq first hlast]
  rw [parseText, h]
  simp only [parseInstance_eq_ok, Text.cutFirst_append hbracket]
  constructor
  · rintro ⟨_, _, _, address, mask, n, m, b, hcut, -, hlast, hm, hb, -⟩
    cases hcut
    rw [hinner] at hlast
    obtain ⟨hbody, -⟩ := Text.eq_of_cutLast hlast
    exact ⟨address, mask, hbody, by simp [hm], b, hb⟩
  · rintro ⟨address, mask, rfl, hmask, b, hb⟩
    obtain ⟨m, hm⟩ := Option.isSome_iff_exists.1 hmask
    refine ⟨b.withInstanceId iid m, _, _, address, mask, iid, m, b, rfl, ?_, ?_, hm, hb, rfl⟩
    · rw [hiid, Text.uint32?_digits]
    · rw [hinner, Text.cutLast_append _ (not_mem_mask hmask).1]

theorem parse_display_keyValue_iff {key value a : Address} {iid : UInt32} {mask : UInt8}
    (start : key.head = .instanceId iid mask a) :
    (∃ b, parse (display (.keyValue key value)) = .ok b) ↔
      a.head.Swallows ∧ EndsInMask (display (.keyValue key value)).toList := by
  obtain ⟨cs, hcs⟩ := display_head key value
  rw [start, toList_display_instanceId] at hcs
  obtain ⟨c, ds, hc, hblank, -⟩ := first_display a
  -- what follows the address in the first instance, up to the end of the text
  let tail := '/' :: (digits mask.toNat ++ '=' :: '>' :: Text.trimEnd cs)
  have hend : Text.trimEnd (display (.keyValue key value)).toList =
      '[' :: (digits iid.toNat ++ ']' :: ' ' :: (a.display.toList ++ tail)) := by
    have hsplit : (display (.keyValue key value)).toList =
        ('[' :: (digits iid.toNat ++ ']' :: ' ' :: (a.display.toList ++ '/' :: digits mask.toNat)) ++
          ['=']) ++ '>' :: cs := by
      rw [hcs]
      simp
    rw [hsplit, Text.trimEnd_append_cons _ rfl]
    simp [tail]
  have htrim : Text.trim (display (.keyValue key value)).toList =
      '[' :: (digits iid.toNat ++ ']' :: ' ' :: (a.display.toList ++ tail)) := by
    rw [← hend, hcs]
    exact Text.trim_of_first rfl _
  obtain ⟨before, after, htail, hafter⟩ := Text.exists_cutLast (show '/' ∈ tail by simp [tail])
  have hequals : '=' ∈ before ∨ '=' ∈ after := by
    have hm : '=' ∈ before ++ '/' :: after := by
      rw [← htail]
      simp [tail]
    simpa using hm
  rw [parse, parseText_bracket_iff htrim (by simp [hc, hblank]), EndsInMask, hend, htail]
  constructor
  · rintro ⟨address, n, hbody, hn, b, hb⟩
    have hn' := not_mem_mask hn
    rw [← List.append_assoc] at hbody
    obtain ⟨rfl, rfl⟩ := Text.eq_of_append_last hafter hn'.1 hbody
    have hbefore := hequals.resolve_right hn'.2
    refine ⟨(parseScalar_append a fun _ => hbefore).1 ⟨b, hb⟩, ?_⟩
    exact ⟨'[' :: (digits iid.toNat ++ ']' :: ' ' :: (a.display.toList ++ before)), after,
      by simp, hn⟩
  · rintro ⟨hswallows, front, n, hfront, hn⟩
    have hn' := not_mem_mask hn
    have hsplit : ('[' :: (digits iid.toNat ++ ']' :: ' ' :: (a.display.toList ++ before))) ++
        '/' :: after = front ++ '/' :: n := by
      rw [← hfront]
      simp
    obtain ⟨-, rfl⟩ := Text.eq_of_append_last hafter hn'.1 hsplit
    have hbefore := hequals.resolve_right hn'.2
    obtain ⟨b, hb⟩ := (parseScalar_append a fun _ => hbefore).2 hswallows
    exact ⟨a.display.toList ++ before, after, by simp, hn, b, hb⟩

theorem parse_display_eq_ok_iff {a : Address} (h : ¬ a.Flat) :
    (∃ b, parse a.display = .ok b) ↔ a.Misread := by
  have refused : ∀ {x : Except ParseError Address}, (∃ e, x = .error e) → ¬ ∃ b, x = .ok b := by
    rintro x ⟨e, rfl⟩ ⟨b, hb⟩
    cases hb
  cases a with
  | list | applicationData | locatorPath | sourceDest | unrenderable =>
    exact iff_of_false (refused (parse_display_renderOnly trivial)) nofun
  | instanceId iid mask a =>
    have hnested : a.isScalar = false := Bool.eq_false_iff.2 h
    have hread := @parseScalar_append a [] (by simp [hnested])
    rw [List.append_nil] at hread
    rw [parse_display_instanceId]
    constructor
    · rintro ⟨b, hb⟩
      obtain ⟨x, hx, -⟩ := Json.map_eq_ok.1 hb
      exact .inside iid mask hnested (hread.1 ⟨x, hx⟩)
    · rintro ⟨_, _, -, hswallows⟩
      obtain ⟨b, hb⟩ := hread.2 hswallows
      exact ⟨b.withInstanceId iid mask, by rw [hb]; rfl⟩
  | keyValue key value =>
    by_cases hstart : ∃ iid mask a, key.head = .instanceId iid mask a
    · obtain ⟨iid, mask, a, ha⟩ := hstart
      rw [parse_display_keyValue_iff ha]
      constructor
      · exact fun ⟨hswallows, hlast⟩ => .behind ha hswallows hlast
      · rintro (_ | ⟨hstart, hswallows, hlast⟩)
        rw [ha] at hstart
        cases hstart
        exact ⟨hswallows, hlast⟩
    · have hno : ∀ iid mask a, key.head ≠ .instanceId iid mask a :=
        fun iid mask a ha => hstart ⟨iid, mask, a, ha⟩
      refine iff_of_false (refused (parse_display_keyValue value hno)) ?_
      rintro (_ | ⟨ha, -, -⟩)
      exact hno _ _ _ ha
  | _ => exact absurd rfl h

/-- A nested address is refused as text, unless it is one of those that are misread; these are read
as another address. -/
theorem nested_text_refused {a : Address} (h : ¬ a.Flat) :
    ((∃ e, parse (render (some a)) = .error e) ↔ ¬ a.Misread) ∧
      ((∃ b, parse (render (some a)) = .ok b ∧ b ≠ a) ↔ a.Misread) := by
  have hread := parse_display_eq_ok_iff h
  rw [render, ← hread]
  cases hp : parse a.display with
  | error e => simp
  | ok b =>
    have hne : b ≠ a := by
      rintro rfl
      exact h (flat_of_parse hp)
    simp [hne]

/-- An instance around a list is refused. -/
theorem listed_instance_refused :
    ¬ Flat (.instanceId 7 32 (.list [.noAddress])) ∧
      ¬ Misread (.instanceId 7 32 (.list [.noAddress])) ∧
        ∃ e, parse (render (some (.instanceId 7 32 (.list [.noAddress])))) = .error e := by
  have hflat : ¬ Flat (.instanceId 7 32 (.list [.noAddress])) := nofun
  have hread : ¬ Misread (.instanceId 7 32 (.list [.noAddress])) := by
    rintro ⟨_, _, -, hswallows⟩
    exact hswallows
  exact ⟨hflat, hread, (nested_text_refused hflat).1.2 hread⟩

/-- An instance inside an instance can be read from JSON, and its text is read as an instance around
a name. -/
theorem twice_instanced_misread :
    ofWire (toWire (.instanceId 1 24 (.instanceId 2 32 (.ipv4 ⟨10, 0, 0, 1⟩ none)))) =
        .instanceId 1 24 (.instanceId 2 32 (.ipv4 ⟨10, 0, 0, 1⟩ none)) ∧
      ¬ Flat (.instanceId 1 24 (.instanceId 2 32 (.ipv4 ⟨10, 0, 0, 1⟩ none))) ∧
        parse (render (some (.instanceId 1 24 (.instanceId 2 32 (.ipv4 ⟨10, 0, 0, 1⟩ none))))) =
          .ok (.instanceId 1 24 (.distinguishedName "[2] ipv4:10.0.0.1/32")) := by
  refine ⟨?_, nofun, ?_⟩
  · have hplain : WellFormed (.ipv4 ⟨10, 0, 0, 1⟩ none) := .ipv4 ⟨10, 0, 0, 1⟩ nofun
    exact (WellFormed.instanceId 1 24 (.instanceId 2 32 hplain)).ofWire_toWire
  · have hdisplay : display (.instanceId 1 24 (.instanceId 2 32 (.ipv4 ⟨10, 0, 0, 1⟩ none))) =
        "[1] [2] ipv4:10.0.0.1/32/24" := by decide +kernel
    rw [render, hdisplay]
    rfl

end EidMap.Address
