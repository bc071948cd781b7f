import EidMap.Json.Parts
import EidMap.Proofs.Address.Display

/-!
# The display text of what was read

Whatever a text is read as is a plain address or an instance around one. It is read back from its
display text, unless nothing but white space stands between the bracket and the mask length of an
instance: such a text is read as an instance around the empty name, and that name is refused when it
has its tag.
-/

namespace EidMap.Address

open Text (isBlank)

/-- A plain address, or an instance around one. -/
def Flat : Address → Prop
  | .instanceId _ _ a => a.isScalar = true
  | a => a.isScalar = true

theorem flat_of_printable {a : Address} (h : a.Printable) : a.Flat := by
  cases a with
  | instanceId iid mask a => exact isScalar_of_legible h
  | noAddress | ipv4 | ipv6 | mac | distinguishedName | asNumber => rfl
  | _ => exact isScalar_of_legible h

theorem flat_of_parse {s : String} {a : Address} (h : parse s = .ok a) : a.Flat := by
  rcases printable_of_parse h with hp | ⟨iid, mask, rfl⟩
  · exact flat_of_printable hp
  · rfl

theorem parseInstance_eq_ok {text rest : List Char} {a : Address} :
    parseInstance text rest = .ok a ↔ ∃ iid inner address mask, ∃ n : UInt32, ∃ m : UInt8, ∃ b,
      Text.cutFirst ']' rest = some (iid, inner) ∧ Text.uint32? (Text.trim iid) = some n ∧
        Text.cutLast '/' (Text.trim inner) = some (address, mask) ∧ Text.uint8? mask = some m ∧
          parseScalar address = .ok b ∧ a = b.withInstanceId n m := by
  constructor
  · intro h
    unfold parseInstance at h
    split at h
    · cases h
    · rename_i iid inner hfirst
      split at h
      · cases h
      · rename_i n hn
        split at h
        · cases h
        · rename_i address mask hlast
          split at h
          · cases h
          · rename_i m hm
            obtain ⟨b, hb, rfl⟩ := Json.map_eq_ok.1 h
            exact ⟨iid, inner, address, mask, n, m, b, hfirst, hn, hlast, hm, hb, rfl⟩
  · rintro ⟨iid, inner, address, mask, n, m, b, hfirst, hn, hlast, hm, hb, rfl⟩
    simp only [parseInstance, hfirst, hn, hlast, hm, hb, Except.map]

/-- A bracket, a number, and a mask length with nothing but white space before it. -/
def NamesNothing (text : List Char) : Prop :=
  ∃ iid blank mask, text = '[' :: (iid ++ ']' :: (blank ++ '/' :: mask)) ∧ ']' ∉ iid ∧
    (∀ c ∈ blank, isBlank c = true) ∧ '/' ∉ mask

theorem isBlank_getLast?_of_append (front : List Char) {back : List Char}
    (h : ∀ c ∈ (front ++ back).getLast?, isBlank c = false) :
    ∀ c ∈ back.getLast?, isBlank c = false := by
  intro c hc
  apply h c
  rw [List.getLast?_append, Option.mem_def.1 hc]
  rfl

theorem parseInstance_of_namesNothing {text rest : List Char} {a : Address}
    (last : ∀ c ∈ ('[' :: rest).getLast?, isBlank c = false) (hn : NamesNothing ('[' :: rest))
    (h : parseInstance text rest = .ok a) :
    ∃ iid mask, a = .instanceId iid mask (.distinguishedName "") := by
  obtain ⟨iid, blank, mask, he, hiid, hblank, hmask⟩ := hn
  cases he
  have htrim : Text.trim (blank ++ '/' :: mask) = '/' :: mask := by
    rw [Text.trim_blanks_append hblank]
    apply Text.trim_eq
    · intro c hc
      cases hc
      rfl
    · apply isBlank_getLast?_of_append ('[' :: iid ++ ']' :: blank)
      simpa using last
  obtain ⟨iid', inner, address, mask', n, m, b, hfirst, -, hcut, -, hb, rfl⟩ :=
    parseInstance_eq_ok.1 h
  rw [Text.cutFirst_append hiid] at hfirst
  cases hfirst
  have hempty : Text.cutLast '/' ('/' :: mask) = some ([], mask) := Text.cutLast_append [] hmask
  rw [htrim, hempty] at hcut
  cases hcut
  cases hb
  exact ⟨n, m, rfl⟩

theorem namesNothing_of_parseInstance {text rest : List Char} {iid : UInt32} {mask : UInt8}
    (last : ∀ c ∈ ('[' :: rest).getLast?, isBlank c = false)
    (h : parseInstance text rest = .ok (.instanceId iid mask (.distinguishedName ""))) :
    NamesNothing ('[' :: rest) := by
  obtain ⟨front, inner, address, back, n, m, b, hfirst, -, hcut, -, hb, he⟩ :=
    parseInstance_eq_ok.1 h
  have hnothing : b = .distinguishedName "" ∧ address = [] := by
    cases readFrom_parseScalar hb with
    | legible hl =>
      rw [withInstanceId_eq (isScalar_of_legible hl)] at he
      cases he
      exact absurd rfl hl
    | empty hnil => exact ⟨rfl, hnil⟩
  obtain ⟨rfl, rfl⟩ := hnothing
  obtain ⟨htrim, hback⟩ := Text.eq_of_cutLast hcut
  have hrest := Text.eq_of_cutFirst hfirst
  have hinner : ∀ c ∈ inner.getLast?, isBlank c = false := by
    apply isBlank_getLast?_of_append ('[' :: front ++ [']'])
    simpa [hrest] using last
  obtain ⟨blank, hblank, hsplit⟩ := Text.exists_blank_append_trim hinner
  refine ⟨front, blank, back, ?_, Text.not_mem_of_cutFirst hfirst, hblank, hback⟩
  rw [hrest, hsplit, htrim, List.nil_append]

theorem namesNothing_iff {s : String} {a : Address} (h : parse s = .ok a) :
    NamesNothing (Text.trim s.toList) ↔
      ∃ iid mask, a = .instanceId iid mask (.distinguishedName "") := by
  have hlast := Text.isBlank_getLast?_trim s.toList
  unfold parse parseText at h
  generalize Text.trim s.toList = text at h hlast
  split at h
  · cases h
  · constructor
    · exact fun hn => parseInstance_of_namesNothing hlast hn h
    · rintro ⟨iid, mask, rfl⟩
      exact namesNothing_of_parseInstance hlast h
  · rename_i hbracket
    constructor
    · rintro ⟨iid, blank, mask, rfl, -⟩
      exact absurd rfl (hbracket _)
    · rintro ⟨iid, mask, rfl⟩
      split at h
      · cases h
      · cases readFrom_parseScalar h with
        | legible hl => exact hl.elim

theorem parse_display_of_printable {a : Address} (h : a.Printable) : parse a.display = .ok a := by
  cases a with
  | instanceId iid mask a =>
    have hl : a.Legible := h
    have hs := isScalar_of_legible hl
    rw [parse_instanceId hs, parseScalar_display hl, Except.map, withInstanceId_eq hs]
  | noAddress | ipv4 | ipv6 | mac | distinguishedName | asNumber => exact parse_scalar h rfl
  | _ => exact h.elim

theorem parse_display_nameless (iid : UInt32) (mask : UInt8) :
    parse (display (.instanceId iid mask (.distinguishedName ""))) =
      .error (.invalid "dn" "") := by
  rw [parse_instanceId rfl, toList_display rfl, parseScalar,
    Text.cutFirst_append (colon_not_mem_label _)]
  simp [parseTagged, label, body, Except.map]

/-- Whatever a text is read as is plain or an instance around a plain address. It is read back from
its display text exactly if the first text did not name nothing. -/
theorem canonical_text {s : String} {a : Address} (h : parse s = .ok a) :
    a.Flat ∧ (parse (render (some a)) = .ok a ↔ ¬ NamesNothing (Text.trim s.toList)) := by
  refine ⟨flat_of_parse h, ?_⟩
  rw [namesNothing_iff h, render]
  rcases printable_of_parse h with hp | ⟨iid, mask, rfl⟩
  · refine iff_of_true (parse_display_of_printable hp) ?_
    rintro ⟨iid, mask, rfl⟩
    exact hp rfl
  · rw [parse_display_nameless]
    refine iff_of_false (fun hok => ?_) fun hn => hn ⟨iid, mask, rfl⟩
    cases hok

/-- White space, a sign, leading zeros and a name that ends in white space. -/
theorem loose_text_canonical :
    parse " [ +007 ] dn:a b /024" = .ok (.instanceId 7 24 (.distinguishedName "a b ")) ∧
      (Flat (.instanceId 7 24 (.distinguishedName "a b ")) ∧
        (parse (render (some (.instanceId 7 24 (.distinguishedName "a b ")))) =
            .ok (.instanceId 7 24 (.distinguishedName "a b ")) ↔
          ¬ NamesNothing (Text.trim " [ +007 ] dn:a b /024".toList))) := by
  have h : parse " [ +007 ] dn:a b /024" = .ok (.instanceId 7 24 (.distinguishedName "a b ")) := rfl
  exact ⟨h, canonical_text h⟩

/-- An instance with no address is accepted, and its display text is not. -/
theorem nameless_instance_not_canonical :
    parse "[1] /5" = .ok (.instanceId 1 5 (.distinguishedName "")) ∧
      parse (render (some (.instanceId 1 5 (.distinguishedName "")))) =
        .error (.invalid "dn" "") := by
  exact ⟨rfl, parse_display_nameless 1 5⟩

end EidMap.Address
