import EidMap.Proofs.Address.Display

/-!
# Bare, tagged and canonical texts

An IP or MAC address can be typed in without a tag, or behind the tag of its family; its display text is
the tag and one text among those that are read as the address. All of them are read as the same address,
since no tag consists of the characters of an address alone.
-/

namespace EidMap.Address

/-- The families that a bare text can stand for beside names, with their tags. -/
inductive HasTag : Address → String → Prop
  | ipv4 (v : Ip.V4) (length : Option UInt8) : HasTag (.ipv4 v length) "ipv4"
  | ipv6 (v : Ip.V6) (length : Option UInt8) : HasTag (.ipv6 v length) "ipv6"
  | mac (text : String) : HasTag (.mac text) "mac"

variable {a : Address} {tag : String} {cs : List Char}

theorem HasTag.label_eq (h : HasTag a tag) : a.label = tag := by
  cases h <;> rfl

theorem HasTag.isScalar (h : HasTag a tag) : a.isScalar = true := by
  cases h <;> rfl

theorem HasTag.solid (h : HasTag a tag) : ∀ c ∈ tag.toList, Solid c := by
  have hall : (tag.toList.all fun c => decide (Solid c)) = true := by cases h <;> decide
  simpa using hall

theorem HasTag.numeric (h : HasTag (ofSimple cs) tag) : ∀ c ∈ cs, Numeric c := by
  refine fun c hc => Decidable.byContradiction fun hn => ?_
  rw [ofSimple_of_mem hc hn] at h
  cases h

theorem HasTag.ne_nil (h : HasTag (ofSimple cs) tag) : cs ≠ [] := by
  rintro rfl
  cases h

theorem solid_of_numeric {c : Char} (h : Numeric c) : Solid c := by
  rcases h with h | rfl | rfl | rfl | rfl | rfl
  · exact solid_of_isHex h
  all_goals exact ⟨rfl, by decide⟩

theorem exists_not_numeric : ∀ tag ∈ tags, ∃ c ∈ tag.toList, ¬ Numeric c := by
  have hall : (tags.all fun tag => tag.toList.any fun c => decide ¬ Numeric c) = true := by decide
  simpa only [List.all_eq_true, List.any_eq_true, decide_eq_true_eq] using hall

theorem parseScalar_of_numeric (h : ∀ c ∈ cs, Numeric c) : parseScalar cs = .ok (ofSimple cs) := by
  refine parseScalar_untagged fun tag value hcut hmem => ?_
  obtain ⟨c, hc, hn⟩ := exists_not_numeric _ hmem
  rw [String.toList_ofList] at hc
  refine hn (h c ?_)
  rw [Text.eq_of_cutFirst hcut]
  exact List.mem_append_left _ hc

theorem parse_bare {s : String} (h : HasTag (ofSimple s.toList) tag) :
    parse s = .ok (ofSimple s.toList) := by
  have hsolid : ∀ c ∈ s.toList, Solid c := fun c hc => solid_of_numeric (h.numeric c hc)
  obtain ⟨c, cs, hcs⟩ := List.exists_cons_of_ne_nil h.ne_nil
  have hc : c ∈ s.toList := hcs ▸ List.mem_cons_self
  have hbracket : c ≠ '[' := by
    rintro rfl
    exact absurd (h.numeric _ hc) (by decide)
  rw [parse, parseText_eq ⟨c, cs, hcs, (hsolid c hc).1, hbracket⟩ (closed_of_solid hsolid),
    parseScalar_of_numeric h.numeric]

theorem parseTagged_tag (h : HasTag (ofSimple cs) tag) (text : List Char) :
    parseTagged tag.toList cs text = .ok (ofSimple cs) := by
  have hsimple := isSimple_ofSimple cs
  generalize he : ofSimple cs = a at h hsimple
  cases h with
  | ipv4 v length => simp [parseTagged, he]
  | ipv6 v length => simp [parseTagged, he]
  | mac text =>
    cases hsimple with
    | mac hmac => simp [parseTagged, hmac]

theorem parse_tagged {s : String} (h : HasTag (ofSimple s.toList) tag) :
    parse (tag ++ ":" ++ s) = .ok (ofSimple s.toList) := by
  have htext : (tag ++ ":" ++ s).toList = tag.toList ++ ':' :: s.toList := by simp
  have hsolid : ∀ c ∈ tag.toList ++ ':' :: s.toList, Solid c := by
    intro c hc
    rcases List.mem_append.1 hc with hc | hc
    · exact h.solid c hc
    rcases List.mem_cons.1 hc with rfl | hc
    · exact ⟨rfl, by decide⟩
    · exact solid_of_numeric (h.numeric c hc)
  obtain ⟨c, cs, hc, hblank, hbracket⟩ := head?_label h.isScalar
  have hcolon := colon_not_mem_label (ofSimple s.toList)
  rw [h.label_eq] at hc hcolon
  rw [parse, htext, parseText_eq ⟨c, cs ++ ':' :: s.toList, by rw [hc]; rfl, hblank, hbracket⟩
    (closed_of_solid hsolid), parseScalar, Text.cutFirst_append hcolon]
  exact parseTagged_tag h _

theorem ofSimple_body (h : HasTag (ofSimple cs) tag) :
    ofSimple (ofSimple cs).body.toList = ofSimple cs := by
  have hsimple := isSimple_ofSimple cs
  generalize he : ofSimple cs = a at h hsimple
  cases hsimple with
  | ipv4 v length range => rw [body, String.toList_ofList, ofSimple_ipv4 v range]
  | ipv6 v length range => rw [body, String.toList_ofList, ofSimple_ipv6 v range]
  | mac hmac => rw [body, String.toList_ofList, he]
  | name => cases h

/-- A bare text that stands for an IP or MAC address is read as that address, with the tag of its family
and without it; the text behind the tag of the display text stands for the same address, and is read as
it in both ways too. -/
theorem spellings_agree {s : String} (h : HasTag (ofSimple s.toList) tag) :
    parse s = .ok (ofSimple s.toList) ∧ parse (tag ++ ":" ++ s) = .ok (ofSimple s.toList) ∧
      ∃ c, render (some (ofSimple s.toList)) = tag ++ ":" ++ c ∧
        ofSimple c.toList = ofSimple s.toList ∧ parse c = .ok (ofSimple s.toList) ∧
          parse (tag ++ ":" ++ c) = .ok (ofSimple s.toList) := by
  have hbody := ofSimple_body h
  have hcanonical : HasTag (ofSimple (ofSimple s.toList).body.toList) tag := hbody.symm ▸ h
  refine ⟨parse_bare h, parse_tagged h, (ofSimple s.toList).body, ?_, hbody, ?_, ?_⟩
  · rw [render, display_eq h.isScalar, h.label_eq]
  · rw [parse_bare hcanonical, hbody]
  · rw [parse_tagged hcanonical, hbody]

/-- A mask length with a sign and a leading zero, behind an address that is not in its shortest form. -/
theorem loose_prefix_agrees :
    HasTag (ofSimple "0:00::1:2/+064".toList) "ipv6" ∧
      ∃ v : Ip.V6, v.groups = [0, 0, 0, 0, 0, 0, 1, 2] ∧
        parse "0:00::1:2/+064" = .ok (.ipv6 v (some 64)) ∧
          parse ("ipv6" ++ ":" ++ "0:00::1:2/+064") = .ok (.ipv6 v (some 64)) ∧
            ∃ c, render (some (.ipv6 v (some 64))) = "ipv6" ++ ":" ++ c ∧
              parse c = .ok (.ipv6 v (some 64)) := by
  have hread : ofSimple "0:00::1:2/+064".toList =
      .ipv6 ⟨[0, 0, 0, 0, 0, 0, 1, 2], rfl⟩ (some 64) := by rfl
  have h : HasTag (ofSimple "0:00::1:2/+064".toList) "ipv6" := hread ▸ .ipv6 _ _
  obtain ⟨hbare, htagged, c, hc, -, hcanonical, -⟩ := spellings_agree h
  rw [hread] at hbare htagged hc hcanonical
  exact ⟨h, _, rfl, hbare, htagged, c, hc, hcanonical⟩

end EidMap.Address
