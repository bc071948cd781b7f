import EidMap.Proofs.Ip.V6
import EidMap.Proofs.Url.Name
import EidMap.Proofs.Url.Percent

/-!
# The text of a host is read back

A name is in ASCII form and its last part is no number, so it is read as the name it is. The text
of an address is read as the address, of version 4 because its last part is a number, of version 6
because of its brackets.
-/

namespace EidMap.Url

namespace Host

theorem number?_digits (n : Nat) : number? (Text.digits n) = some n := by
  have hdigit : ∀ c ∈ Text.digits n, c.isDigit = true := fun c hc => Text.isDigit_of_mem_digits hc
  have hzero : ∀ d ds, Text.digits n ≠ '0' :: d :: ds := by
    intro d ds h
    have hn : n = 0 := by
      have hhead := Text.positional_digits.head?_ne (n := n) (by decide)
      rw [h] at hhead
      exact Nat.eq_zero_of_not_pos fun hpos => hhead hpos rfl
    rw [hn, Text.positional_digits.of_lt (by decide)] at h
    cases h
  unfold number?
  split
  · rename_i h
    exact absurd h (Text.digits_ne_nil n)
  · rename_i h
    exact absurd h (hzero _ _)
  · rename_i h
    exact absurd h (hzero _ _)
  · rename_i h
    exact absurd h (hzero _ _)
  · exact Text.unsigned?_digits n

theorem numberParts_text (v : Ip.V4) : numberParts v.text = [Text.digits v.a.toNat,
    Text.digits v.b.toNat, Text.digits v.c.toNat, Text.digits v.d.toNat] := by
  have hpieces : Text.pieces '.' v.text = [Text.digits v.a.toNat, Text.digits v.b.toNat,
      Text.digits v.c.toNat, Text.digits v.d.toNat] := by
    rw [Ip.V4.text_eq, Text.pieces_append (Ip.V4.dot_not_mem_digits _),
      Text.pieces_append (Ip.V4.dot_not_mem_digits _),
      Text.pieces_append (Ip.V4.dot_not_mem_digits _),
      Text.pieces_eq_singleton (Ip.V4.dot_not_mem_digits _)]
  rw [numberParts, hpieces]
  refine if_neg ?_
  simp [Text.digits_ne_nil]

theorem endsInNumber_text (v : Ip.V4) : endsInNumber v.text = true := by
  rw [endsInNumber, numberParts_text]
  simp [number?_digits]

theorem ofIpv4Number_octets (v : Ip.V4) : ofIpv4Number
    ((256 * (256 * (256 * 0 + v.a.toNat) + v.b.toNat) + v.c.toNat) * 256 + v.d.toNat) = v := by
  have ha : v.a.toNat < 256 := v.a.toNat_lt
  have hb : v.b.toNat < 256 := v.b.toNat_lt
  have hc : v.c.toNat < 256 := v.c.toNat_lt
  have hd : v.d.toNat < 256 := v.d.toNat_lt
  have octet : ∀ {m : Nat} {x : UInt8}, m % 256 = x.toNat → UInt8.ofNat m = x := by
    intro m x h
    rw [← UInt8.toNat_inj, UInt8.toNat_ofNat', h]
  rw [ofIpv4Number, octet (x := v.a) (by omega), octet (x := v.b) (by omega),
    octet (x := v.c) (by omega), octet (x := v.d) (by omega)]

theorem ipv4?_text (v : Ip.V4) : ipv4? v.text = some v := by
  have hnumbers : [Text.digits v.a.toNat, Text.digits v.b.toNat, Text.digits v.c.toNat,
      Text.digits v.d.toNat].mapM number? =
        some [v.a.toNat, v.b.toNat, v.c.toNat, v.d.toNat] := by
    simp [number?_digits]
  have hlast : ¬Number.twoPow 8 ≤ v.d.toNat := Nat.not_le.2 v.d.toNat_lt
  have hfront : [v.a.toNat, v.b.toNat, v.c.toNat].any (255 < ·) = false := by
    have octet : ∀ x : UInt8, ¬255 < x.toNat := fun x => Nat.not_lt.2 (Nat.le_of_lt_succ x.toNat_lt)
    simp [octet]
  rw [ipv4?, numberParts_text, hnumbers]
  have hfits : ¬((decide (Number.twoPow 8 ≤ v.d.toNat) ||
      [v.a.toNat, v.b.toNat, v.c.toNat].any (255 < ·)) = true) := by
    rw [hfront, Bool.or_false, decide_eq_true_eq]
    exact hlast
  calc
    _ = if (decide (Number.twoPow 8 ≤ v.d.toNat) ||
          [v.a.toNat, v.b.toNat, v.c.toNat].any (255 < ·)) = true then none
        else some (ofIpv4Number _) := rfl
    _ = some v := by rw [if_neg hfits]; exact congrArg some (ofIpv4Number_octets v)

theorem read?_groupsText (v : Ip.V6) : Ip.V6.read? (groupsText v.groups) = some v := by
  rw [← Ip.V6.ofGroups?_groups v, groupsText]
  split
  rename_i start length hz
  split
  · rename_i hl
    exact Ip.V6.read?_shortened v.eight hz hl
  · exact Ip.V6.read?_joined v.eight

theorem mem_groupsText {gs : List UInt16} {c : Char} (h : c ∈ groupsText gs) :
    Text.isHex c = true ∨ c = ':' := by
  rw [groupsText] at h
  split at h
  split at h
  · rcases List.mem_append.1 h with h | h
    · exact Ip.V6.mem_joined h
    rcases List.mem_cons.1 h with h | h
    · exact .inr h
    rcases List.mem_cons.1 h with h | h
    · exact .inr h
    · exact Ip.V6.mem_joined h
  · exact Ip.V6.mem_joined h

theorem isAsciiName_text (v : Ip.V4) : IsAsciiName v.text := by
  have hall : ∀ c ∈ v.text, Settled c ∧ isForbidden c = false := by
    intro c hc
    have hrange : c.toNat < 58 ∧ 46 ≤ c.toNat ∧ c.toNat ≠ 47 := by
      rcases Ip.V4.mem_text hc with h | rfl
      · have hdigit : 48 ≤ c.toNat ∧ c.toNat ≤ 57 := Char.isDigit_iff_toNat.1 h
        omega
      · decide
    exact forall_of_ofNat (p := fun c => 46 ≤ c.toNat ∧ c.toNat ≠ 47 →
      Settled c ∧ isForbidden c = false) (by decide) hrange.1 hrange.2
  exact ⟨fun c hc => (hall c hc).1, fun c hc => (hall c hc).2⟩

theorem text_ne_nil (v : Ip.V4) : v.text ≠ [] := by
  rw [Ip.V4.text_eq]
  simp

/-- A host in the form in which a URL has it. -/
inductive Normal : Host → Prop
  | domain {name : List Char} (ascii : IsAsciiName name) (ne : name ≠ [])
    (named : endsInNumber name = false) : Normal (.domain (String.ofList name))
  | ipv4 (v : Ip.V4) : Normal (.ipv4 v)
  | ipv6 (v : Ip.V6) : Normal (.ipv6 v)

theorem normal_of_ipv6? {cs : List Char} {h : Host} (hread : ipv6? cs = .ok h) : Normal h := by
  rw [ipv6?] at hread
  split at hread
  · cases hread
    exact .ipv6 _
  · cases hread

theorem normal_of_read {cs : List Char} {h : Host} (hread : read cs = .ok h) : Normal h := by
  unfold read at hread
  split at hread
  · split at hread
    · exact normal_of_ipv6? hread
    · cases hread
  · split at hread
    · cases hread
    · cases hread
    · rename_i name hne hname
      obtain ⟨decoded, -, hascii⟩ := Option.bind_eq_some_iff.1 hname
      split at hread
      · split at hread
        · cases hread
          exact .ipv4 _
        · cases hread
      · rename_i hnamed
        cases hread
        exact .domain (isAsciiName_of_asciiName? hascii) hne (Bool.eq_false_iff.2 hnamed)

theorem read_of_isAsciiName {name : List Char} (ascii : IsAsciiName name) (ne : name ≠ []) :
    read name = if endsInNumber name then
        match ipv4? name with
        | some v => .ok (.ipv4 v)
        | none => .error .invalidIpv4
      else .ok (.domain (String.ofList name)) := by
  have hpercent : '%' ∉ name := fun hm => absurd (ascii.allowed _ hm) (by decide)
  unfold read
  split
  · exact absurd (ascii.allowed _ List.mem_cons_self) (by decide)
  · rw [decode?_eq_some hpercent, Option.bind_some, ascii.asciiName?_eq]
    split
    · rename_i h
      cases h
    · rename_i h
      cases h
      exact absurd rfl ne
    · rename_i h
      cases h
      rfl

theorem Normal.read_text {h : Host} (normal : Normal h) : read h.text.toList = .ok h := by
  cases normal with
  | domain ascii ne named =>
    rw [text, String.toList_ofList, read_of_isAsciiName ascii ne, named]
    rfl
  | ipv4 v =>
    rw [text, String.toList_ofList, read_of_isAsciiName (isAsciiName_text v) (text_ne_nil v),
      endsInNumber_text, ipv4?_text]
    rfl
  | ipv6 v =>
    have hbracketed : bracketed (groupsText v.groups ++ [']']) = some (groupsText v.groups) := by
      simp [bracketed]
    rw [text, String.toList_ofList]
    dsimp only [List.cons_append]
    rw [read, hbracketed]
    dsimp only
    rw [ipv6?, read?_groupsText]

def Inner (c : Char) : Prop := isEdge c = false ∧ endsAuthority true c = false ∧ c ≠ '@'

instance : DecidablePred Inner := fun c =>
  inferInstanceAs (Decidable (isEdge c = false ∧ endsAuthority true c = false ∧ c ≠ '@'))

theorem inner_of_allowed {c : Char} (h : isForbidden c = false) : Inner c := by
  refine ⟨Bool.eq_false_iff.2 fun hedge => ?_, Bool.eq_false_iff.2 fun hends => ?_, ?_⟩
  · have hbound : c.toNat < 33 := Nat.lt_succ_of_le (of_decide_eq_true hedge)
    exact forall_of_ofNat (p := fun c => isForbidden c ≠ false) (by decide) hbound h
  · simp only [endsAuthority, Bool.true_and, Bool.or_eq_true, beq_iff_eq] at hends
    rcases hends with ((rfl | rfl) | rfl) | rfl <;> exact absurd h (by decide)
  · rintro rfl
    exact absurd h (by decide)

theorem inner_of_isHex {c : Char} (h : Text.isHex c = true) : Inner c := by
  have hbound : c.toNat < 128 := by
    have := Text.toNat_of_isHex h
    omega
  exact forall_of_ofNat (p := fun c => Text.isHex c = true → Inner c) (by decide) hbound h

theorem Normal.inner {h : Host} (normal : Normal h) : ∀ c ∈ h.text.toList, Inner c := by
  intro c hc
  cases normal with
  | domain ascii ne named =>
    rw [text, String.toList_ofList] at hc
    exact inner_of_allowed (ascii.allowed c hc)
  | ipv4 v =>
    rw [text, String.toList_ofList] at hc
    exact inner_of_allowed ((isAsciiName_text v).allowed c hc)
  | ipv6 v =>
    rw [text, String.toList_ofList] at hc
    rcases List.mem_append.1 hc with hc | hc
    · rcases List.mem_cons.1 hc with rfl | hc
      · decide
      · rcases mem_groupsText hc with h | rfl
        · exact inner_of_isHex h
        · decide
    · cases List.mem_singleton.1 hc
      decide

theorem Normal.text_ne_nil {h : Host} (normal : Normal h) : h.text.toList ≠ [] := by
  cases normal with
  | domain ascii ne named => rwa [text, String.toList_ofList]
  | ipv4 v =>
    rw [text, String.toList_ofList]
    exact Host.text_ne_nil v
  | ipv6 v =>
    rw [text, String.toList_ofList]
    exact List.cons_ne_nil _ _

end Host

theorem hostEnd_name {name : List Char} (h : ∀ c ∈ name, c ≠ ':' ∧ c ≠ '[' ∧ c ≠ ']')
    {rest : List Char} (hrest : hostEnd false rest = ([], rest)) :
    hostEnd false (name ++ rest) = (name, rest) := by
  induction name with
  | nil => exact hrest
  | cons c name ih =>
    obtain ⟨hc, hname⟩ := List.forall_mem_cons.1 h
    rw [List.cons_append, hostEnd, if_neg (by simp [hc.1]), if_neg hc.2.1, if_neg hc.2.2, ih hname]

theorem hostEnd_inside {inner : List Char} (h : ∀ c ∈ inner, c ≠ '[' ∧ c ≠ ']')
    {rest : List Char} (hrest : hostEnd false rest = ([], rest)) :
    hostEnd true (inner ++ ']' :: rest) = (inner ++ [']'], rest) := by
  induction inner with
  | nil =>
    rw [List.nil_append, hostEnd, if_neg (by decide), if_neg (by decide), if_pos rfl, hrest]
    rfl
  | cons c inner ih =>
    obtain ⟨hc, hinner⟩ := List.forall_mem_cons.1 h
    rw [List.cons_append, hostEnd, if_neg (by simp), if_neg hc.1, if_neg hc.2, ih hinner]
    rfl

theorem Host.Normal.hostEnd_text {h : Host} (normal : Host.Normal h) {rest : List Char}
    (hrest : hostEnd false rest = ([], rest)) :
    hostEnd false (h.text.toList ++ rest) = (h.text.toList, rest) := by
  have hname : ∀ {name : List Char}, IsAsciiName name →
      ∀ c ∈ name, c ≠ ':' ∧ c ≠ '[' ∧ c ≠ ']' := by
    intro name ascii c hc
    refine ⟨?_, ?_, ?_⟩
    all_goals
      rintro rfl
      exact absurd (ascii.allowed _ hc) (by decide)
  cases normal with
  | domain ascii ne named =>
    rw [Host.text, String.toList_ofList]
    exact hostEnd_name (hname ascii) hrest
  | ipv4 v =>
    rw [Host.text, String.toList_ofList]
    exact hostEnd_name (hname (Host.isAsciiName_text v)) hrest
  | ipv6 v =>
    have hinner : ∀ c ∈ Host.groupsText v.groups, c ≠ '[' ∧ c ≠ ']' := by
      intro c hc
      rcases Host.mem_groupsText hc with h | rfl
      · refine ⟨?_, ?_⟩
        all_goals
          rintro rfl
          exact absurd h (by decide)
      · decide
    rw [Host.text, String.toList_ofList, List.append_assoc, List.cons_append, hostEnd,
      if_neg (by decide), if_pos rfl]
    rw [List.singleton_append, hostEnd_inside hinner hrest]
    rfl

end EidMap.Url
