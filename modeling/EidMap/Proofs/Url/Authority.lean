import EidMap.Json.Parts
import EidMap.Proofs.Url.Host
import EidMap.Url.Basic

/-!
# The authority of a web URL

Its user is encoded, its host is in the form of a host, and its port is not the one that the
scheme has anyway. Such an authority is read back from its text, in which nothing ends it.
-/

namespace EidMap

theorem Text.uint16?_digits (n : UInt16) : Text.uint16? (Text.digits n.toNat) = some n := by
  have hn : n.toNat < UInt16.size := n.toNat_lt
  rw [uint16?, natural?_digits]
  simp only [Option.bind_some, if_pos hn, UInt16.ofNat_toNat]

namespace Url

def Encoded (cs : List Char) : Prop := ∀ c ∈ cs, userinfoSet c = false

theorem encoded_encode (cs : List Char) :
    Encoded (String.ofList (encode userinfoSet cs)).toList := by
  rw [String.toList_ofList]
  exact keepsEscapes_userinfoSet.of_mem_encode

theorem Encoded.not_mem {cs : List Char} (h : Encoded cs) {c : Char} (hc : userinfoSet c = true) :
    c ∉ cs := fun hm => Bool.false_ne_true ((h c hm).symm.trans hc)

theorem Encoded.encode_eq {s : String} (h : Encoded s.toList) :
    String.ofList (encode userinfoSet s.toList) = s := by
  rw [encode_eq_self h, String.ofList_toList]

namespace Authority

/-- An authority in the form in which a web URL has it. -/
structure Normal (scheme : String) (a : Authority) : Prop where
  username : Encoded a.username.toList
  password : ∀ p ∈ a.password, p.toList ≠ [] ∧ Encoded p.toList
  host : a.host.Normal
  port : ∀ p ∈ a.port, defaultPort? scheme ≠ some p

variable {scheme : String} {a : Authority}

def passwordText (a : Authority) : List Char :=
  match a.password with
  | some p => ':' :: p.toList
  | none => []

def userText (a : Authority) : Option (List Char) :=
  if a.username.isEmpty && a.password.isNone then none
  else some (a.username.toList ++ a.passwordText)

def portText (a : Authority) : List Char :=
  match a.port with
  | some p => ':' :: Text.digits p.toNat
  | none => []

theorem toList_text (a : Authority) : a.text.toList = (match a.userText with
    | none => []
    | some user => user ++ ['@']) ++ (a.host.text.toList ++ a.portText) := by
  obtain ⟨username, password, host, port⟩ := a
  rw [text, userText, portText]
  cases password <;> cases port <;> simp only [passwordText] <;>
    split_ifs <;> simp_all [Text.natText]

theorem userinfo_userText (normal : a.Normal scheme) :
    userinfo (a.username.toList ++ a.passwordText) = (a.username, a.password) := by
  obtain ⟨username, password, host, port⟩ := a
  have hcolon : ':' ∉ username.toList := normal.username.not_mem rfl
  rw [userinfo, passwordText]
  cases password with
  | none =>
    dsimp only
    rw [List.append_nil, Text.cutFirst_eq_none hcolon]
    dsimp only
    rw [Encoded.encode_eq normal.username]
    rfl
  | some p =>
    obtain ⟨ne, hp⟩ := normal.password p rfl
    dsimp only
    rw [Text.cutFirst_append hcolon]
    dsimp only
    rw [Encoded.encode_eq normal.username, hp.encode_eq, List.isEmpty_eq_false_iff.2 ne]
    rfl

theorem hostEnd_portText (a : Authority) : hostEnd false a.portText = ([], a.portText) := by
  rw [portText]
  cases a.port <;> rfl

theorem readPort_portText (normal : a.Normal scheme) : readPort scheme a.portText = .ok a.port := by
  rw [portText]
  cases hport : a.port with
  | none => rfl
  | some p =>
    have hne : (Text.digits p.toNat).isEmpty = false :=
      List.isEmpty_eq_false_iff.2 (Text.digits_ne_nil _)
    dsimp only
    rw [readPort, Text.all_isDigit_digits, hne, Text.uint16?_digits]
    dsimp only
    rw [if_neg (normal.port p hport)]
    rfl

theorem inner_of_mem_portText {c : Char} (h : c ∈ a.portText) : Host.Inner c := by
  rw [portText] at h
  split at h
  · rcases List.mem_cons.1 h with rfl | h
    · decide
    · exact Host.inner_of_isHex (Text.isHex_of_isDigit (Text.isDigit_of_mem_digits h))
  · cases h

theorem inner_of_mem_place (normal : a.Normal scheme) {c : Char}
    (h : c ∈ a.host.text.toList ++ a.portText) : Host.Inner c :=
  (List.mem_append.1 h).elim (normal.host.inner c) inner_of_mem_portText

theorem encoded_userinfo (cs : List Char) : Encoded (userinfo cs).1.toList ∧
    ∀ p ∈ (userinfo cs).2, p.toList ≠ [] ∧ Encoded p.toList := by
  have hpassword : ∀ cs : List Char, ∀ p ∈ (if cs.isEmpty then none else
      some (String.ofList (encode userinfoSet cs))), p.toList ≠ [] ∧ Encoded p.toList := by
    intro cs p hp
    split at hp
    · cases hp
    · rename_i hne
      cases hp
      refine ⟨?_, encoded_encode cs⟩
      rw [String.toList_ofList]
      exact encode_ne_nil _ (mt List.isEmpty_iff.2 hne)
  rw [userinfo]
  cases Text.cutFirst ':' cs with
  | none => exact ⟨encoded_encode cs, hpassword []⟩
  | some cut => exact ⟨encoded_encode cut.1, hpassword cut.2⟩

theorem port_of_readPort {cs : List Char} {port : Option UInt16}
    (h : readPort scheme cs = .ok port) : ∀ p ∈ port, defaultPort? scheme ≠ some p := by
  unfold readPort at h
  split at h
  · split at h
    · cases h
    split at h
    · cases h
      exact fun p hp => nomatch hp
    split at h
    · cases h
    · cases h
      intro p hp
      split at hp
      · cases hp
      · rename_i hdefault
        cases hp
        exact hdefault
  · cases h
    exact fun p hp => nomatch hp

def cutUser (cs : List Char) : (String × Option String) × List Char :=
  match Text.cutLast '@' cs with
  | some (user, place) => (userinfo user, place)
  | none => (("", none), cs)

theorem readAuthority_eq (special : isSpecial scheme = true) (cs : List Char) :
    readAuthority scheme cs =
      let (user, place) := cutUser cs
      let (host, port) := hostEnd false place
      if host.isEmpty then .error .emptyHost
      else do
        let host ← Host.read host
        return ⟨user.1, user.2, host, ← readPort scheme port⟩ := by
  rw [readAuthority, special, cutUser]
  cases Text.cutLast '@' cs <;> simp only [Bool.true_or, Bool.and_true, if_pos]

theorem normal_of_readAuthority {cs : List Char} (special : isSpecial scheme = true)
    (h : readAuthority scheme cs = .ok a) : a.Normal scheme := by
  have huser : Encoded (cutUser cs).1.1.toList ∧
      ∀ p ∈ (cutUser cs).1.2, p.toList ≠ [] ∧ Encoded p.toList := by
    rw [cutUser]
    split
    · exact encoded_userinfo _
    · refine ⟨fun c hc => ?_, fun p hp => nomatch hp⟩
      simp at hc
  rw [readAuthority_eq special] at h
  dsimp only at h
  split at h
  · cases h
  obtain ⟨host, hhost, h⟩ := Json.bind_eq_ok.1 h
  obtain ⟨port, hport, h⟩ := Json.bind_eq_ok.1 h
  cases h
  exact ⟨huser.1, huser.2, Host.normal_of_read hhost, port_of_readPort hport⟩

theorem cutUser_text (normal : a.Normal scheme) :
    cutUser a.text.toList = ((a.username, a.password), a.host.text.toList ++ a.portText) := by
  have hplace : '@' ∉ a.host.text.toList ++ a.portText := fun hm =>
    absurd (inner_of_mem_place normal hm) (by decide)
  rw [cutUser, toList_text]
  cases huser : a.userText with
  | none =>
    rw [userText] at huser
    split at huser
    · rename_i hnone
      rw [Bool.and_eq_true, String.isEmpty_iff, Option.isNone_iff_eq_none] at hnone
      dsimp only
      rw [List.nil_append, Text.cutLast_eq_none hplace, hnone.1, hnone.2]
    · cases huser
  | some user =>
    rw [userText] at huser
    split at huser
    · cases huser
    · cases huser
      dsimp only
      rw [List.append_assoc, List.singleton_append, Text.cutLast_append _ hplace]
      dsimp only
      rw [userinfo_userText normal]

theorem inside_of_encoded {c : Char} (h : userinfoSet c = false) :
    isEdge c = false ∧ endsAuthority true c = false := by
  refine ⟨isEdge_of_fragmentSet (fragmentSet_of_pathSet (pathSet_of_userinfoSet h)),
    Bool.eq_false_iff.2 fun hends => ?_⟩
  simp only [endsAuthority, Bool.true_and, Bool.or_eq_true, beq_iff_eq] at hends
  rcases hends with ((rfl | rfl) | rfl) | rfl <;> exact absurd h (by decide)

theorem Normal.inside (normal : a.Normal scheme) :
    ∀ c ∈ a.text.toList, isEdge c = false ∧ endsAuthority true c = false := by
  have hpassword : ∀ c ∈ a.passwordText, isEdge c = false ∧ endsAuthority true c = false := by
    intro c hc
    rw [passwordText] at hc
    split at hc
    · rename_i p hp
      rcases List.mem_cons.1 hc with rfl | hc
      · decide
      · exact inside_of_encoded ((normal.password p hp).2 c hc)
    · cases hc
  have huser : ∀ user ∈ a.userText, ∀ c ∈ user,
      isEdge c = false ∧ endsAuthority true c = false := by
    intro user huser c hc
    rw [userText] at huser
    split at huser
    · cases huser
    · cases huser
      exact (List.mem_append.1 hc).elim (fun hc => inside_of_encoded (normal.username c hc))
        (hpassword c)
  intro c hc
  rw [toList_text] at hc
  rcases List.mem_append.1 hc with hc | hc
  · split at hc
    · cases hc
    · rename_i user heq
      rcases List.mem_append.1 hc with hc | hc
      · exact huser user heq c hc
      · cases List.mem_singleton.1 hc
        decide
  · have hinner := inner_of_mem_place normal hc
    exact ⟨hinner.1, hinner.2.1⟩

theorem Normal.text_ne_nil (normal : a.Normal scheme) : a.text.toList ≠ [] := by
  rw [toList_text]
  simp [normal.host.text_ne_nil]

theorem Normal.readAuthority_text (special : isSpecial scheme = true) (normal : a.Normal scheme) :
    readAuthority scheme a.text.toList = .ok a := by
  rw [readAuthority_eq special, cutUser_text normal]
  dsimp only
  rw [normal.host.hostEnd_text a.hostEnd_portText]
  dsimp only
  rw [List.isEmpty_eq_false_iff.2 normal.host.text_ne_nil, normal.host.read_text,
    readPort_portText normal]
  rfl

end Authority

end Url

end EidMap
