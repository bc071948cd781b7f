import EidMap.Ip.V6
import EidMap.Proofs.Ip.V4

/-!
# The text of an IPv6 address is read back

The groups of a text are read one by one until the text ends or a double colon stands in the way,
so the two sides of a shortened run of zeros are read apart and the zeros are what is missing. The
mapped form ends in an IPv4 address, which stands for its last two groups.
-/

namespace EidMap.Ip.V6

open Text (hexDigits isHex)

theorem groupHead?_hexDigits (g : UInt16) {rest : List Char}
    (h : ∀ c ∈ rest.head?, isHex c = false) :
    groupHead? (hexDigits g.toNat ++ rest) = some (g, rest) := by
  have hd : ∀ c ∈ hexDigits g.toNat, isHex c = true := fun c hc => Text.isHex_of_mem_hexDigits hc
  have hne : (hexDigits g.toNat).isEmpty = false := by
    simpa [List.isEmpty_iff] using Text.hexDigits_ne_nil _
  have hn : g.toNat < 65536 := g.toNat_lt
  have hlen : (hexDigits g.toNat).length ≤ 4 := Text.positional_hexDigits.length_le hn
  rw [groupHead?, Text.takeWhile_append_eq hd h, Text.dropWhile_append_eq hd h, hne,
    Text.ofHex_hexDigits, UInt16.ofNat_toNat]
  exact if_neg (by simpa using hlen)

theorem groupHead?_of_head? {cs : List Char} (h : ∀ c ∈ cs.head?, isHex c = false) :
    groupHead? cs = none := by
  rw [groupHead?, Text.takeWhile_eq_nil h]
  rfl

def colonLed : List UInt16 → List Char
  | [] => []
  | g :: gs => ':' :: (hexDigits g.toNat ++ colonLed gs)

theorem joined_cons (g : UInt16) (gs : List UInt16) :
    joined (g :: gs) = hexDigits g.toNat ++ colonLed gs := by
  induction gs generalizing g with
  | nil => simp [joined, colonLed]
  | cons g' gs ih =>
    rw [joined, ih g', colonLed]
    intro h
    cases h

theorem mem_colonLed {gs : List UInt16} {c : Char} (h : c ∈ colonLed gs) :
    isHex c = true ∨ c = ':' := by
  induction gs with
  | nil => cases h
  | cons g gs ih =>
    rw [colonLed, List.mem_cons, List.mem_append] at h
    rcases h with rfl | h | h
    · exact .inr rfl
    · exact .inl (Text.isHex_of_mem_hexDigits h)
    · exact ih h

theorem mem_joined {gs : List UInt16} {c : Char} (h : c ∈ joined gs) :
    isHex c = true ∨ c = ':' := by
  cases gs with
  | nil => cases h
  | cons g gs =>
    rw [joined_cons, List.mem_append] at h
    rcases h with h | h
    · exact .inl (Text.isHex_of_mem_hexDigits h)
    · exact mem_colonLed h

theorem dot_not_mem_joined (gs : List UInt16) : '.' ∉ joined gs := by
  intro h
  rcases mem_joined h with h | h
  · exact absurd h (by decide)
  · exact absurd h (by decide)

def Stops (rest : List Char) : Prop := rest = [] ∨ ∃ cs, rest = ':' :: ':' :: cs

theorem Stops.head? {rest : List Char} (h : Stops rest) : ∀ c ∈ rest.head?, isHex c = false := by
  obtain rfl | ⟨cs, rfl⟩ := h
  · intro c hc
    cases hc
  · intro c hc
    cases hc
    rfl

theorem groupsHead_stop {first : Bool} {cs : List Char}
    (h : ∀ x, separated? first cs = some x → ∀ c ∈ x.head?, isHex c = false) (room : Nat) :
    groupsHead room first cs = ([], false, cs) := by
  cases room with
  | zero => rfl
  | succ room =>
    rw [groupsHead]
    cases hs : separated? first cs with
    | none => simp
    | some x =>
      have hx := h x hs
      have hd : ∀ c ∈ x.head?, c.isDigit = false := fun c hc =>
        Bool.eq_false_iff.2 fun ht => Bool.eq_false_iff.1 (hx c hc) (Text.isHex_of_isDigit ht)
      simp [V4.readHead?_of_head? hd, groupHead?_of_head? hx]

theorem groupsHead_group {first : Bool} {cs x rest : List Char} {g : UInt16}
    (hs : separated? first cs = some x) (hv : V4.readHead? x = none)
    (hg : groupHead? x = some (g, rest)) (room : Nat) :
    groupsHead (room + 1) first cs =
      (g :: (groupsHead room false rest).1, (groupsHead room false rest).2) := by
  rw [groupsHead]
  simp [hs, hv, hg]

theorem Stops.groupsHead_eq {rest : List Char} (h : Stops rest) (room : Nat) (first : Bool) :
    groupsHead room first rest = ([], false, rest) := by
  apply groupsHead_stop
  intro x hx
  cases first with
  | true =>
    cases hx
    exact h.head?
  | false =>
    obtain rfl | ⟨cs, rfl⟩ := h
    · cases hx
    · cases hx
      intro c hc
      cases hc
      rfl

theorem Stops.colonLed_head? {rest : List Char} (h : Stops rest) (gs : List UInt16) :
    ∀ c ∈ (colonLed gs ++ rest).head?, isHex c = false := by
  cases gs with
  | nil => exact h.head?
  | cons g gs =>
    intro c hc
    cases hc
    rfl

theorem groupsHead_next {first : Bool} {cs rest : List Char} {g : UInt16} {gs : List UInt16}
    (hr : Stops rest) (hdot : '.' ∉ rest)
    (hs : separated? first cs = some (hexDigits g.toNat ++ (colonLed gs ++ rest))) (room : Nat) :
    groupsHead (room + 1) first cs = (g :: (groupsHead room false (colonLed gs ++ rest)).1,
      (groupsHead room false (colonLed gs ++ rest)).2) := by
  have hd : '.' ∉ hexDigits g.toNat ++ (colonLed gs ++ rest) := by
    have hj := dot_not_mem_joined (g :: gs)
    rw [joined_cons] at hj
    simpa [← List.append_assoc, hdot] using hj
  exact groupsHead_group hs (V4.readHead?_eq_none hd)
    (groupHead?_hexDigits g (hr.colonLed_head? gs)) room

theorem groupsHead_colonLed {gs : List UInt16} {rest : List Char} {room : Nat} (hr : Stops rest)
    (hdot : '.' ∉ rest) (hlen : gs.length ≤ room) :
    groupsHead room false (colonLed gs ++ rest) = (gs, false, rest) := by
  induction gs generalizing room with
  | nil => exact hr.groupsHead_eq room false
  | cons g gs ih =>
    cases room with
    | zero => cases hlen
    | succ room =>
      rw [colonLed, List.cons_append, List.append_assoc, groupsHead_next hr hdot rfl,
        ih (Nat.le_of_succ_le_succ hlen)]

theorem groupsHead_joined {gs : List UInt16} {rest : List Char} {room : Nat} (hr : Stops rest)
    (hdot : '.' ∉ rest) (hlen : gs.length ≤ room) :
    groupsHead room true (joined gs ++ rest) = (gs, false, rest) := by
  cases gs with
  | nil => exact hr.groupsHead_eq room true
  | cons g gs =>
    cases room with
    | zero => cases hlen
    | succ room =>
      rw [joined_cons, List.append_assoc, groupsHead_next hr hdot rfl,
        groupsHead_colonLed hr hdot (Nat.le_of_succ_le_succ hlen)]

theorem eq_zeroRun_append (gs : List UInt16) :
    gs = List.replicate (zeroRun gs) 0 ++ gs.drop (zeroRun gs) := by
  induction gs with
  | nil => rfl
  | cons g gs ih =>
    by_cases hg : g = 0
    · have hz : zeroRun (g :: gs) = zeroRun gs + 1 := by simp [zeroRun, hg]
      rw [hz, List.replicate_succ, List.drop_succ_cons, hg, List.cons_append, ← ih]
    · have hz : zeroRun (g :: gs) = 0 := by simp [zeroRun, hg]
      rw [hz]
      rfl

theorem longestZeros_spec {gs : List UInt16} {i start length : Nat}
    (h : longestZeros i gs = (start, length)) (hpos : 0 < length) :
    i ≤ start ∧ gs = gs.take (start - i) ++
      (List.replicate length 0 ++ gs.drop (start - i + length)) := by
  induction gs generalizing i with
  | nil =>
    cases h
    cases hpos
  | cons g gs ih =>
    simp only [longestZeros] at h
    split at h
    · cases h
      refine ⟨Nat.le_refl _, ?_⟩
      simpa using eq_zeroRun_append (g :: gs)
    · obtain ⟨hle, hgs⟩ := ih h
      have hi : start - i = start - (i + 1) + 1 := by omega
      refine ⟨by omega, ?_⟩
      rw [hi, List.take_succ_cons, Nat.add_right_comm, List.drop_succ_cons, List.cons_append, ← hgs]

theorem ofGroups?_groups (v : V6) : ofGroups? v.groups = some v := by
  rw [ofGroups?, dif_pos v.eight]

theorem pair_high_low (g : UInt16) : pair (high g) (low g) = g := by
  apply UInt16.toNat_inj.1
  have hg : g.toNat < 65536 := g.toNat_lt
  simp [pair, high, low]
  omega

theorem groupsHead_v4 (v : V4) :
    groupsHead 6 false (':' :: v.text) = ([pair v.a v.b, pair v.c v.d], true, []) := by
  have hv : V4.readHead? v.text = some (v, []) := by
    simpa using @V4.readHead?_text v [] (by simp)
  rw [groupsHead]
  simp [separated?, hv]

theorem read?_mapped (v : V4) :
    read? ("::ffff:".toList ++ v.text) =
      ofGroups? [0, 0, 0, 0, 0, 0xffff, pair v.a v.b, pair v.c v.d] := by
  have hhead : groupsHead 8 true (':' :: ':' :: 'f' :: 'f' :: 'f' :: 'f' :: ':' :: v.text) =
      ([], false, ':' :: ':' :: 'f' :: 'f' :: 'f' :: 'f' :: ':' :: v.text) :=
    Stops.groupsHead_eq (.inr ⟨_, rfl⟩) 8 true
  have hmark : groupHead? ('f' :: 'f' :: 'f' :: 'f' :: ':' :: v.text) =
      some (0xffff, ':' :: v.text) := rfl
  have htail : groupsHead 7 true ('f' :: 'f' :: 'f' :: 'f' :: ':' :: v.text) =
      ([0xffff, pair v.a v.b, pair v.c v.d], true, []) := by
    rw [groupsHead_group rfl (V4.readHead?_of_head? (by simp)) hmark, groupsHead_v4]
  change read? (':' :: ':' :: 'f' :: 'f' :: 'f' :: 'f' :: ':' :: v.text) = _
  rw [read?, hhead]
  simp [htail, List.replicate]

theorem read?_joined {gs : List UInt16} (h8 : gs.length = 8) :
    read? (joined gs) = ofGroups? gs := by
  have hgs := @groupsHead_joined gs [] 8 (.inl rfl) (by simp) (by omega)
  rw [List.append_nil] at hgs
  rw [read?, hgs]
  simp [h8]

theorem read?_shortened {gs : List UInt16} (h8 : gs.length = 8) {start length : Nat}
    (hz : longestZeros 0 gs = (start, length)) (hl : 1 < length) :
    read? (joined (gs.take start) ++ ':' :: ':' :: joined (gs.drop (start + length))) =
      ofGroups? gs := by
  obtain ⟨-, hgs⟩ := longestZeros_spec hz (by omega)
  simp only [Nat.sub_zero] at hgs
  have hlen := congrArg List.length hgs
  simp only [List.length_append, List.length_take, List.length_replicate,
    List.length_drop] at hlen
  have hhead := @groupsHead_joined (gs.take start)
    (':' :: ':' :: joined (gs.drop (start + length))) 8 (.inr ⟨_, rfl⟩)
    (by simpa using dot_not_mem_joined _) (by rw [List.length_take]; omega)
  have htail := @groupsHead_joined (gs.drop (start + length)) [] (7 - (gs.take start).length)
    (.inl rfl) (by simp) (by rw [List.length_drop, List.length_take]; omega)
  have hzeros : 8 - (gs.take start).length - (gs.drop (start + length)).length = length := by
    rw [List.length_drop, List.length_take]
    omega
  have hne : (gs.take start).length ≠ 8 := by
    rw [List.length_take]
    omega
  rw [List.append_nil] at htail
  rw [read?, hhead]
  simp only [if_neg hne, htail, hzeros]
  rw [List.append_assoc, ← hgs]
  rfl

theorem read?_text (v : V6) : read? v.text = some v := by
  rw [text, ← ofGroups?_groups v]
  have h8 := v.eight
  generalize v.groups = gs at h8 ⊢
  unfold groupsText
  split
  · rw [read?_mapped, pair_high_low, pair_high_low]
  · split
    rename_i start length hz
    split
    · rename_i hl
      exact read?_shortened h8 hz hl
    · exact read?_joined h8

theorem mem_text {v : V6} {c : Char} (h : c ∈ v.text) : isHex c = true ∨ c = ':' ∨ c = '.' := by
  have hj : ∀ {gs : List UInt16}, c ∈ joined gs → isHex c = true ∨ c = ':' ∨ c = '.' := by
    intro gs hc
    rcases mem_joined hc with hc | hc
    · exact .inl hc
    · exact .inr (.inl hc)
  rw [text] at h
  unfold groupsText at h
  split at h
  · rw [List.mem_append] at h
    rcases h with h | h
    · have hf : isHex 'f' = true := by decide
      have hmark : ∀ d ∈ [':', ':', 'f', 'f', 'f', 'f', ':'],
          isHex d = true ∨ d = ':' ∨ d = '.' := by simp [hf]
      exact hmark c h
    · rcases V4.mem_text h with h | h
      · exact .inl (Text.isHex_of_isDigit h)
      · exact .inr (.inr h)
  · split at h
    split at h
    · simp only [List.mem_append, List.mem_cons] at h
      rcases h with h | h | h | h
      · exact hj h
      · exact .inr (.inl h)
      · exact .inr (.inl h)
      · exact hj h
    · exact hj h

theorem colon_mem_joined {gs : List UInt16} (h : 1 < gs.length) : ':' ∈ joined gs := by
  match gs, h with
  | g :: g' :: gs, _ => simp [joined]

theorem colon_mem_text (v : V6) : ':' ∈ v.text := by
  have h8 := v.eight
  rw [text]
  generalize v.groups = gs at h8 ⊢
  unfold groupsText
  split
  · simp
  · split
    split
    · simp
    · exact colon_mem_joined (by omega)

theorem v4_read?_text (v : V6) : V4.read? v.text = none := by
  apply Option.eq_none_iff_forall_ne_some.2
  intro x hx
  rcases V4.isDigit_or_dot_of_read? hx ':' (colon_mem_text v) with h | h
  · cases h
  · cases h

def IsPart (c : Char) : Prop := isHex c = true ∨ c = ':' ∨ c = '.'

theorem separated?_follows {first : Bool} {cs rest : List Char}
    (h : separated? first cs = some rest) : Text.Follows IsPart rest cs := by
  cases first with
  | true =>
    cases h
    exact .refl _
  | false =>
    have hcolon : cs = ':' :: rest := by
      simp only [separated?] at h
      grind
    rw [hcolon]
    exact .cons (.inr (.inl rfl)) rest

theorem groupHead?_follows {cs rest : List Char} {g : UInt16}
    (h : groupHead? cs = some (g, rest)) : Text.Follows IsPart rest cs := by
  simp only [groupHead?] at h
  split at h
  · cases h
  · cases h
    exact .dropWhile (fun c hc => .inl hc) cs

theorem groupsHead_follows {room : Nat} {first four : Bool} {cs rest : List Char}
    {gs : List UInt16} (h : groupsHead room first cs = (gs, four, rest)) :
    Text.Follows IsPart rest cs := by
  induction room generalizing first cs gs with
  | zero =>
    cases h
    exact .refl _
  | succ room ih =>
    rw [groupsHead] at h
    split at h
    · rename_i v rest' hv
      cases h
      split at hv
      · cases hv
      · obtain ⟨x, hx, hread⟩ := Option.bind_eq_some_iff.1 hv
        refine (separated?_follows hx).trans ((V4.readHead?_follows hread).mono fun c hc => ?_)
        exact hc.imp Text.isHex_of_isDigit .inr
    · split at h
      · cases h
        exact .refl _
      · rename_i g rest' hg
        obtain ⟨x, hx, hread⟩ := Option.bind_eq_some_iff.1 hg
        have hfront := (separated?_follows hx).trans (groupHead?_follows hread)
        cases hnext : groupsHead room false rest' with
        | mk gs' r =>
          rw [hnext] at h
          cases h
          exact hfront.trans (ih hnext)

theorem isPart_of_read? {cs : List Char} {v : V6} (h : read? cs = some v) : ∀ c ∈ cs, IsPart c := by
  apply Text.Follows.all
  unfold read? at h
  cases hhead : groupsHead 8 true cs with
  | mk head r =>
    obtain ⟨four, rest⟩ := r
    have hfollows := groupsHead_follows hhead
    rw [hhead] at h
    dsimp only at h
    split at h
    · split at h
      · rename_i hnil
        rwa [List.isEmpty_iff.1 hnil] at hfollows
      · cases h
    · split at h
      · cases h
      · split at h
        · split at h
          · rename_i rest' tail four' htail
            refine hfollows.trans (.trans ?_ (groupsHead_follows htail))
            exact ⟨[':', ':'], rfl, by simp [IsPart]⟩
          · cases h
        · cases h

end EidMap.Ip.V6
