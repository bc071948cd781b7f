import EidMap.Text.Cut

/-!
# Cutting a text

What a cut takes apart is what stands on either side of the separator, trimming leaves a text alone
that has no white space at its ends, and a searched word is an infix.
-/

namespace EidMap.Text

variable {sep : Char}

theorem cutFirst_append_of_notMem {before : List Char} (h : sep ∉ before) (cs : List Char) :
    cutFirst sep (before ++ cs) =
      (cutFirst sep cs).map fun (front, after) => (before ++ front, after) := by
  induction before with
  | nil => exact Option.map_id'.symm
  | cons c before ih =>
    have hc : c ≠ sep := fun hc => h (by simp [hc])
    have hbefore : sep ∉ before := fun hm => h (by simp [hm])
    rw [List.cons_append, cutFirst, if_neg hc, ih hbefore, Option.map_map]
    rfl

theorem cutFirst_append {before : List Char} (h : sep ∉ before) (after : List Char) :
    cutFirst sep (before ++ sep :: after) = some (before, after) := by
  rw [cutFirst_append_of_notMem h, cutFirst, if_pos rfl]
  simp

theorem cutFirst_eq_none {cs : List Char} (h : sep ∉ cs) : cutFirst sep cs = none := by
  have hcut := cutFirst_append_of_notMem h []
  rwa [List.append_nil] at hcut

theorem eq_of_cutFirst {cs before after : List Char} (h : cutFirst sep cs = some (before, after)) :
    cs = before ++ sep :: after := by
  induction cs generalizing before with
  | nil => simp [cutFirst] at h
  | cons c cs ih =>
    rw [cutFirst] at h
    split at h
    · rename_i hc
      cases h
      rw [hc]
      rfl
    · obtain ⟨⟨b, a⟩, hb, he⟩ := Option.map_eq_some_iff.1 h
      cases he
      rw [ih hb]
      rfl

theorem not_mem_of_cutFirst {cs before after : List Char}
    (h : cutFirst sep cs = some (before, after)) : sep ∉ before := by
  induction cs generalizing before with
  | nil => simp [cutFirst] at h
  | cons c cs ih =>
    rw [cutFirst] at h
    split at h
    · cases h
      simp
    · rename_i hc
      obtain ⟨⟨b, a⟩, hb, he⟩ := Option.map_eq_some_iff.1 h
      cases he
      intro hm
      rcases List.mem_cons.1 hm with rfl | hm
      · exact hc rfl
      · exact ih hb hm

theorem cutLast_eq_none {cs : List Char} (h : sep ∉ cs) : cutLast sep cs = none := by
  induction cs with
  | nil => rfl
  | cons c cs ih =>
    have hc : c ≠ sep := fun hc => h (by simp [hc])
    have hcs : sep ∉ cs := fun hm => h (by simp [hm])
    rw [cutLast, ih hcs]
    exact if_neg hc

theorem cutLast_append (before : List Char) {after : List Char} (h : sep ∉ after) :
    cutLast sep (before ++ sep :: after) = some (before, after) := by
  induction before with
  | nil =>
    rw [List.nil_append, cutLast, cutLast_eq_none h]
    exact if_pos rfl
  | cons c cs ih => rw [List.cons_append, cutLast, ih]

theorem exists_cutLast {cs : List Char} (h : sep ∈ cs) :
    ∃ before after, cs = before ++ sep :: after ∧ sep ∉ after := by
  induction cs with
  | nil => cases h
  | cons c cs ih =>
    by_cases hcs : sep ∈ cs
    · obtain ⟨before, after, rfl, hafter⟩ := ih hcs
      exact ⟨c :: before, after, rfl, hafter⟩
    · have hc : sep = c := by simpa [hcs] using h
      exact ⟨[], cs, by rw [hc]; rfl, hcs⟩

theorem eq_of_cutLast {cs before after : List Char} (h : cutLast sep cs = some (before, after)) :
    cs = before ++ sep :: after ∧ sep ∉ after := by
  by_cases hm : sep ∈ cs
  · obtain ⟨b, a, rfl, ha⟩ := exists_cutLast hm
    rw [cutLast_append b ha] at h
    cases h
    exact ⟨rfl, ha⟩
  · rw [cutLast_eq_none hm] at h
    cases h

theorem eq_of_append_last {before after before' after' : List Char} (h : sep ∉ after)
    (h' : sep ∉ after') (he : before ++ sep :: after = before' ++ sep :: after') :
    before = before' ∧ after = after' := by
  have hcut := cutLast_append before h
  rw [he, cutLast_append before' h'] at hcut
  cases hcut
  exact ⟨rfl, rfl⟩

theorem pieces_eq_singleton {cs : List Char} (h : sep ∉ cs) : pieces sep cs = [cs] := by
  induction cs with
  | nil => rfl
  | cons c cs ih =>
    have hc : c ≠ sep := fun hc => h (by simp [hc])
    have hcs : sep ∉ cs := fun hm => h (by simp [hm])
    rw [pieces, if_neg hc, ih hcs]

theorem pieces_ne_nil (sep : Char) (cs : List Char) : pieces sep cs ≠ [] := by
  cases cs with
  | nil => exact List.cons_ne_nil _ _
  | cons c cs =>
    rw [pieces]
    split
    · exact List.cons_ne_nil _ _
    · split <;> exact List.cons_ne_nil _ _

theorem pieces_append_sep (sep : Char) (before after : List Char) :
    pieces sep (before ++ sep :: after) = pieces sep before ++ pieces sep after := by
  induction before with
  | nil => simp [pieces]
  | cons c cs ih =>
    rw [List.cons_append, pieces, ih, pieces]
    obtain ⟨p, ps, hps⟩ := List.exists_cons_of_ne_nil (pieces_ne_nil sep cs)
    rw [hps]
    split <;> rfl

theorem pieces_append {before : List Char} (h : sep ∉ before) (after : List Char) :
    pieces sep (before ++ sep :: after) = before :: pieces sep after := by
  rw [pieces_append_sep, pieces_eq_singleton h, List.singleton_append]

theorem mem_pieces (sep : Char) {cs : List Char} {c : Char} (h : c ∈ cs) :
    c = sep ∨ ∃ p ∈ pieces sep cs, c ∈ p := by
  induction cs with
  | nil => cases h
  | cons d cs ih =>
    rw [pieces]
    split
    · rename_i hd
      rcases List.mem_cons.1 h with rfl | h
      · exact .inl hd
      · obtain hs | ⟨p, hp, hc⟩ := ih h
        · exact .inl hs
        · exact .inr ⟨p, by simp [hp], hc⟩
    · split
      · rename_i p ps hps
        rw [hps] at ih
        rcases List.mem_cons.1 h with rfl | h
        · exact .inr ⟨c :: p, by simp, by simp⟩
        · obtain hs | ⟨q, hq, hc⟩ := ih h
          · exact .inl hs
          · rcases List.mem_cons.1 hq with rfl | hq
            · exact .inr ⟨d :: q, by simp, by simp [hc]⟩
            · exact .inr ⟨q, by simp [hq], hc⟩
      · rename_i hps
        rw [hps] at ih
        rcases List.mem_cons.1 h with rfl | h
        · exact .inr ⟨[c], by simp, by simp⟩
        · exact .inl (by simpa using ih h)

theorem of_mem_pieces {cs p : List Char} (h : p ∈ pieces sep cs) :
    sep ∉ p ∧ ∀ c ∈ p, c ∈ cs := by
  induction cs generalizing p with
  | nil =>
    cases List.mem_singleton.1 h
    simp
  | cons d cs ih =>
    rw [pieces] at h
    split at h
    · rcases List.mem_cons.1 h with rfl | h
      · simp
      · obtain ⟨hsep, hmem⟩ := ih h
        exact ⟨hsep, fun c hc => List.mem_cons_of_mem d (hmem c hc)⟩
    · rename_i hd
      obtain ⟨q, qs, hqs⟩ := List.exists_cons_of_ne_nil (pieces_ne_nil sep cs)
      rw [hqs] at h ih
      rcases List.mem_cons.1 h with rfl | h
      · obtain ⟨hsep, hmem⟩ := ih List.mem_cons_self
        refine ⟨fun hm => (List.mem_cons.1 hm).elim (hd ·.symm) hsep, fun c hc => ?_⟩
        exact List.mem_cons.2 ((List.mem_cons.1 hc).imp_right (hmem c))
      · obtain ⟨hsep, hmem⟩ := ih (List.mem_cons_of_mem q h)
        exact ⟨hsep, fun c hc => List.mem_cons_of_mem d (hmem c hc)⟩

theorem pieces_eq_splitOn (sep : Char) (cs : List Char) : pieces sep cs = cs.splitOn sep := by
  induction cs with
  | nil => rfl
  | cons c cs ih =>
    obtain ⟨p, ps, hps⟩ := List.exists_cons_of_ne_nil (pieces_ne_nil sep cs)
    rw [pieces, List.splitOn_cons_eq_if_modifyHead, ← ih, hps]
    simp only [beq_iff_eq]
    split <;> rfl

theorem mem_intercalate {ps : List (List Char)} {c : Char} (h : c ∈ List.intercalate [sep] ps) :
    c = sep ∨ ∃ p ∈ ps, c ∈ p := by
  induction ps with
  | nil => cases h
  | cons p ps ih =>
    by_cases hps : ps = []
    · rw [hps, List.intercalate_singleton] at h
      exact .inr ⟨p, List.mem_cons_self, h⟩
    · rw [List.intercalate_cons_of_ne_nil hps, List.mem_append, List.mem_append,
        List.mem_singleton] at h
      rcases h with (h | h) | h
      · exact .inr ⟨p, List.mem_cons_self, h⟩
      · exact .inl h
      · obtain hs | ⟨q, hq, hc⟩ := ih h
        · exact .inl hs
        · exact .inr ⟨q, List.mem_cons_of_mem p hq, hc⟩

theorem forall_of_all {p : Char → Prop} [DecidablePred p] {cs : List Char}
    (h : cs.all (fun c => decide (p c)) = true) : ∀ c ∈ cs, p c :=
  fun c hc => of_decide_eq_true (List.all_eq_true.1 h c hc)

section
variable {p : Char → Bool}

theorem takeWhile_eq_nil {cs : List Char} (h : ∀ c ∈ cs.head?, p c = false) :
    cs.takeWhile p = [] := by
  cases cs with
  | nil => rfl
  | cons c cs => simp [h c rfl]

theorem dropWhile_eq_self {cs : List Char} (h : ∀ c ∈ cs.head?, p c = false) :
    cs.dropWhile p = cs := by
  cases cs with
  | nil => rfl
  | cons c cs => rw [List.dropWhile_cons, h c rfl]; rfl

theorem takeWhile_append_eq {cs rest : List Char} (h : ∀ c ∈ cs, p c = true)
    (hr : ∀ c ∈ rest.head?, p c = false) : (cs ++ rest).takeWhile p = cs := by
  rw [List.takeWhile_append_of_pos h, takeWhile_eq_nil hr, List.append_nil]

theorem dropWhile_append_eq {cs rest : List Char} (h : ∀ c ∈ cs, p c = true)
    (hr : ∀ c ∈ rest.head?, p c = false) : (cs ++ rest).dropWhile p = rest := by
  rw [List.dropWhile_append_of_pos h, dropWhile_eq_self hr]

variable {c : Char}

theorem dropWhile_append_cons (h : p c = false) (front back : List Char) :
    (front ++ c :: back).dropWhile p = front.dropWhile p ++ c :: back := by
  rw [List.dropWhile_append]
  split
  · rename_i hnil
    rw [List.isEmpty_iff.1 hnil, List.dropWhile_cons, h]
    rfl
  · rfl

theorem takeWhile_append_cons (h : p c = false) (front back : List Char) :
    (front ++ c :: back).takeWhile p = front.takeWhile p := by
  rw [List.takeWhile_append]
  split
  · rename_i hall
    rw [takeWhile_eq_nil (by simpa using h), List.append_nil]
    exact ((List.takeWhile_prefix p).eq_of_length hall).symm
  · rfl

end

def Follows (p : Char → Prop) (rest cs : List Char) : Prop :=
  ∃ front, cs = front ++ rest ∧ ∀ c ∈ front, p c

namespace Follows

variable {p : Char → Prop} {cs mid rest : List Char}

theorem refl (cs : List Char) : Follows p cs cs := ⟨[], rfl, by simp⟩

theorem trans (h : Follows p mid cs) (h' : Follows p rest mid) : Follows p rest cs := by
  obtain ⟨front, rfl, hfront⟩ := h
  obtain ⟨back, rfl, hback⟩ := h'
  refine ⟨front ++ back, (List.append_assoc _ _ _).symm, fun c hc => ?_⟩
  rcases List.mem_append.1 hc with hc | hc
  · exact hfront c hc
  · exact hback c hc

theorem cons {c : Char} (h : p c) (cs : List Char) : Follows p cs (c :: cs) :=
  ⟨[c], rfl, by simpa using h⟩

theorem dropWhile {q : Char → Bool} (h : ∀ c, q c = true → p c) (cs : List Char) :
    Follows p (cs.dropWhile q) cs :=
  ⟨cs.takeWhile q, List.takeWhile_append_dropWhile.symm,
    fun c hc => h c (List.all_eq_true.1 List.all_takeWhile c hc)⟩

theorem mono {q : Char → Prop} (h : Follows p rest cs) (hpq : ∀ c, p c → q c) :
    Follows q rest cs := by
  obtain ⟨front, he, hfront⟩ := h
  exact ⟨front, he, fun c hc => hpq c (hfront c hc)⟩

theorem all (h : Follows p [] cs) : ∀ c ∈ cs, p c := by
  obtain ⟨front, rfl, hfront⟩ := h
  simpa using hfront

end Follows

theorem isBlank_of_isDigit {c : Char} (h : c.isDigit = true) : isBlank c = false := by
  have hc : 48 ≤ c.toNat ∧ c.toNat ≤ 57 := Char.isDigit_iff_toNat.1 h
  simp only [isBlank, Bool.or_eq_false_iff, Bool.and_eq_false_iff, decide_eq_false_iff_not,
    beq_eq_false_iff_ne]
  omega

theorem trimEnd_eq {cs : List Char} (h : ∀ c ∈ cs.getLast?, isBlank c = false) :
    trimEnd cs = cs := by
  rw [trimEnd, dropWhile_eq_self (by simpa [List.head?_reverse] using h), List.reverse_reverse]

theorem trim_eq {cs : List Char} (first : ∀ c ∈ cs.head?, isBlank c = false)
    (last : ∀ c ∈ cs.getLast?, isBlank c = false) : trim cs = cs := by
  rw [trim, dropWhile_eq_self first, trimEnd_eq last]

theorem trim_cons {c : Char} (h : isBlank c = true) (cs : List Char) :
    trim (c :: cs) = trim cs := by
  rw [trim, List.dropWhile_cons, if_pos h, trim]

theorem isBlank_getLast?_trim (cs : List Char) : ∀ c ∈ (trim cs).getLast?, isBlank c = false := by
  intro c hc
  rw [trim, trimEnd, List.getLast?_reverse] at hc
  have hh := List.head?_dropWhile_not isBlank (cs.dropWhile isBlank).reverse
  rw [hc] at hh
  simpa using hh

theorem trim_blanks_append {blank cs : List Char} (h : ∀ c ∈ blank, isBlank c = true) :
    trim (blank ++ cs) = trim cs := by
  rw [trim, List.dropWhile_append_of_pos h, trim]

theorem trim_of_first {c : Char} (h : isBlank c = false) (cs : List Char) :
    trim (c :: cs) = trimEnd (c :: cs) := by
  rw [trim, dropWhile_eq_self]
  intro d hd
  cases hd
  exact h

theorem trimEnd_append_cons (front : List Char) {c : Char} (h : isBlank c = false)
    (back : List Char) : trimEnd (front ++ c :: back) = front ++ c :: trimEnd back := by
  simp [trimEnd, dropWhile_append_cons h]

theorem exists_blank_append_trim {cs : List Char} (h : ∀ c ∈ cs.getLast?, isBlank c = false) :
    ∃ blank, (∀ c ∈ blank, isBlank c = true) ∧ cs = blank ++ trim cs := by
  refine ⟨cs.takeWhile isBlank, List.all_eq_true.1 List.all_takeWhile, ?_⟩
  have hlast : ∀ c ∈ (cs.dropWhile isBlank).getLast?, isBlank c = false := by
    intro c hc
    apply h c
    rw [← List.takeWhile_append_dropWhile (p := isBlank) (l := cs), List.getLast?_append,
      Option.mem_def.1 hc]
    rfl
  rw [trim, trimEnd_eq hlast, List.takeWhile_append_dropWhile]

theorem trim_eq_of_all {cs : List Char} (h : ∀ c ∈ cs, isBlank c = false) : trim cs = cs :=
  trim_eq (fun c hc => h c (List.mem_of_mem_head? hc)) fun c hc => h c (List.mem_of_getLast? hc)

theorem holds_iff {word cs : List Char} : holds word cs = true ↔ word <:+: cs := by
  induction cs with
  | nil => simp [holds]
  | cons c cs ih =>
    rw [holds, Bool.or_eq_true, ih, List.infix_cons_iff, List.isPrefixOf_iff_prefix]

end EidMap.Text
