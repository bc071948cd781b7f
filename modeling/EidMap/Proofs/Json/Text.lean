import EidMap.Json.Decode
import EidMap.Proofs.Text.Cut
import EidMap.Proofs.Text.Numeral
import Mathlib.Tactic.SplitIfs

/-!
# The text of a value is read back

A text spells a value if its document is the one of the value, field by field. The compact text of a
value spells it, whatever its strings hold, if its numbers are natural and fit into 64 bits.
-/

namespace EidMap.Json

mutual
/-- The document that spells a value some levels deep, its fields as they stand. -/
def toDoc (depth : Nat) : Json → Doc
  | .null => .null
  | .bool b => .bool b
  | .number n => .number n
  | .string s => .string s
  | .array xs => .array (depth + 1) (toDocItems (depth + 1) xs) none
  | .object fs => .object (depth + 1) (toDocFields (depth + 1) fs) none

def toDocItems (depth : Nat) : List Json → List Doc
  | [] => []
  | x :: xs => toDoc depth x :: toDocItems depth xs

def toDocFields (depth : Nat) : List (String × Json) → List (Except Fault String × Doc)
  | [] => []
  | (k, v) :: fs => (.ok k, toDoc depth v) :: toDocFields depth fs
end

theorem toDocItems_eq (depth : Nat) (xs : List Json) :
    toDocItems depth xs = xs.map (toDoc depth) := by
  induction xs with
  | nil => rfl
  | cons x xs ih => rw [toDocItems, ih, List.map_cons]

theorem toDocFields_eq (depth : Nat) (fs : List (String × Json)) :
    toDocFields depth fs =
      (fs.map fun f => (f.1, toDoc depth f.2)).map fun f => (.ok f.1, f.2) := by
  induction fs with
  | nil => rfl
  | cons f fs ih => rw [toDocFields, ih, List.map_cons, List.map_cons]

/-- The text holds the value and nothing else but white space. -/
def Spells (s : String) (v : Json) : Prop :=
  ∃ rest, Doc.ofText s = (v.toDoc 0, some rest) ∧ dropSpace rest = []

theorem Spells.decodeText {s : String} {v : Json} (h : Spells s v) {α : Type}
    (read : Doc → Decoded α) : decodeText read s = read (v.toDoc 0) := by
  obtain ⟨rest, hdoc, hrest⟩ := h
  rw [Json.decodeText, hdoc]
  dsimp only
  rw [Option.getD_some, hrest]
  cases read (v.toDoc 0) <;> rfl

theorem hexFour_control {n : Nat} (h : n < 32) (rest : List Char) :
    hexFour (Text.padZeros 4 (Text.hexDigits n) ++ rest) = .ok (n, rest) := by
  have hvalue : ∀ a < 16, ∀ b < 16,
      hexFour.hexValue4? '0' '0' (Text.hexDigit a) (Text.hexDigit b) = some (16 * a + b) := by
    intro a ha b hb
    have hzero : Text.hexValue? '0' = some 0 := rfl
    simp [hexFour.hexValue4?, hzero, Text.hexValue?_hexDigit a ha, Text.hexValue?_hexDigit b hb,
      Nat.mul_comm]
  by_cases hsmall : n < 16
  · have hn := hvalue 0 (by decide) n hsmall
    rw [Nat.mul_zero, Nat.zero_add] at hn
    rw [Text.positional_hexDigits.of_lt hsmall]
    have htext : Text.padZeros 4 [Text.hexDigit n] ++ rest =
        '0' :: '0' :: Text.hexDigit 0 :: Text.hexDigit n :: rest := rfl
    rw [htext, hexFour, hn]
  · have hn := hvalue (n / 16) (by omega) (n % 16) (by omega)
    rw [Nat.div_add_mod] at hn
    rw [Text.positional_hexDigits.of_ge hsmall, Text.positional_hexDigits.of_lt (by omega)]
    have htext : Text.padZeros 4 ([Text.hexDigit (n / 16)] ++ [Text.hexDigit (n % 16)]) ++ rest =
        '0' :: '0' :: Text.hexDigit (n / 16) :: Text.hexDigit (n % 16) :: rest := rfl
    rw [htext, hexFour, hn]

inductive EscapedAs (c : Char) : Prop
  | letter (e : Char) (text : escaped c = ['\\', e]) (other : e ≠ 'u')
    (back : simpleEscape? e = some c)
  | number (text : escaped c = '\\' :: 'u' :: Text.padZeros 4 (Text.hexDigits c.toNat))
    (control : c.toNat < 32)
  | plain (text : escaped c = [c]) (quote : c ≠ '"') (backslash : c ≠ '\\')
    (visible : ¬c.toNat < 32)

theorem escapedAs (c : Char) : EscapedAs c := by
  by_cases hsimple : c = '"' ∨ c = '\\' ∨ c = '\n' ∨ c = '\r' ∨ c = '\t'
  · rcases hsimple with rfl | rfl | rfl | rfl | rfl
    · exact .letter '"' rfl (by decide) rfl
    · exact .letter '\\' rfl (by decide) rfl
    · exact .letter 'n' rfl (by decide) rfl
    · exact .letter 'r' rfl (by decide) rfl
    · exact .letter 't' rfl (by decide) rfl
  · simp only [not_or] at hsimple
    obtain ⟨hquote, hbackslash, hline, hreturn, htab⟩ := hsimple
    have htext : escaped c = if c.toNat = 8 then ['\\', 'b']
        else if c.toNat = 12 then ['\\', 'f']
        else if c.toNat < 32 then ['\\', 'u'] ++ Text.padZeros 4 (Text.hexDigits c.toNat)
        else [c] := by
      unfold escaped
      split <;> first | contradiction | rfl
    split_ifs at htext with hback hform hcontrol
    · refine .letter 'b' htext (by decide) ?_
      rw [← Char.ofNat_toNat c, hback]
      rfl
    · refine .letter 'f' htext (by decide) ?_
      rw [← Char.ofNat_toNat c, hform]
      rfl
    · exact .number htext hcontrol
    · exact .plain htext hquote hbackslash hcontrol

theorem unicodeEscape_control {c : Char} (h : c.toNat < 32) (rest : List Char) :
    unicodeEscape (Text.padZeros 4 (Text.hexDigits c.toNat) ++ rest) = .ok (c, rest) := by
  rw [unicodeEscape, hexFour_control h]
  have hlow : (0xDC00 ≤ c.toNat && c.toNat ≤ 0xDFFF) = false := by
    rw [Bool.and_eq_false_iff, decide_eq_false_iff_not]
    exact .inl (by omega)
  have hplane : (c.toNat < 0xD800 || 0xDBFF < c.toNat) = true := by
    rw [Bool.or_eq_true, decide_eq_true_eq]
    exact .inl (by omega)
  change (if (0xDC00 ≤ c.toNat && c.toNat ≤ 0xDFFF) = true then _ else
    if (c.toNat < 0xD800 || 0xDBFF < c.toNat) = true then _ else _) = _
  rw [hlow, hplane, if_neg Bool.false_ne_true, if_pos rfl, Char.ofNat_toNat]

theorem length_lt_padZeros (n : Nat) (rest : List Char) :
    rest.length < (Text.padZeros 4 (Text.hexDigits n) ++ rest).length := by
  have hpos := List.length_pos_iff.2 (Text.hexDigits_ne_nil n)
  simp only [Text.padZeros, List.length_append, List.length_replicate]
  omega

theorem stringBody_escaped (c : Char) (rest : List Char) :
    stringBody (escaped c ++ rest) = (stringBody rest).map fun (s, r) => (c :: s, r) := by
  cases escapedAs c with
  | letter e text other back =>
    rw [text, List.cons_append, List.singleton_append, stringBody]
    · simp only [back]
    · simpa using other
  | number text control =>
    rw [text, List.cons_append, List.cons_append, stringBody, unicodeEscape_control control]
    dsimp only
    rw [dif_pos (length_lt_padZeros _ _)]
  | plain text quote backslash visible =>
    rw [text, List.singleton_append, stringBody]
    · rw [if_neg visible]
    · exact quote
    all_goals simp [backslash]

theorem stringRest_escaped (c : Char) (rest : List Char) :
    stringRest (escaped c ++ rest) = stringRest rest := by
  cases escapedAs c with
  | letter e text other back =>
    rw [text, List.cons_append, List.singleton_append, stringRest]
    · simp only [back]
    · simpa using other
  | number text control =>
    rw [text, List.cons_append, List.cons_append, stringRest, hexFour_control control]
    dsimp only
    rw [dif_pos (length_lt_padZeros _ _)]
  | plain text quote backslash visible =>
    rw [text, List.singleton_append, stringRest]
    · rw [if_neg visible]
    · exact quote
    all_goals simp [backslash]

theorem string_escaped (cs rest : List Char) :
    stringBody (cs.flatMap escaped ++ '"' :: rest) = .ok (cs, rest) ∧
      stringRest (cs.flatMap escaped ++ '"' :: rest) = .ok rest := by
  induction cs with
  | nil => exact ⟨by rw [List.flatMap_nil, List.nil_append, stringBody],
      by rw [List.flatMap_nil, List.nil_append, stringRest]⟩
  | cons c cs ih =>
    rw [List.flatMap_cons, List.append_assoc, stringBody_escaped, stringRest_escaped, ih.1, ih.2]
    exact ⟨rfl, rfl⟩

theorem text_escaped (s : String) (rest : List Char) :
    Doc.text (s.toList.flatMap escaped ++ '"' :: rest) = (.string s, some rest) := by
  obtain ⟨hbody, hrest⟩ := string_escaped s.toList rest
  rw [Doc.text, hbody, hrest]
  change (Doc.string (String.ofList s.toList), some rest) = _
  rw [String.ofList_toList]

def Ends (rest : List Char) : Prop :=
  ∀ c ∈ rest.head?, c.isDigit = false ∧ c ≠ '.' ∧ c ≠ 'e' ∧ c ≠ 'E'

theorem takeDigits_of_lt {ds : List Char} (m : Nat)
    (h : ds.foldl (fun n c => 10 * n + (c.toNat - 48)) m < UInt64.size) :
    takeDigits m ds = (ds.foldl (fun n c => 10 * n + (c.toNat - 48)) m, ds.length, 0) := by
  have hle : ∀ (ds : List Char) m, m ≤ ds.foldl (fun n c => 10 * n + (c.toNat - 48)) m := by
    intro ds
    induction ds with
    | nil => exact fun m => Nat.le_refl m
    | cons d ds ih => exact fun m => Nat.le_trans (by omega) (ih (10 * m + (d.toNat - 48)))
  induction ds generalizing m with
  | nil => rfl
  | cons d ds ih =>
    rw [List.foldl_cons] at h
    rw [takeDigits]
    dsimp only
    rw [if_pos (Nat.lt_of_le_of_lt (hle ds _) h), ih _ h]
    rfl

theorem numeralHead_digits (n : Nat) {rest : List Char} (ends : Ends rest) :
    numeralHead (Text.digits n ++ rest) = .ok (⟨Text.digits n, none, none⟩, rest) := by
  have hstop : ∀ c ∈ rest.head?, c.isDigit = false := fun c hc => (ends c hc).1
  have hdigits : ∀ c ∈ Text.digits n, c.isDigit = true := fun c => Text.isDigit_of_mem_digits
  have hfirst : n = 0 ∨ ∃ d ds, Text.digits n = d :: ds ∧ d ≠ '0' := by
    rcases Nat.eq_zero_or_pos n with hzero | hpos
    · exact .inl hzero
    · obtain ⟨d, ds, hd⟩ := List.exists_cons_of_ne_nil (Text.digits_ne_nil n)
      have hne := Text.positional_digits.head?_ne (by decide) hpos
      rw [hd] at hne
      exact .inr ⟨d, ds, hd, fun h => hne (congrArg some h)⟩
  rcases hfirst with rfl | ⟨d, ds, hd, hne⟩
  · have hzero : Text.digits 0 = ['0'] := Text.positional_digits.of_lt (by decide)
    rw [hzero]
    cases rest with
    | nil => rfl
    | cons c rest =>
      obtain ⟨hdigit, hpoint, he, hE⟩ := ends c rfl
      simp [numeralHead, hdigit, hpoint, he, hE, bind, Except.bind, pure, Except.pure]
  · have hhead : digitsHead (Text.digits n ++ rest) = .ok (Text.digits n, rest) := by
      have hparts : digitsHead (d :: (ds ++ rest)) =
          .ok ((d :: (ds ++ rest)).takeWhile Char.isDigit,
            (d :: (ds ++ rest)).dropWhile Char.isDigit) :=
        if_pos (hdigits d (by rw [hd]; exact List.mem_cons_self))
      rwa [← List.cons_append, ← hd, Text.takeWhile_append_eq hdigits hstop,
        Text.dropWhile_append_eq hdigits hstop] at hparts
    rw [numeralHead, hhead]
    · cases rest with
      | nil => rfl
      | cons c rest =>
        obtain ⟨hdigit, hpoint, he, hE⟩ := ends c rfl
        simp [hpoint, he, hE, bind, Except.bind, pure, Except.pure]
    · intro rest' h
      rw [hd] at h
      exact hne (List.cons.inj h).1

theorem numeral_digits {n : Nat} (h : n < UInt64.size) {rest : List Char} (ends : Ends rest) :
    Doc.numeral false (Text.digits n ++ rest) = (.number (.integer n), some rest) := by
  have htake : takeDigits 0 (Text.digits n) = (n, (Text.digits n).length, 0) := by
    have hvalue : (Text.digits n).foldl (fun n c => 10 * n + (c.toNat - 48)) 0 = n :=
      Text.ofDigits_digits n
    rw [takeDigits_of_lt 0 (by rwa [hvalue]), hvalue]
  have hnumeral : (⟨Text.digits n, none, none⟩ : Numeral).value false = .ok (.integer n) := by
    rw [Numeral.value, htake]
    rfl
  rw [Doc.numeral, numeralHead_digits n ends]
  dsimp only
  rw [hnumeral]
  rfl

/-- A value whose numbers are natural and fit into 64 bits. -/
inductive Natural : Json → Prop
  | null : Natural .null
  | bool (b : Bool) : Natural (.bool b)
  | number {n : Nat} (fits : n < UInt64.size) : Natural (.ofNat n)
  | string (s : String) : Natural (.string s)
  | array {xs : List Json} (items : ∀ x ∈ xs, Natural x) : Natural (.array xs)
  | object {fs : List (String × Json)} (fields : ∀ f ∈ fs, Natural f.2) : Natural (.object fs)

def commaItems (xs : List Json) : List Char := xs.flatMap fun x => ',' :: x.compact.toList

def fieldText (f : String × Json) : List Char :=
  f.1.toList.flatMap escaped ++ '"' :: ':' :: f.2.compact.toList

def commaFields (fs : List (String × Json)) : List Char := fs.flatMap fun f =>
  ',' :: '"' :: fieldText f

theorem toList_compactItems (x : Json) (xs : List Json) :
    (compactItems (x :: xs)).toList = x.compact.toList ++ commaItems xs := by
  induction xs generalizing x with
  | nil => simp [compactItems, commaItems]
  | cons y ys ih =>
    rw [compactItems, String.toList_append, String.toList_append, ih, List.append_assoc]
    · rfl
    · exact List.cons_ne_nil _ _

theorem toList_compactFields (f : String × Json) (fs : List (String × Json)) :
    (compactFields (f :: fs)).toList = '"' :: fieldText f ++ commaFields fs := by
  induction fs generalizing f with
  | nil => simp [compactFields, quoted, fieldText, commaFields]
  | cons g gs ih =>
    obtain ⟨k, v⟩ := f
    rw [compactFields, String.toList_append, ih]
    · simp [quoted, fieldText, commaFields]
    · exact List.cons_ne_nil _ _

theorem toList_compact_array (xs : List Json) :
    (Json.array xs).compact.toList = '[' :: (compactItems xs).toList ++ [']'] := by
  simp [compact]

theorem toList_compact_object (fs : List (String × Json)) :
    (Json.object fs).compact.toList = '\x7b' :: (compactFields fs).toList ++ ['\x7d'] := by
  simp [compact]

theorem dropSpace_cons {c : Char} (h : isSpace c = false) (cs : List Char) :
    dropSpace (c :: cs) = c :: cs := by
  rw [dropSpace, List.dropWhile_cons, h]
  rfl

theorem isSpace_of_isDigit {c : Char} (h : c.isDigit = true) : isSpace c = false := by
  rw [isSpace, Bool.eq_false_iff]
  intro hspace
  simp only [Bool.or_eq_true, beq_iff_eq] at hspace
  obtain ((rfl | rfl) | rfl) | rfl := hspace <;> cases h

theorem Natural.exists_cons {v : Json} (h : Natural v) :
    ∃ c cs, v.compact.toList = c :: cs ∧ isSpace c = false ∧ c ≠ ']' := by
  cases h with
  | null => exact ⟨'n', _, rfl, rfl, by decide⟩
  | bool b => cases b <;> exact ⟨_, _, rfl, rfl, by decide⟩
  | @number n fits =>
    obtain ⟨c, cs, hc⟩ := List.exists_cons_of_ne_nil (Text.digits_ne_nil n)
    have hdigit : c.isDigit = true := Text.isDigit_of_mem_digits (hc ▸ List.mem_cons_self)
    refine ⟨c, cs, ?_, isSpace_of_isDigit hdigit, ?_⟩
    · rw [← hc]
      exact String.toList_ofList
    · rintro rfl
      cases hdigit
  | string s => exact ⟨'"', _, String.toList_ofList, rfl, by decide⟩
  | array => exact ⟨'[', _, toList_compact_array _, rfl, by decide⟩
  | object => exact ⟨'\x7b', _, toList_compact_object _, rfl, by decide⟩

/-- The text of a value is read as its document, whatever follows it. -/
def ReadBack (v : Json) : Prop :=
  ∀ (fuel depth : Nat) (rest : List Char), 3 * v.compact.toList.length ≤ fuel → Ends rest →
    Doc.value fuel depth (v.compact.toList ++ rest) = (v.toDoc depth, some rest)

theorem ends_cons {c : Char} (digit : c.isDigit = false) (point : c ≠ '.') (e : c ≠ 'e')
    (E : c ≠ 'E') (cs : List Char) : Ends (c :: cs) := by
  rintro d ⟨⟩
  exact ⟨digit, point, e, E⟩

theorem ends_commaItems (xs : List Json) (rest : List Char) :
    Ends (commaItems xs ++ ']' :: rest) := by
  cases xs with
  | nil => exact ends_cons rfl (by decide) (by decide) (by decide) _
  | cons x xs => exact ends_cons rfl (by decide) (by decide) (by decide) _

theorem ends_commaFields (fs : List (String × Json)) (rest : List Char) :
    Ends (commaFields fs ++ '\x7d' :: rest) := by
  cases fs with
  | nil => exact ends_cons rfl (by decide) (by decide) (by decide) _
  | cons f fs => exact ends_cons rfl (by decide) (by decide) (by decide) _

theorem value_array (fuel depth : Nat) (cs : List Char) :
    Doc.value (fuel + 1) depth ('[' :: cs) =
      (.array (depth + 1) (Doc.items fuel (depth + 1) true cs).1
        (Doc.items fuel (depth + 1) true cs).2.1, (Doc.items fuel (depth + 1) true cs).2.2) := by
  rw [Doc.value, dropSpace_cons rfl]
  rfl

theorem items_close (fuel depth : Nat) (first : Bool) (rest : List Char) :
    Doc.items (fuel + 1) depth first (']' :: rest) = ([], none, some rest) := by
  rw [Doc.items, dropSpace_cons rfl]
  rfl

theorem items_comma {c : Char} (space : isSpace c = false) (close : c ≠ ']') (fuel depth : Nat)
    (cs : List Char) :
    Doc.items (fuel + 1) depth false (',' :: c :: cs) = Doc.element fuel depth (c :: cs) := by
  have hcomma : dropSpace (',' :: c :: cs) = ',' :: c :: cs := dropSpace_cons rfl _
  simp only [Doc.items, hcomma, Char.reduceEq, imp_self, Bool.false_eq_true, ↓reduceIte,
    dropSpace_cons space]
  split
  · rename_i h
    cases h
  · rename_i h
    exact absurd (List.cons.inj h).1 close
  · rfl

theorem items_first {c : Char} (space : isSpace c = false) (close : c ≠ ']') (fuel depth : Nat)
    (cs : List Char) :
    Doc.items (fuel + 1) depth true (c :: cs) = Doc.element fuel depth (c :: cs) := by
  rw [Doc.items, dropSpace_cons space]
  split
  · rename_i h
    cases h
  · rename_i h
    exact absurd (List.cons.inj h).1 close
  · rename_i h
    rw [if_pos rfl, h]

theorem element_of_value {fuel depth : Nat} {cs rest : List Char} {d : Doc}
    (h : Doc.value fuel depth cs = (d, some rest)) :
    Doc.element (fuel + 1) depth cs = (d :: (Doc.items fuel depth false rest).1,
      (Doc.items fuel depth false rest).2) := by
  rw [Doc.element, h]

theorem items_commaItems {xs : List Json} (natural : ∀ x ∈ xs, Natural x)
    (back : ∀ x ∈ xs, ReadBack x) {fuel : Nat} (depth : Nat) (rest : List Char)
    (enough : 3 * (commaItems xs).length < fuel) :
    Doc.items fuel depth false (commaItems xs ++ ']' :: rest) =
      (toDocItems depth xs, none, some rest) := by
  induction xs generalizing fuel with
  | nil =>
    obtain ⟨fuel, rfl⟩ := Nat.exists_eq_add_one_of_ne_zero (Nat.ne_zero_of_lt enough)
    exact items_close fuel depth false rest
  | cons x xs ih =>
    rw [List.forall_mem_cons] at natural back
    have htext : commaItems (x :: xs) = ',' :: (x.compact.toList ++ commaItems xs) := rfl
    rw [htext, List.length_cons, List.length_append] at enough
    obtain ⟨fuel, rfl⟩ : ∃ f, fuel = f + 2 := ⟨fuel - 2, by omega⟩
    have hx := back.1 fuel depth (commaItems xs ++ ']' :: rest) (by omega) (ends_commaItems xs rest)
    obtain ⟨c, cs, hc, hspace, hclose⟩ := natural.1.exists_cons
    have hcomma := items_comma hspace hclose (fuel + 1) depth (cs ++ (commaItems xs ++ ']' :: rest))
    rw [← List.cons_append, ← hc] at hcomma
    rw [htext, List.cons_append, List.append_assoc, hcomma, element_of_value hx,
      ih natural.2 back.2 (by omega)]
    rfl

theorem readBack_array {xs : List Json} (natural : ∀ x ∈ xs, Natural x)
    (back : ∀ x ∈ xs, ReadBack x) : ReadBack (.array xs) := by
  intro fuel depth rest enough _
  rw [toList_compact_array] at enough ⊢
  simp only [List.length_append, List.length_cons, List.length_nil] at enough
  obtain ⟨fuel, rfl⟩ : ∃ f, fuel = f + 3 := ⟨fuel - 3, by omega⟩
  have hitems : Doc.items (fuel + 2) (depth + 1) true ((compactItems xs).toList ++ ']' :: rest) =
      (toDocItems (depth + 1) xs, none, some rest) := by
    cases xs with
    | nil => exact items_close (fuel + 1) (depth + 1) true rest
    | cons x xs =>
      rw [List.forall_mem_cons] at natural back
      rw [toList_compactItems, List.length_append] at enough
      have hx := back.1 fuel (depth + 1) (commaItems xs ++ ']' :: rest) (by omega)
        (ends_commaItems xs rest)
      obtain ⟨c, cs, hc, hspace, hclose⟩ := natural.1.exists_cons
      have hfirst := items_first hspace hclose (fuel + 1) (depth + 1)
        (cs ++ (commaItems xs ++ ']' :: rest))
      rw [← List.cons_append, ← hc] at hfirst
      have hrest := @items_commaItems xs natural.2 back.2 fuel (depth + 1) rest (by omega)
      rw [toList_compactItems, List.append_assoc, hfirst, element_of_value hx, hrest]
      rfl
  rw [List.cons_append, List.cons_append, List.append_assoc, List.singleton_append, value_array,
    hitems]
  rfl

theorem value_object (fuel depth : Nat) (cs : List Char) :
    Doc.value (fuel + 1) depth ('\x7b' :: cs) =
      (.object (depth + 1) (Doc.fields fuel (depth + 1) true cs).1
        (Doc.fields fuel (depth + 1) true cs).2.1, (Doc.fields fuel (depth + 1) true cs).2.2) := by
  rw [Doc.value, dropSpace_cons rfl]
  rfl

theorem fields_close (fuel depth : Nat) (first : Bool) (rest : List Char) :
    Doc.fields (fuel + 1) depth first ('\x7d' :: rest) = ([], none, some rest) := by
  rw [Doc.fields, dropSpace_cons rfl]
  rfl

theorem fields_comma (fuel depth : Nat) (cs : List Char) :
    Doc.fields (fuel + 1) depth false (',' :: '"' :: cs) = Doc.field fuel depth cs := by
  have hcomma : dropSpace (',' :: '"' :: cs) = ',' :: '"' :: cs := dropSpace_cons rfl _
  have hquote : dropSpace ('"' :: cs) = '"' :: cs := dropSpace_cons rfl cs
  simp [Doc.fields, hcomma, hquote]

theorem fields_first (fuel depth : Nat) (cs : List Char) :
    Doc.fields (fuel + 1) depth true ('"' :: cs) = Doc.field fuel depth cs := by
  rw [Doc.fields, dropSpace_cons rfl]
  rfl

theorem field_of_value {f : String × Json} (back : ReadBack f.2) {fuel : Nat} (depth : Nat)
    {rest : List Char} (ends : Ends rest) (enough : 3 * (fieldText f).length ≤ fuel) :
    Doc.field (fuel + 1) depth (fieldText f ++ rest) =
      ((.ok f.1, toDoc depth f.2) :: (Doc.fields fuel depth false rest).1,
        (Doc.fields fuel depth false rest).2) := by
  have htext : fieldText f ++ rest =
      f.1.toList.flatMap escaped ++ '"' :: (':' :: (f.2.compact.toList ++ rest)) := by
    rw [fieldText, List.append_assoc, List.cons_append, List.cons_append]
  simp only [fieldText, List.length_append, List.length_cons] at enough
  obtain ⟨hbody, hrest⟩ := string_escaped f.1.toList (':' :: (f.2.compact.toList ++ rest))
  have hvalue := back fuel depth rest (by omega) ends
  rw [Doc.field, htext, hbody, hrest]
  dsimp only
  rw [dropSpace_cons rfl]
  dsimp only
  rw [if_neg (fun h => h rfl), hvalue]
  dsimp only [Except.map]
  rw [String.ofList_toList]

theorem fields_commaFields {fs : List (String × Json)} (back : ∀ f ∈ fs, ReadBack f.2) {fuel : Nat}
    (depth : Nat) (rest : List Char) (enough : 3 * (commaFields fs).length < fuel) :
    Doc.fields fuel depth false (commaFields fs ++ '\x7d' :: rest) =
      (toDocFields depth fs, none, some rest) := by
  induction fs generalizing fuel with
  | nil =>
    obtain ⟨fuel, rfl⟩ := Nat.exists_eq_add_one_of_ne_zero (Nat.ne_zero_of_lt enough)
    exact fields_close fuel depth false rest
  | cons f fs ih =>
    rw [List.forall_mem_cons] at back
    have htext : commaFields (f :: fs) = ',' :: '"' :: (fieldText f ++ commaFields fs) := rfl
    rw [htext, List.length_cons, List.length_cons, List.length_append] at enough
    obtain ⟨fuel, rfl⟩ : ∃ n, fuel = n + 2 := ⟨fuel - 2, by omega⟩
    rw [htext, List.cons_append, List.cons_append, List.append_assoc, fields_comma,
      field_of_value back.1 depth (ends_commaFields fs rest) (by omega),
      ih back.2 (by omega)]
    rfl

theorem readBack_object {fs : List (String × Json)} (back : ∀ f ∈ fs, ReadBack f.2) :
    ReadBack (.object fs) := by
  intro fuel depth rest enough _
  rw [toList_compact_object] at enough ⊢
  simp only [List.length_append, List.length_cons, List.length_nil] at enough
  obtain ⟨fuel, rfl⟩ : ∃ n, fuel = n + 3 := ⟨fuel - 3, by omega⟩
  have hfields :
      Doc.fields (fuel + 2) (depth + 1) true ((compactFields fs).toList ++ '\x7d' :: rest) =
      (toDocFields (depth + 1) fs, none, some rest) := by
    cases fs with
    | nil => exact fields_close (fuel + 1) (depth + 1) true rest
    | cons f fs =>
      rw [List.forall_mem_cons] at back
      rw [toList_compactFields, List.length_append, List.length_cons] at enough
      have hrest := @fields_commaFields fs back.2 fuel (depth + 1) rest (by omega)
      rw [toList_compactFields, List.cons_append, List.cons_append, List.append_assoc, fields_first,
        field_of_value back.1 (depth + 1) (ends_commaFields fs rest) (by omega), hrest]
      rfl
  rw [List.cons_append, List.cons_append, List.append_assoc, List.singleton_append, value_object,
    hfields]
  rfl

theorem wordRest_append (w rest : List Char) : wordRest w (w ++ rest) = .ok rest := by
  induction w with
  | nil => rfl
  | cons c w ih => rw [List.cons_append, wordRest, if_pos rfl, ih]

theorem word_append (w : List Char) (d : Doc) (rest : List Char) :
    Doc.word w d (w ++ rest) = (d, some rest) := by
  rw [Doc.word, wordRest_append]
  rfl

theorem readBack_leaf {v : Json} {c : Char} {cs : List Char} (text : v.compact.toList = c :: cs)
    (read : ∀ fuel depth rest, Ends rest →
      Doc.value (fuel + 1) depth (c :: (cs ++ rest)) = (v.toDoc depth, some rest)) :
    ReadBack v := by
  intro fuel depth rest enough ends
  rw [text, List.length_cons] at enough
  obtain ⟨fuel, rfl⟩ : ∃ n, fuel = n + 1 := ⟨fuel - 1, by omega⟩
  rw [text, List.cons_append]
  exact read fuel depth rest ends

theorem value_digit {c : Char} (digit : c.isDigit = true) (fuel depth : Nat) (cs : List Char) :
    Doc.value (fuel + 1) depth (c :: cs) = Doc.numeral false (c :: cs) := by
  rw [Doc.value, dropSpace_cons (isSpace_of_isDigit digit)]
  split
  case h_1 h => cases h
  case h_9 h =>
    cases h
    exact if_pos digit
  -- none of the other characters is a digit
  all_goals
    rename_i h
    cases h
    cases digit

theorem readBack_number {n : Nat} (fits : n < UInt64.size) : ReadBack (.ofNat n) := by
  obtain ⟨c, cs, hc⟩ := List.exists_cons_of_ne_nil (Text.digits_ne_nil n)
  have htext : (Json.ofNat n).compact.toList = Text.digits n := String.toList_ofList
  refine readBack_leaf (htext.trans hc) fun fuel depth rest ends => ?_
  rw [value_digit (Text.isDigit_of_mem_digits (hc ▸ List.mem_cons_self)), ← List.cons_append, ← hc]
  exact numeral_digits fits ends

theorem readBack_string (s : String) : ReadBack (.string s) := by
  have htext : (Json.string s).compact.toList = '"' :: (s.toList.flatMap escaped ++ ['"']) :=
    String.toList_ofList
  refine readBack_leaf htext fun fuel depth rest _ => ?_
  rw [List.append_assoc, Doc.value, dropSpace_cons rfl]
  exact text_escaped s rest

theorem Natural.readBack {v : Json} (h : Natural v) : ReadBack v := by
  induction h with
  | null =>
    refine readBack_leaf rfl fun fuel depth rest _ => ?_
    rw [Doc.value, dropSpace_cons rfl]
    exact word_append ['u', 'l', 'l'] .null rest
  | bool b =>
    cases b with
    | false =>
      refine readBack_leaf rfl fun fuel depth rest _ => ?_
      rw [Doc.value, dropSpace_cons rfl]
      exact word_append ['a', 'l', 's', 'e'] (.bool false) rest
    | true =>
      refine readBack_leaf rfl fun fuel depth rest _ => ?_
      rw [Doc.value, dropSpace_cons rfl]
      exact word_append ['r', 'u', 'e'] (.bool true) rest
  | number fits => exact readBack_number fits
  | string s => exact readBack_string s
  | array items ih => exact readBack_array items ih
  | object _ ih => exact readBack_object ih

theorem spells_compact {v : Json} (h : Natural v) : Spells v.compact v := by
  refine ⟨[], ?_, rfl⟩
  have hread := h.readBack (3 * v.compact.toList.length + 3) 0 [] (by omega) (by rintro c ⟨⟩)
  rwa [List.append_nil] at hread

end EidMap.Json
