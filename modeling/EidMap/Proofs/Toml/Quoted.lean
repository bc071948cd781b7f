import EidMap.Proofs.Text.Cut
import EidMap.Proofs.Text.Numeral
import EidMap.Toml.Printer
import EidMap.Toml.Reader
import Mathlib.Tactic.SplitIfs

/-!
# Strings and names of settings read back

A string is written in one of four forms, and a name in one of three. Whatever the form, the reader
takes exactly the characters that were written and leaves what follows them.
-/

namespace EidMap.Toml

theorem positional_upperHexDigits :
    Text.Positional 16 (fun n => (Text.hexDigit n).toUpper)
      fun n => (Text.hexDigits n).map Char.toUpper where
  two_le := by decide
  eq n := by
    rw [Text.hexDigits]
    split <;> simp

theorem hexValue?_upperHexDigit :
    ∀ n < 16, Text.hexValue? (Text.hexDigit n).toUpper = some n := by decide

theorem hexChar?_padZeros {c : Char} (h : c.toNat < Nat.pow 16 4) (rest : List Char) :
    hexChar? 4 (Text.padZeros 4 ((Text.hexDigits c.toNat).map Char.toUpper) ++ rest) =
      some (c, rest) := by
  have hlength := Text.length_padZeros (positional_upperHexDigits.length_le (k := 3) h)
  have hvalue : Text.ofHex (Text.padZeros 4 ((Text.hexDigits c.toNat).map Char.toUpper)) =
      c.toNat := by
    rw [Text.ofHex, Text.foldl_padZeros rfl]
    exact positional_upperHexDigits.foldl_eq
      (fun n hn => by rw [hexValue?_upperHexDigit n hn]; rfl) c.toNat
  have hall : (Text.padZeros 4 ((Text.hexDigits c.toNat).map Char.toUpper)).all Text.isHex =
      true := by
    rw [Text.padZeros, List.all_append, positional_upperHexDigits.all
      (fun n hn => by rw [Text.isHex, hexValue?_upperHexDigit n hn]; rfl)]
    simp only [List.all_replicate, Bool.and_true]
    split <;> decide
  have hvalid : c.toNat.isValidChar := c.valid
  rw [hexChar?, List.take_left' hlength, List.drop_left' hlength]
  simp only [hlength, hall, hvalue, hvalid, decide_true, Bool.and_self, if_true, Char.ofNat_toNat]

/-- How a character may be written between quotes: as itself, or as an escape that reads as it. -/
inductive Spells (c : Char) : List Char → Prop
  | plain (plain : isPlain c = true) (slash : c ≠ '\\') : Spells c [c]
  | escape (d : Char) (code : List Char)
    (read : ∀ rest, escape? (d :: code ++ rest) = some (c, rest))
    (fold : ∀ rest, lineFold? (d :: code ++ rest) = none) : Spells c ('\\' :: d :: code)

theorem spells_quote : Spells '"' ['\\', '"'] := .escape _ [] (fun _ => rfl) fun _ => rfl

theorem spells_escaped (c : Char) : Spells c (escaped c) := by
  unfold escaped
  split
  case h_1 => exact .escape _ [] (fun _ => rfl) fun _ => rfl
  case h_2 => exact .escape _ [] (fun _ => rfl) fun _ => rfl
  case h_3 => exact .escape _ [] (fun _ => rfl) fun _ => rfl
  case h_4 => exact .escape _ [] (fun _ => rfl) fun _ => rfl
  case h_5 hslash =>
    split_ifs with h8 h12 hcontrol
    · refine .escape _ [] (fun rest => ?_) fun _ => rfl
      rw [← Char.ofNat_toNat c, h8]
      rfl
    · refine .escape _ [] (fun rest => ?_) fun _ => rfl
      rw [← Char.ofNat_toNat c, h12]
      rfl
    · have hsmall : c.toNat < Nat.pow 16 4 := by
        simp only [isControl, Bool.or_eq_true, decide_eq_true_eq, beq_iff_eq] at hcontrol
        have : Nat.pow 16 4 = 65536 := rfl
        omega
      exact .escape _ _ (fun rest => hexChar?_padZeros hsmall rest) fun _ => rfl
    · refine .plain ?_ hslash
      simp only [isControl, Bool.or_eq_true, decide_eq_true_eq, beq_iff_eq, not_or] at hcontrol
      simp only [isPlain, Bool.or_eq_true, Bool.and_eq_true, decide_eq_true_eq, bne_iff_ne, ne_eq]
      omega

theorem Spells.exists_cons {c : Char} {t : List Char} (h : Spells c t) :
    ∃ d ds, t = d :: ds ∧ (d = '\\' ∨ d = c ∧ isPlain c = true) := by
  cases h with
  | plain plain => exact ⟨c, [], rfl, .inr ⟨rfl, plain⟩⟩
  | escape d code => exact ⟨'\\', d :: code, rfl, .inl rfl⟩

theorem Spells.ne_singleton {c : Char} {t : List Char} (h : Spells c t) {d : Char} (hc : c ≠ d)
    (hd : d ≠ '\\') : t ≠ [d] := by
  rintro rfl
  obtain ⟨e, es, he, hslash | ⟨hce, -⟩⟩ := h.exists_cons <;> cases he
  · exact hd hslash
  · exact hc hce.symm

theorem ne_of_isPlain {c : Char} (h : isPlain c = true) : c ≠ '\n' ∧ c ≠ '\r' := by
  constructor <;> (rintro rfl; revert h; decide)

def ahead (cs : List Char) : List Char × List Char → List Char × List Char
  | (s, rest) => (cs ++ s, rest)

theorem basic?_append {c : Char} {t : List Char} (h : Spells c t) (quote : t ≠ ['"'])
    (rest : List Char) : basic? (t ++ rest) = (basic? rest).map (ahead [c]) := by
  cases h with
  | plain plain slash =>
    have hquote : c ≠ '"' := fun hc => quote (congrArg (fun d => [d]) hc)
    rw [List.singleton_append, basic?]
    · rw [if_pos plain]
      rfl
    · exact hquote
    · exact slash
  | escape d code read =>
    have hlength : rest.length < (d :: code ++ rest).length := by
      simp only [List.length_append, List.length_cons]
      omega
    rw [List.cons_append, basic?]
    simp only [read, hlength, dif_pos]
    rfl

theorem basic?_body (run : Nat) (cs rest : List Char) :
    basic? (body 0 false run cs ++ '"' :: rest) = some (cs, rest) := by
  induction cs generalizing run with
  | nil =>
    rw [body, List.nil_append, basic?]
  | cons c cs ih =>
    rw [body]
    split_ifs with hquote hrun hline
    · omega
    · subst hquote
      have hread := basic?_append spells_quote (by decide) (body 0 false 0 cs ++ '"' :: rest)
      rw [ih] at hread
      exact hread
    · simp at hline
    · have hne : escaped c ≠ ['"'] := (spells_escaped c).ne_singleton hquote (by decide)
      rw [List.append_assoc, basic?_append (spells_escaped c) hne, ih]
      rfl

theorem literal?_append {cs : List Char} (h : ∀ c ∈ cs, isPlain c = true ∧ c ≠ '\'')
    (rest : List Char) : literal? (cs ++ '\'' :: rest) = some (cs, rest) := by
  induction cs with
  | nil => rfl
  | cons c cs ih =>
    have hc := h c List.mem_cons_self
    rw [List.cons_append, literal?, if_neg hc.2, if_pos hc.1,
      ih fun d hd => h d (List.mem_cons_of_mem _ hd)]
    rfl

section
variable {quote : Char} {escapes : Bool}

theorem lines?_close (hquote : quote ≠ '\r') {k : Nat} (hk : k ≤ 2) {rest : List Char}
    (hrest : ∀ c ∈ rest.head?, c ≠ quote) :
    lines? quote escapes (List.replicate (k + 3) quote ++ rest) =
      some (List.replicate k quote, rest) := by
  have hcount : ((List.replicate (k + 2) quote ++ rest).takeWhile (· == quote)).length = k + 2 := by
    rw [Text.takeWhile_append_eq (fun c hc => by simpa using List.eq_of_mem_replicate hc)
      (fun c hc => by simpa using hrest c hc), List.length_replicate]
  have hkept : min (k + 2) 4 - 2 = k := by omega
  rw [List.replicate_succ, List.cons_append, lines?]
  · simp only [if_true, hcount, hkept, show 2 ≤ k + 2 by omega]
    rw [List.drop_left' (by simp)]
  · intro _ hr
    exact absurd hr hquote

theorem lines?_quote (hquote : quote ≠ '\r') {cs : List Char}
    (h : (cs.takeWhile (· == quote)).length < 2) :
    lines? quote escapes (quote :: cs) = (lines? quote escapes cs).map (ahead [quote]) := by
  rw [lines?]
  · simp only [if_true, if_neg (Nat.not_le.2 h)]
    rfl
  · intro _ hr
    exact absurd hr hquote

theorem lines?_plain {c : Char} (hc : isPlain c = true ∨ c = '\n') (hquote : c ≠ quote)
    (hslash : c ≠ '\\' ∨ escapes = false) (cs : List Char) :
    lines? quote escapes (c :: cs) = (lines? quote escapes cs).map (ahead [c]) := by
  have hescape : (decide (c = '\\') && escapes) = false := by
    rcases hslash with h | h <;> simp [h]
  have hkept : (isPlain c || decide (c = '\n')) = true := by
    simpa using hc
  rw [lines?]
  · simp only [hescape, hkept, if_neg hquote, if_true, Bool.false_eq_true, if_false]
    rfl
  · rintro _ rfl
    rcases hc with h | h <;> exact absurd h (by decide)

theorem lines?_append {c : Char} {t : List Char} (h : Spells c t) (hquote : t ≠ [quote])
    (hslash : quote ≠ '\\') (rest : List Char) :
    lines? quote true (t ++ rest) = (lines? quote true rest).map (ahead [c]) := by
  cases h with
  | plain plain slash =>
    have hne : c ≠ quote := fun hc => hquote (congrArg (fun d => [d]) hc)
    exact lines?_plain (.inl plain) hne (.inl slash) rest
  | escape d code read fold =>
    have hlength : rest.length < (d :: code ++ rest).length := by
      simp only [List.length_append, List.length_cons]
      omega
    rw [List.cons_append, lines?]
    · simp only [if_neg hslash.symm, decide_true, Bool.and_self, if_true, read, fold, hlength,
        dif_pos]
      rfl
    · intro _ hr
      exact absurd hr (by decide)

end

theorem head?_body (free : Nat) (lines : Bool) (run : Nat) (c : Char) (cs rest : List Char) :
    ∀ d ∈ (body free lines run (c :: cs) ++ rest).head?,
      d = '\\' ∨ d = c ∧ (isPlain c = true ∨ c = '\n') ∧ (c = '"' → run < free) := by
  rw [body]
  split_ifs with hquote hrun hline
  · subst hquote
    simpa using And.intro (show isPlain '"' = true by decide) hrun
  · simp
  · obtain ⟨rfl, -⟩ : c = '\n' ∧ lines = true := by simpa using hline
    simp
  · obtain ⟨d, ds, hd, hslash | ⟨rfl, hplain⟩⟩ := (spells_escaped c).exists_cons
    · rw [hd]
      simp [hslash]
    · rw [hd]
      simp [hplain, hquote]

theorem head?_body_ne {free run : Nat} {c : Char} (h : c ≠ '"' ∨ free ≤ run) (lines : Bool)
    (cs rest : List Char) : ∀ d ∈ (body free lines run (c :: cs) ++ rest).head?, d ≠ '"' := by
  rintro d hd rfl
  rcases head?_body free lines run c cs rest _ hd with hslash | ⟨rfl, -, hrun⟩
  · exact absurd hslash (by decide)
  · rcases h with hne | hle
    · exact hne rfl
    · exact Nat.not_lt.2 hle (hrun rfl)

theorem lines?_body {run : Nat} (hrun : run ≤ 2) (cs : List Char) {rest : List Char}
    (hrest : ∀ c ∈ rest.head?, c ≠ '"') :
    lines? '"' true (body 2 true run cs ++ '"' :: '"' :: '"' :: rest) = some (cs, rest) := by
  have hclose : ∀ {k}, k ≤ 2 → lines? '"' true (List.replicate (k + 3) '"' ++ rest) =
      some (List.replicate k '"', rest) := fun hk => lines?_close (by decide) hk hrest
  induction cs generalizing run with
  | nil => exact hclose (k := 0) (by omega)
  | cons c cs ih =>
    rw [body]
    split_ifs with hquote hfree hline
    · subst hquote
      -- A free quote; whether it closes the text depends on what follows.
      cases cs with
      | nil => exact hclose (k := 1) (by omega)
      | cons d ds =>
        by_cases hd : d = '"' ∧ run = 0
        · obtain ⟨rfl, rfl⟩ := hd
          cases ds with
          | nil => exact hclose (k := 2) (by omega)
          | cons e es =>
            have hfull : e ≠ '"' ∨ 2 ≤ 2 := .inr (Nat.le_refl 2)
            have hhead := head?_body_ne hfull true es ('"' :: '"' :: '"' :: rest)
            have hcount : ((body 2 true 1 ('"' :: e :: es) ++
                '"' :: '"' :: '"' :: rest).takeWhile (· == '"')).length < 2 := by
              rw [body, if_pos rfl, if_pos (by decide), List.cons_append, List.takeWhile_cons,
                if_pos (by decide), Text.takeWhile_eq_nil fun x hx => by simpa using hhead x hx]
              decide
            rw [List.cons_append, lines?_quote (by decide) hcount, ih (by omega)]
            rfl
        · have hused : d ≠ '"' ∨ 2 ≤ run + 1 := by
            by_cases hd' : d = '"'
            · have : run ≠ 0 := fun h0 => hd ⟨hd', h0⟩
              omega
            · exact .inl hd'
          have hhead := head?_body_ne hused true ds ('"' :: '"' :: '"' :: rest)
          have hcount : ((body 2 true (run + 1) (d :: ds) ++
              '"' :: '"' :: '"' :: rest).takeWhile (· == '"')).length < 2 := by
            rw [Text.takeWhile_eq_nil fun x hx => by simpa using hhead x hx]
            decide
          rw [List.cons_append, lines?_quote (by decide) hcount, ih (by omega)]
          rfl
    · subst hquote
      have hne : ['\\', '"'] ≠ ['"'] := by decide
      have hread := lines?_append spells_quote hne (by decide)
        (body 2 true 0 cs ++ '"' :: '"' :: '"' :: rest)
      rw [ih (by omega)] at hread
      exact hread
    · obtain ⟨hc, -⟩ : c = '\n' ∧ True := by simpa using hline
      rw [List.cons_append, lines?_plain (.inr hc) hquote (.inl (by rw [hc]; decide)),
        ih (by omega)]
      rfl
    · have hne : escaped c ≠ ['"'] := (spells_escaped c).ne_singleton hquote (by decide)
      rw [List.append_assoc, lines?_append (spells_escaped c) hne (by decide), ih (by omega)]
      rfl

theorem le_longestRun (q : Char) (run : Nat) (cs : List Char) : run ≤ longestRun q run cs := by
  induction cs generalizing run with
  | nil => exact Nat.le_refl run
  | cons c cs ih =>
    rw [longestRun]
    split_ifs
    · exact Nat.le_trans (Nat.le_succ run) (ih _)
    · exact Nat.le_max_left _ _

theorem longestRun_mono (q : Char) {run run' : Nat} (h : run ≤ run') (cs : List Char) :
    longestRun q run cs ≤ longestRun q run' cs := by
  induction cs generalizing run run' with
  | nil => exact h
  | cons c cs ih =>
    rw [longestRun, longestRun]
    split_ifs
    · exact ih (Nat.succ_le_succ h)
    · omega

theorem longestRun_le_cons (q c : Char) (cs : List Char) :
    longestRun q 0 cs ≤ longestRun q 0 (c :: cs) := by
  rw [longestRun]
  split_ifs
  · exact longestRun_mono q (Nat.zero_le _) cs
  · exact Nat.le_max_right _ _

theorem exists_run (q : Char) (run : Nat) (cs : List Char) :
    ∃ k rest, cs = List.replicate k q ++ rest ∧ run + k ≤ longestRun q run cs ∧
      ∀ c ∈ rest.head?, c ≠ q := by
  induction cs generalizing run with
  | nil => exact ⟨0, [], rfl, Nat.le_refl _, by simp⟩
  | cons c cs ih =>
    by_cases hc : c = q
    · obtain ⟨k, rest, hcs, hk, hrest⟩ := ih (run + 1)
      refine ⟨k + 1, rest, ?_, ?_, hrest⟩
      · rw [hcs, hc, List.replicate_succ, List.cons_append]
      · rw [longestRun, if_pos hc]
        omega
    · exact ⟨0, c :: cs, rfl, le_longestRun q run _, by simpa using hc⟩

theorem lines?_literal {cs rest : List Char} (hrun : longestRun '\'' 0 cs ≤ 2)
    (hcs : ∀ c ∈ cs, isPlain c = true ∨ c = '\n') (hrest : ∀ c ∈ rest.head?, c ≠ '\'') :
    lines? '\'' false (cs ++ '\'' :: '\'' :: '\'' :: rest) = some (cs, rest) := by
  have hclose : ∀ {k}, k ≤ 2 → lines? '\'' false (List.replicate (k + 3) '\'' ++ rest) =
      some (List.replicate k '\'', rest) := fun hk => lines?_close (by decide) hk hrest
  induction cs with
  | nil => exact hclose (k := 0) (by omega)
  | cons c cs ih =>
    have hread := ih (Nat.le_trans (longestRun_le_cons _ c cs) hrun)
      fun d hd => hcs d (List.mem_cons_of_mem _ hd)
    by_cases hc : c = '\''
    · subst hc
      rw [longestRun, if_pos rfl] at hrun
      obtain ⟨k, tail, hcs', hk, htail⟩ := exists_run '\'' (0 + 1) cs
      cases tail with
      | nil =>
        rw [List.append_nil] at hcs'
        rw [hcs', ← List.replicate_succ]
        have := hclose (k := k + 1) (by omega)
        rwa [← List.replicate_append_replicate, List.append_assoc] at this
      | cons d ds =>
        have hcount : ((cs ++ '\'' :: '\'' :: '\'' :: rest).takeWhile (· == '\'')).length < 2 := by
          rw [hcs', List.append_assoc, Text.takeWhile_append_eq
            (fun c hc => by simpa using List.eq_of_mem_replicate hc)
            (fun c hc => by simpa using htail c hc), List.length_replicate]
          omega
        rw [List.cons_append, lines?_quote (by decide) hcount, hread]
        rfl
    · rw [List.cons_append, lines?_plain (hcs c List.mem_cons_self) hc (.inr rfl), hread]
      rfl

theorem dropFirstLineEnd_eq {cs : List Char} (h : ∀ c ∈ cs.head?, c ≠ '\n' ∧ c ≠ '\r') :
    dropFirstLineEnd cs = cs := by
  cases cs with
  | nil => rfl
  | cons c cs =>
    have hc := h c rfl
    unfold dropFirstLineEnd
    split
    · rename_i heq
      cases heq
      exact absurd rfl hc.1
    · rename_i heq
      cases heq
      exact absurd rfl hc.2
    · rfl

theorem dropFirstLineEnd_fenced {cs inner : List Char} (rest : List Char)
    (h : '\n' ∉ cs → ∀ c ∈ (inner ++ rest).head?, c ≠ '\n' ∧ c ≠ '\r') :
    dropFirstLineEnd ((if cs.contains '\n' then ['\n'] else []) ++ inner ++ rest) =
      inner ++ rest := by
  split_ifs with hline
  · rfl
  · rw [List.nil_append]
    exact dropFirstLineEnd_eq (h fun hmem => hline (by simpa using hmem))

theorem string?_basic {cs : List Char} (h : ∀ t, cs ≠ '"' :: '"' :: t) :
    string? ('"' :: cs) = basic? cs := by
  rw [string?]
  exact h

theorem string?_literal {cs : List Char} (h : ∀ t, cs ≠ '\'' :: '\'' :: t) :
    string? ('\'' :: cs) = literal? cs := by
  rw [string?]
  exact h

theorem string?_onLine (cs : List Char) {rest : List Char} (hrest : ∀ c ∈ rest.head?, c ≠ '"') :
    string? (onLine cs ++ rest) = some (cs, rest) := by
  have hsingle : ∀ t, body 0 false 0 cs ++ '"' :: rest ≠ '"' :: '"' :: t := by
    intro t ht
    cases cs with
    | nil =>
      rw [body, List.nil_append, List.cons.injEq] at ht
      exact hrest '"' (by rw [ht.2]; rfl) rfl
    | cons c cs =>
      have hnone : c ≠ '"' ∨ 0 ≤ 0 := .inr (Nat.le_refl 0)
      have hhead := head?_body_ne hnone false cs ('"' :: rest)
      rw [ht] at hhead
      exact hhead '"' rfl rfl
  have hline : onLine cs ++ rest = '"' :: (body 0 false 0 cs ++ '"' :: rest) := by
    simp [onLine]
  rw [hline, string?_basic hsingle, basic?_body]

theorem string?_onLines (cs : List Char) {rest : List Char} (hrest : ∀ c ∈ rest.head?, c ≠ '"') :
    string? (onLines cs ++ rest) = some (cs, rest) := by
  have hfence : onLines cs ++ rest = '"' :: '"' :: '"' ::
      ((if cs.contains '\n' then ['\n'] else []) ++ body 2 true 0 cs ++
        ('"' :: '"' :: '"' :: rest)) := by
    simp [onLines, fenced]
  rw [hfence, string?, dropFirstLineEnd_fenced, lines?_body (Nat.zero_le 2) cs hrest]
  intro hline d hd
  cases cs with
  | nil =>
    cases hd
    decide
  | cons c cs =>
    rcases head?_body 2 true 0 c cs _ d hd with rfl | ⟨rfl, hplain | hc, -⟩
    · decide
    · exact ne_of_isPlain hplain
    · exact absurd (List.mem_cons_self) (hc ▸ hline)

theorem string?_literalLines {cs rest : List Char} (hrun : longestRun '\'' 0 cs ≤ 2)
    (hcs : ∀ c ∈ cs, isPlain c = true ∨ c = '\n') (hrest : ∀ c ∈ rest.head?, c ≠ '\'') :
    string? (literalLines cs ++ rest) = some (cs, rest) := by
  have hfence : literalLines cs ++ rest = '\'' :: '\'' :: '\'' ::
      ((if cs.contains '\n' then ['\n'] else []) ++ cs ++ ('\'' :: '\'' :: '\'' :: rest)) := by
    simp [literalLines, fenced]
  rw [hfence, string?, dropFirstLineEnd_fenced, lines?_literal hrun hcs hrest]
  intro hline d hd
  cases cs with
  | nil =>
    cases hd
    decide
  | cons c cs =>
    obtain rfl : c = d := by simpa using hd
    rcases hcs c List.mem_cons_self with hplain | hc
    · exact ne_of_isPlain hplain
    · exact absurd List.mem_cons_self (hc ▸ hline)

theorem not_mem_of_longestRun {q : Char} {cs : List Char} (h : longestRun q 0 cs = 0) : q ∉ cs := by
  induction cs with
  | nil => simp
  | cons c cs ih =>
    have hle := longestRun_le_cons q c cs
    have hc : c ≠ q := by
      rintro rfl
      rw [longestRun, if_pos rfl] at h
      have := le_longestRun c (0 + 1) cs
      omega
    simp only [List.mem_cons, not_or]
    exact ⟨hc.symm, ih (by omega)⟩

theorem isPlain_of_not_coded {c : Char} (h : (isControl c && c != '\t' && c != '\n') = false) :
    isPlain c = true ∨ c = '\n' := by
  by_cases hline : c = '\n'
  · exact .inr hline
  · left
    by_cases htab : c = '\t'
    · subst htab
      decide
    · have hcontrol : isControl c = false := by
        simpa [htab, hline] using h
      simp only [isControl, Bool.or_eq_false_iff, decide_eq_false_iff_not, beq_eq_false_iff_ne,
        ne_eq] at hcontrol
      simp only [isPlain, Bool.or_eq_true, Bool.and_eq_true, decide_eq_true_eq, bne_iff_ne, ne_eq]
      omega

theorem string?_stringText (cs : List Char) {rest : List Char}
    (hrest : ∀ c ∈ rest.head?, c ≠ '"' ∧ c ≠ '\'') :
    string? (stringText cs ++ rest) = some (cs, rest) := by
  have hdouble : ∀ c ∈ rest.head?, c ≠ '"' := fun c hc => (hrest c hc).1
  have hsingle : ∀ c ∈ rest.head?, c ≠ '\'' := fun c hc => (hrest c hc).2
  have hkept : (cs.any fun c => isControl c && c != '\t' && c != '\n') = false →
      ∀ c ∈ cs, isPlain c = true ∨ c = '\n' := fun h c hc =>
    isPlain_of_not_coded (by simpa using List.any_eq_false.1 h c hc)
  unfold stringText
  dsimp only
  split_ifs with h1 h2 h3 h4 h5
  · exact string?_onLine cs hdouble
  · simp only [Bool.and_eq_true, Bool.not_eq_true', beq_iff_eq] at h2
    obtain ⟨⟨hcoded, hrun⟩, hline⟩ := h2
    have hcs : ∀ c ∈ cs, isPlain c = true ∧ c ≠ '\'' := by
      intro c hc
      refine ⟨(hkept hcoded c hc).resolve_right fun hn => ?_, fun hq => ?_⟩
      · rw [hn] at hc
        simp [hc] at hline
      · exact not_mem_of_longestRun hrun (hq ▸ hc)
    have hopen : ∀ t, cs ++ '\'' :: rest ≠ '\'' :: '\'' :: t := by
      intro t ht
      cases cs with
      | nil =>
        rw [List.nil_append, List.cons.injEq] at ht
        exact hsingle '\'' (by rw [ht.2]; rfl) rfl
      | cons c cs =>
        rw [List.cons_append, List.cons.injEq] at ht
        exact (hcs c List.mem_cons_self).2 ht.1
    have hline' : literal cs ++ rest = '\'' :: (cs ++ '\'' :: rest) := by simp [literal]
    rw [hline', string?_literal hopen, literal?_append hcs]
  · exact string?_onLines cs hdouble
  · simp only [Bool.and_eq_true, Bool.not_eq_true', decide_eq_true_eq] at h4
    exact string?_literalLines h4.2 (hkept h4.1) hsingle
  · exact string?_onLines cs hdouble
  · exact string?_onLine cs hdouble

theorem name?_bare {cs rest : List Char} (h : isBareName cs = true)
    (hrest : ∀ c ∈ rest.head?, isBare c = false) :
    name? (cs ++ rest) = some (String.ofList cs, rest) := by
  rw [isBareName, Bool.and_eq_true, Bool.not_eq_true'] at h
  obtain ⟨hne, hall⟩ := h
  have hcs : ∀ c ∈ cs, isBare c = true := List.all_eq_true.1 hall
  cases cs with
  | nil => cases hne
  | cons c cs =>
    have hc := hcs c List.mem_cons_self
    have hdouble : c ≠ '"' := by
      rintro rfl
      exact absurd hc (by decide)
    have hsingle : c ≠ '\'' := by
      rintro rfl
      exact absurd hc (by decide)
    rw [List.cons_append, name?]
    · rw [if_neg hsingle, if_pos hc, ← List.cons_append, Text.takeWhile_append_eq hcs hrest,
        Text.dropWhile_append_eq hcs hrest]
    · exact hdouble

theorem name?_nameText (s : String) {rest : List Char}
    (hrest : ∀ c ∈ rest.head?, isBare c = false) : name? (nameText s ++ rest) = some (s, rest) := by
  have hline : ∀ cs, name? (onLine cs ++ rest) = some (String.ofList cs, rest) := by
    intro cs
    have hcs : onLine cs ++ rest = '"' :: (body 0 false 0 cs ++ '"' :: rest) := by simp [onLine]
    rw [hcs, name?, basic?_body]
    rfl
  unfold nameText
  dsimp only
  split_ifs with h1 h2 h3
  · rw [name?_bare h1 hrest, String.ofList_toList]
  · rw [hline, String.ofList_toList]
  · simp only [Bool.and_eq_true, Bool.not_eq_true'] at h3
    obtain ⟨hcoded, hquote⟩ := h3
    have hcs : ∀ c ∈ s.toList, isPlain c = true ∧ c ≠ '\'' := by
      intro c hc
      have hcontrol := List.any_eq_false.1 hcoded c hc
      refine ⟨?_, fun hq => ?_⟩
      · refine (isPlain_of_not_coded (by simp [hcontrol])).resolve_right ?_
        rintro rfl
        exact hcontrol (by decide)
      · rw [hq] at hc
        simp [hc] at hquote
    have hopen : literal s.toList ++ rest = '\'' :: (s.toList ++ '\'' :: rest) := by simp [literal]
    rw [hopen, name?]
    · simp only [if_true, literal?_append hcs, Option.map_some, String.ofList_toList]
    · decide
  · rw [hline, String.ofList_toList]

def Starts (c : Char) : Prop := isBare c = true ∨ c = '"' ∨ c = '\''

theorem exists_nameText (s : String) : ∃ c cs, nameText s = c :: cs ∧ Starts c := by
  unfold nameText
  dsimp only
  split_ifs with h1
  · rw [isBareName, Bool.and_eq_true] at h1
    cases hs : s.toList with
    | nil =>
      rw [hs] at h1
      exact absurd h1.1 (by decide)
    | cons c cs =>
      rw [hs] at h1
      exact ⟨c, cs, rfl, .inl (List.all_eq_true.1 h1.2 c List.mem_cons_self)⟩
  · exact ⟨'"', _, rfl, .inr (.inl rfl)⟩
  · exact ⟨'\'', _, rfl, .inr (.inr rfl)⟩
  · exact ⟨'"', _, rfl, .inr (.inl rfl)⟩

end EidMap.Toml
