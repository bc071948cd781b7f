import EidMap.Proofs.Toml.Quoted

/-!
# Documents of settings read back

A document is read line by line. A line that was written for an entry adds the entry to the table
that was opened last, and a header that was written opens the table of its path; what follows on the
next line is left as it is.
-/

namespace EidMap.Toml

inductive IsLeaf : Toml → Prop
  | string (s : String) : IsLeaf (.string s)
  | boolean (b : Bool) : IsLeaf (.boolean b)
  | natural {n : Nat} (h : n < Number.twoPow 63) : IsLeaf (.integer n)

theorem word_append {w : List Char} (h : ∀ c ∈ w, endsWord c = false) (rest : List Char) :
    word (w ++ '\n' :: rest) = (w, '\n' :: rest) := by
  have hw : ∀ c ∈ w, (!endsWord c) = true := fun c hc => by rw [h c hc]; rfl
  have hrest : ∀ c ∈ ('\n' :: rest).head?, (!endsWord c) = false := by
    intro c hc
    cases hc
    decide
  rw [word, Text.takeWhile_append_eq hw hrest, Text.dropWhile_append_eq hw hrest]
  rfl

theorem isDate_digits {cs : List Char} (h : ∀ c ∈ cs, c.isDigit = true) : isDate cs = false := by
  have hdash : '-' ∉ cs := fun hm => absurd (h _ hm) (by decide)
  rw [isDate, Text.pieces_eq_singleton hdash]

theorem isClock_digits {cs : List Char} (h : ∀ c ∈ cs, c.isDigit = true) : isClock cs = false := by
  unfold isClock
  split
  · exact absurd (h ':' (by simp)) (by decide)
  · rfl

theorem isDatetime_digits {cs : List Char} (h : ∀ c ∈ cs, c.isDigit = true) :
    isDatetime cs = false := by
  have htake : ∀ n, ∀ c ∈ cs.take n, c.isDigit = true := fun n c hc => h c (List.mem_of_mem_take hc)
  rw [isDatetime, isDate_digits h, isTime, isClock_digits (htake 8), isDate_digits (htake 10)]
  rfl

theorem whole?_digits (n : Nat) : whole? (Text.digits n) = some (Text.digits n) := by
  have hbar : '_' ∉ Text.digits n := fun hm => absurd (Text.isDigit_of_mem_digits hm) (by decide)
  have hdigits : digits? Char.isDigit (Text.digits n) = some (Text.digits n) := by
    have hne : (Text.digits n).isEmpty = false := by
      simpa [List.isEmpty_iff] using Text.digits_ne_nil n
    rw [digits?, Text.pieces_eq_singleton hbar]
    simp only [List.all_cons, List.all_nil, hne, Text.all_isDigit_digits, Bool.not_false,
      Bool.and_self, if_true, List.flatten_cons, List.flatten_nil, List.append_nil]
  rw [whole?, hdigits]
  split
  · rename_i c cs heq
    -- A number with a leading zero is zero, which has no second digit.
    have hcs := Option.some.inj heq
    rcases Nat.eq_zero_or_pos n with rfl | hpos
    · rw [Text.digits] at hcs
      cases hcs
    · have hhead := Text.positional_digits.head?_ne
        (fun m hm he => by revert he; revert m; decide) hpos
      rw [hcs] at hhead
      exact absurd rfl hhead
  · rfl

theorem inRange_natural {n : Nat} (h : n < Number.twoPow 63) : inRange n = some (.integer n) := by
  rw [inRange]
  generalize Number.twoPow 63 = bound at h
  have hlow : -(bound : Int) ≤ n := by omega
  have hhigh : (n : Int) < bound := by omega
  simp only [hlow, hhigh, decide_true, Bool.and_self, if_true]

theorem integer?_digits {n : Nat} (h : n < Number.twoPow 63) :
    integer? (Text.digits n) = some (.integer n) := by
  have hdigit : ∀ c ∈ Text.digits n, c.isDigit = true := fun c hc => Text.isDigit_of_mem_digits hc
  have hsign : cutSign (Text.digits n) = (false, Text.digits n) := by
    unfold cutSign
    split
    · rename_i cs heq
      exact absurd (hdigit '-' (heq ▸ List.mem_cons_self)) (by decide)
    · rename_i cs heq
      exact absurd (hdigit '+' (heq ▸ List.mem_cons_self)) (by decide)
    · rfl
  have hbase : ∀ c, c.isDigit = false → ∀ cs, Text.digits n ≠ '0' :: c :: cs := by
    intro c hc cs heq
    rw [hdigit c (by simp [heq])] at hc
    cases hc
  rw [integer?]
  · rw [hsign]
    dsimp only
    rw [whole?_digits, Option.bind_some, Text.ofDigits_digits, if_neg Bool.false_ne_true,
      inRange_natural h]
  · exact hbase 'x' (by decide)
  · exact hbase 'o' (by decide)
  · exact hbase 'b' (by decide)

theorem endsWord_of_isDigit {c : Char} (h : c.isDigit = true) : endsWord c = false := by
  have hne : ∀ d, d.isDigit = false → (c == d) = false := by
    intro d hd
    rw [beq_eq_false_iff_ne]
    rintro rfl
    rw [h] at hd
    cases hd
  simp only [endsWord, isGap, hne ' ' (by decide), hne '\t' (by decide), hne '\n' (by decide),
    hne '\r' (by decide), hne ',' (by decide), hne ']' (by decide), hne '\x7d' (by decide),
    hne '#' (by decide), Bool.or_self]

theorem ofWord_digits {n : Nat} (h : n < Number.twoPow 63) :
    ofWord (Text.digits n) = some (.integer n) := by
  have hdigit : ∀ c ∈ Text.digits n, c.isDigit = true := fun c hc => Text.isDigit_of_mem_digits hc
  have hword : ∀ c cs, c.isDigit = false → Text.digits n ≠ c :: cs := by
    intro c cs hc heq
    rw [hdigit c (by simp [heq])] at hc
    cases hc
  rw [ofWord, if_neg (hword 't' _ (by decide)), if_neg (hword 'f' _ (by decide)),
    isDatetime_digits hdigit, integer?_digits h]
  rfl

theorem string?_eq_none {cs : List Char} (h : ∀ c ∈ cs.head?, c ≠ '"' ∧ c ≠ '\'') :
    string? cs = none := by
  unfold string?
  split
  all_goals first
    | rfl
    | exact absurd rfl (h '"' rfl).1
    | exact absurd rfl (h '\'' rfl).2

theorem value?_eq (depth : Nat) {cs : List Char} (h : ∀ c ∈ cs.head?, c ≠ '[' ∧ c ≠ '\x7b') :
    value? depth cs = match string? cs with
      | some (s, rest) => some (.string (String.ofList s), rest)
      | none => (ofWord (word cs).1).map fun v => (v, (word cs).2) := by
  unfold value?
  split
  · exact absurd rfl (h '[' rfl).1
  · exact absurd rfl (h '\x7b' rfl).2
  · cases string? cs <;> rfl

theorem value?_word (depth : Nat) {c : Char} {w : List Char} {v : Toml} (rest : List Char)
    (first : c ≠ '[' ∧ c ≠ '\x7b' ∧ c ≠ '"' ∧ c ≠ '\'') (plain : ∀ d ∈ c :: w, endsWord d = false)
    (read : ofWord (c :: w) = some v) :
    value? depth (c :: w ++ '\n' :: rest) = some (v, '\n' :: rest) := by
  have hhead : ∀ d ∈ (c :: w ++ '\n' :: rest).head?, d = c := by simp [eq_comm]
  rw [value?_eq depth fun d hd => hhead d hd ▸ ⟨first.1, first.2.1⟩,
    string?_eq_none fun d hd => hhead d hd ▸ ⟨first.2.2.1, first.2.2.2⟩, word_append plain, read]
  rfl

theorem head?_stringText (cs rest : List Char) :
    ∀ c ∈ (stringText cs ++ rest).head?, c = '"' ∨ c = '\'' := by
  unfold stringText
  dsimp only
  split_ifs <;> simp [onLine, literal, onLines, literalLines, fenced]

theorem inlineText_natural (n : Nat) : inlineText (.integer n) = Text.digits n := by
  rw [inlineText]
  exact String.toList_ofList

theorem exists_digits (n : Nat) : ∃ c w, Text.digits n = c :: w ∧ c.isDigit = true := by
  obtain ⟨c, w, hc⟩ := List.exists_cons_of_ne_nil (Text.digits_ne_nil n)
  exact ⟨c, w, hc, Text.isDigit_of_mem_digits (n := n) (by simp [hc])⟩

theorem value?_inlineText (depth : Nat) {v : Toml} (h : IsLeaf v) (rest : List Char) :
    value? depth (inlineText v ++ '\n' :: rest) = some (v, '\n' :: rest) := by
  cases h with
  | string s =>
    have hopen : ∀ c ∈ (stringText s.toList ++ '\n' :: rest).head?, c ≠ '[' ∧ c ≠ '\x7b' := by
      intro c hc
      rcases head?_stringText s.toList ('\n' :: rest) c hc with rfl | rfl <;> decide
    have hread := string?_stringText s.toList
      (show ∀ c ∈ ('\n' :: rest).head?, c ≠ '"' ∧ c ≠ '\'' by simp)
    rw [inlineText, value?_eq depth hopen, hread]
    simp only [String.ofList_toList]
  | boolean b =>
    cases b
    · have htext : inlineText (.boolean false) = ['f', 'a', 'l', 's', 'e'] := rfl
      have hread : ofWord ['f', 'a', 'l', 's', 'e'] = some (.boolean false) := by
        rw [ofWord, if_neg (by decide), if_pos rfl]
      rw [htext]
      exact value?_word depth rest (by decide) (by simp [endsWord, isGap]) hread
    · have htext : inlineText (.boolean true) = ['t', 'r', 'u', 'e'] := rfl
      have hread : ofWord ['t', 'r', 'u', 'e'] = some (.boolean true) := by
        rw [ofWord, if_pos rfl]
      rw [htext]
      exact value?_word depth rest (by decide) (by simp [endsWord, isGap]) hread
  | @natural n h =>
    obtain ⟨c, w, hc, hdigit⟩ := exists_digits n
    have hread := ofWord_digits h
    rw [inlineText_natural, hc]
    rw [hc] at hread
    refine value?_word depth rest ?_ (fun d hd => ?_) hread
    · refine ⟨?_, ?_, ?_, ?_⟩ <;> (rintro rfl; exact absurd hdigit (by decide))
    · exact endsWord_of_isDigit (Text.isDigit_of_mem_digits (n := n) (hc ▸ hd))

theorem dropGap_eq {cs : List Char} (h : ∀ c ∈ cs.head?, isGap c = false) : dropGap cs = cs := by
  cases cs with
  | nil => rfl
  | cons c cs => rw [dropGap, List.dropWhile_cons, h c rfl]; rfl

theorem Starts.ne {c d : Char} (h : Starts c) (bare : isBare d = false) (double : d ≠ '"')
    (single : d ≠ '\'') : c ≠ d := by
  rintro rfl
  rcases h with h | h | h
  · rw [bare] at h
    cases h
  · exact double h
  · exact single h

theorem Starts.isGap {c : Char} (h : Starts c) : isGap c = false := by
  rw [Toml.isGap, Bool.or_eq_false_iff, beq_eq_false_iff_ne, beq_eq_false_iff_ne]
  exact ⟨h.ne (by decide) (by decide) (by decide), h.ne (by decide) (by decide) (by decide)⟩

theorem dropGap_nameText (s : String) (rest : List Char) :
    dropGap (nameText s ++ rest) = nameText s ++ rest := by
  obtain ⟨c, cs, hs, hc⟩ := exists_nameText s
  rw [hs]
  exact dropGap_eq (by simpa using hc.isGap)

theorem path?_nameText (k : String) {rest : List Char} (bare : ∀ c ∈ rest.head?, isBare c = false)
    (dot : ∀ c ∈ (dropGap rest).head?, c ≠ '.') :
    path? (nameText k ++ rest) = some (([], k), dropGap rest) := by
  rw [path?, dropGap_nameText, name?_nameText k bare]
  dsimp only
  split
  · rename_i more heq
    rw [heq] at dot
    exact absurd rfl (dot '.' rfl)
  · rfl

theorem pathText_cons (k : String) {ks : List String} (h : ks ≠ []) :
    pathText (k :: ks) = nameText k ++ '.' :: pathText ks := by
  cases ks with
  | nil => exact absurd rfl h
  | cons j ks => simp [pathText, List.intercalate]

theorem path?_pathText (ks : List String) (k : String) {rest : List Char}
    (bare : ∀ c ∈ rest.head?, isBare c = false) (dot : ∀ c ∈ (dropGap rest).head?, c ≠ '.') :
    path? (pathText (ks ++ [k]) ++ rest) = some ((ks, k), dropGap rest) := by
  induction ks with
  | nil =>
    rw [List.nil_append, show pathText [k] = nameText k by simp [pathText, List.intercalate]]
    exact path?_nameText k bare dot
  | cons j ks ih =>
    have hlength : (pathText (ks ++ [k]) ++ rest).length <
        (nameText j ++ '.' :: (pathText (ks ++ [k]) ++ rest)).length := by
      simp only [List.length_append, List.length_cons]
      omega
    rw [List.cons_append, pathText_cons j (by simp), List.append_assoc, List.cons_append, path?,
      dropGap_nameText, name?_nameText j (by rintro c ⟨⟩; decide)]
    have hdot : dropGap ('.' :: (pathText (ks ++ [k]) ++ rest)) =
        '.' :: (pathText (ks ++ [k]) ++ rest) := rfl
    simp only [hdot, hlength, dif_pos, ih, Option.map_some]

theorem boundedPath?_nameText (k : String) (rest : List Char) :
    boundedPath? (nameText k ++ ' ' :: '=' :: rest) = some (([], k), '=' :: rest) := by
  rw [boundedPath?, path?_nameText k (by rintro c ⟨⟩; decide) (by rintro c ⟨⟩; decide)]
  rfl

theorem boundedPath?_pathText {ks : List String} (h : ks.length < maxDepth) (k : String)
    (rest : List Char) :
    boundedPath? (pathText (ks ++ [k]) ++ ']' :: rest) = some ((ks, k), ']' :: rest) := by
  have hgap : dropGap (']' :: rest) = ']' :: rest := rfl
  rw [boundedPath?, path?_pathText ks k (by rintro c ⟨⟩; decide) (by rintro c ⟨⟩; decide), hgap]
  exact if_pos h

namespace Node

theorem find?_eq_none {k : String} {es : List (String × Node)} (h : k ∉ es.map Prod.fst) :
    find? k es = none := by
  induction es with
  | nil => rfl
  | cons e es ih =>
    simp only [List.map_cons, List.mem_cons, not_or] at h
    rw [find?, if_neg (Ne.symm h.1), ih h.2]

theorem put_fresh {k : String} {es : List (String × Node)} (h : k ∉ es.map Prod.fst) (n : Node) :
    put k n es = es ++ [(k, n)] := by
  induction es with
  | nil => rfl
  | cons e es ih =>
    simp only [List.map_cons, List.mem_cons, not_or] at h
    rw [put, if_neg (Ne.symm h.1), ih h.2, List.cons_append]

theorem find?_append {k : String} {es : List (String × Node)} (h : k ∉ es.map Prod.fst)
    (n : Node) : find? k (es ++ [(k, n)]) = some n := by
  induction es with
  | nil => simp [find?]
  | cons e es ih =>
    simp only [List.map_cons, List.mem_cons, not_or] at h
    rw [List.cons_append, find?, if_neg (Ne.symm h.1), ih h.2]

theorem put_append {k : String} {es : List (String × Node)} (h : k ∉ es.map Prod.fst)
    (n m : Node) : put k m (es ++ [(k, n)]) = es ++ [(k, m)] := by
  induction es with
  | nil => simp [put]
  | cons e es ih =>
    simp only [List.map_cons, List.mem_cons, not_or] at h
    rw [List.cons_append, put, if_neg (Ne.symm h.1), ih h.2, List.cons_append]

theorem under_append (f : List (String × Node) → Option (List (String × Node)))
    (ks js : List String) (es : List (String × Node)) :
    under f (ks ++ js) es = under (under f js) ks es := by
  induction ks generalizing es with
  | nil => rfl
  | cons k ks ih => simp only [List.cons_append, under, ih]

theorem toTomlEntries_append (es es' : List (String × Node)) :
    toTomlEntries (es ++ es') = toTomlEntries es ++ toTomlEntries es' := by
  induction es with
  | nil => rfl
  | cons e es ih => simp [toTomlEntries, ih]

def leaves (es : List (String × Toml)) : List (String × Node) := es.map fun (k, v) => (k, .leaf v)

@[simp] theorem toTomlEntries_leaves (es : List (String × Toml)) :
    toTomlEntries (leaves es) = es := by
  induction es with
  | nil => rfl
  | cons e es ih =>
    rw [leaves] at ih
    simp [leaves, toTomlEntries, toToml, ih]

end Node

/-- The path leads to the table `sub`, and `whole` is the document with another table in its
place. The path may lead through tables that the document does not have yet. -/
def Leads (path : List String) (entries sub : List (String × Node))
    (whole : List (String × Node) → List (String × Node)) : Prop :=
  ∀ f, Node.under f path entries = (f sub).map whole

def Encloses (path : List String) (whole : List (String × Node) → List (String × Node)) : Prop :=
  ∀ sub, Leads path (whole sub) sub whole

theorem encloses_nil : Encloses [] id := by
  intro sub f
  simp [Node.under]

section

variable {path : List String} {entries sub : List (String × Node)}
  {whole : List (String × Node) → List (String × Node)} {k : String}

theorem Encloses.table (h : Encloses path whole) (fresh : k ∉ sub.map Prod.fst) (origin : Origin) :
    Encloses (path ++ [k]) fun inner => whole (sub ++ [(k, .table origin inner)]) := by
  intro inner f
  rw [Node.under_append, h, Node.under, Node.find?_append fresh]
  simp only [Node.under, Node.put_append fresh, Option.map_map]
  rfl

theorem Leads.passed (h : Leads path entries sub whole) (fresh : k ∉ sub.map Prod.fst) :
    Leads (path ++ [k]) entries [] fun inner => whole (sub ++ [(k, .table .passed inner)]) := by
  intro f
  rw [Node.under_append, h, Node.under, Node.find?_eq_none fresh]
  simp only [Node.under, Node.put_fresh fresh, Option.map_map]
  rfl

theorem Leads.openTable (h : Leads path entries sub whole) (fresh : k ∉ sub.map Prod.fst) :
    Node.under (Node.openTable k) path entries =
      some (whole (sub ++ [(k, .table .header [])])) := by
  rw [h, Node.openTable, Node.find?_eq_none fresh, Node.put_fresh fresh]
  rfl

theorem Encloses.insert (h : Encloses path whole) (fresh : k ∉ sub.map Prod.fst) (v : Toml) :
    Node.under (Node.insert k v []) path (whole sub) = some (whole (sub ++ [(k, .leaf v)])) := by
  rw [h, Node.insert, Node.find?_eq_none fresh, Node.put_fresh fresh]
  rfl

end

theorem dropGap_inlineText {v : Toml} (h : IsLeaf v) (rest : List Char) :
    dropGap (inlineText v ++ rest) = inlineText v ++ rest := by
  refine dropGap_eq ?_
  cases h with
  | string s =>
    intro c hc
    rcases head?_stringText s.toList rest c hc with rfl | rfl <;> decide
  | boolean b => cases b <;> (rintro c ⟨⟩; decide)
  | @natural n h =>
    obtain ⟨c, w, hc, hdigit⟩ := exists_digits n
    have hplain : endsWord c = false := endsWord_of_isDigit hdigit
    rw [inlineText_natural, hc]
    rintro d ⟨⟩
    cases hgap : isGap c
    · rfl
    · simp [endsWord, hgap] at hplain

theorem assignment?_entry (k : String) {v : Toml} (h : IsLeaf v) (rest : List Char) :
    assignment? (value? maxDepth) (nameText k ++ [' ', '=', ' '] ++ inlineText v ++ '\n' :: rest) =
      some (([], k, v), '\n' :: rest) := by
  have hgap : dropGap (' ' :: (inlineText v ++ '\n' :: rest)) =
      dropGap (inlineText v ++ '\n' :: rest) := rfl
  simp only [List.append_assoc, List.cons_append, List.nil_append]
  simp only [assignment?, boundedPath?_nameText, hgap, dropGap_inlineText h,
    value?_inlineText maxDepth h, Option.bind_eq_bind, Option.bind_some, Option.pure_def]

theorem statement?_entry {d : Document} {k : String} {v : Toml} (h : IsLeaf v)
    {es : List (String × Node)} (hput : Node.under (Node.insert k v []) d.path d.entries = some es)
    (rest : List Char) :
    statement? d (nameText k ++ [' ', '=', ' '] ++ inlineText v ++ '\n' :: rest) =
      some (⟨es, d.path⟩, '\n' :: rest) := by
  have hread := assignment?_entry k h rest
  obtain ⟨c, cs, hs, hc⟩ := exists_nameText k
  rw [hs] at hread ⊢
  rw [statement?]
  · simp only [hread, hput, Option.bind_eq_bind, Option.bind_some, Option.pure_def]
  · rintro cs' heq
    exact hc.ne (by decide) (by decide) (by decide) (List.cons.inj heq).1

theorem statement?_header {d : Document} {ks : List String} {k : String}
    (h : ks.length < maxDepth) {es : List (String × Node)}
    (hopen : Node.under (Node.openTable k) ks d.entries = some es) (rest : List Char) :
    statement? d (['['] ++ pathText (ks ++ [k]) ++ [']', '\n'] ++ rest) =
      some (⟨es, ks ++ [k]⟩, '\n' :: rest) := by
  have hread := boundedPath?_pathText h k ('\n' :: rest)
  obtain ⟨c, cs, hs, hc⟩ : ∃ c cs, pathText (ks ++ [k]) = c :: cs ∧ Starts c := by
    cases ks with
    | nil =>
      obtain ⟨c, cs, hs, hc⟩ := exists_nameText k
      exact ⟨c, cs, by simpa [pathText, List.intercalate] using hs, hc⟩
    | cons j ks =>
      obtain ⟨c, cs, hs, hc⟩ := exists_nameText j
      exact ⟨c, _, by rw [List.cons_append, pathText_cons j (by simp), hs]; rfl, hc⟩
  rw [hs] at hread ⊢
  simp only [List.append_assoc, List.cons_append, List.nil_append] at hread ⊢
  rw [statement?, header?]
  · simp only [hread, hopen, Option.bind_eq_bind, Option.bind_some, Option.pure_def]
  · rintro cs' heq
    exact hc.ne (by decide) (by decide) (by decide) (List.cons.inj heq).1

theorem document?_line {d d' : Document} {cs rest : List Char} {c : Char} {cs' : List Char}
    (hdrop : dropLines false cs = c :: cs')
    (hread : statement? d (c :: cs') = some (d', '\n' :: rest))
    (hlength : rest.length < cs.length) : document? d cs = document? d' rest := by
  rw [document?]
  simp only [hdrop, hread]
  have hend : lineEnd? ('\n' :: rest) = some rest := rfl
  simp only [hend, hlength, dif_pos]

theorem dropLines_starts {c : Char} (h : Starts c) (cs : List Char) :
    dropLines false (c :: cs) = c :: cs := by
  have hne : ∀ d, isBare d = false → d ≠ '"' → d ≠ '\'' → c ≠ d := fun d => h.ne
  rw [dropLines, h.isGap]
  simp [hne '\n' (by decide) (by decide) (by decide), hne '\r' (by decide) (by decide) (by decide),
    hne '#' (by decide) (by decide) (by decide)]

theorem document?_entry {d : Document} {k : String} {v : Toml} (h : IsLeaf v)
    {es : List (String × Node)} (hput : Node.under (Node.insert k v []) d.path d.entries = some es)
    (rest : List Char) :
    document? d (nameText k ++ [' ', '=', ' '] ++ inlineText v ++ '\n' :: rest) =
      document? ⟨es, d.path⟩ rest := by
  have hread := statement?_entry h hput rest
  obtain ⟨c, cs, hs, hc⟩ := exists_nameText k
  have hlength : rest.length <
      (nameText k ++ [' ', '=', ' '] ++ inlineText v ++ '\n' :: rest).length := by
    simp only [List.length_append, List.length_cons]
    omega
  rw [hs] at hread hlength ⊢
  exact document?_line (dropLines_starts hc _) hread hlength

theorem document?_header {d : Document} {ks : List String} {k : String}
    (h : ks.length < maxDepth) {es : List (String × Node)}
    (hopen : Node.under (Node.openTable k) ks d.entries = some es) (rest : List Char) :
    document? d ('\n' :: (['['] ++ pathText (ks ++ [k]) ++ [']', '\n'] ++ rest)) =
      document? ⟨es, ks ++ [k]⟩ rest := by
  have hlength : rest.length <
      ('\n' :: (['['] ++ pathText (ks ++ [k]) ++ [']', '\n'] ++ rest)).length := by
    simp only [List.length_append, List.length_cons]
    omega
  exact document?_line rfl (statement?_header h hopen rest) hlength

def valueLines (vs : List (String × Toml)) : List Char :=
  vs.flatMap fun (k, v) => nameText k ++ [' ', '=', ' '] ++ inlineText v ++ ['\n']

theorem document?_valueLines {path : List String}
    {whole : List (String × Node) → List (String × Node)} (h : Encloses path whole)
    {vs : List (String × Toml)} (leaf : ∀ e ∈ vs, IsLeaf e.2) (sub : List (String × Node))
    (distinct : (sub.map Prod.fst ++ vs.map Prod.fst).Nodup) (rest : List Char) :
    document? ⟨whole sub, path⟩ (valueLines vs ++ rest) =
      document? ⟨whole (sub ++ Node.leaves vs), path⟩ rest := by
  induction vs generalizing sub with
  | nil => simp [Node.leaves, valueLines]
  | cons e vs ih =>
    obtain ⟨k, v⟩ := e
    have fresh : k ∉ sub.map Prod.fst := fun hk =>
      (List.nodup_append.1 distinct).2.2 k hk k (by simp) rfl
    have hline := document?_entry (d := ⟨whole sub, path⟩) (leaf (k, v) (by simp))
      (h.insert fresh v) (valueLines vs ++ rest)
    have hmore := ih (fun e he => leaf e (by simp [he])) (sub ++ [(k, .leaf v)])
      (by simpa using distinct)
    have hcons : valueLines ((k, v) :: vs) ++ rest =
        nameText k ++ [' ', '=', ' '] ++ inlineText v ++ '\n' :: (valueLines vs ++ rest) := by
      simp [valueLines]
    rw [hcons, hline, hmore, Node.leaves, Node.leaves, List.map_cons, List.append_assoc,
      List.singleton_append]

def tables (ts : List (String × List (String × Toml))) : List (String × Toml) :=
  ts.map fun (k, es) => (k, .table es)

/-- Entries that a document can hold as they are: values before tables, all under different names,
and tables no deeper in each other than a depth. -/
inductive Legible : Nat → List (String × Toml) → Prop
  | mk {depth : Nat} (vs : List (String × Toml)) (ts : List (String × List (String × Toml)))
    (leaf : ∀ e ∈ vs, IsLeaf e.2) (legible : ∀ t ∈ ts, Legible depth t.2)
    (distinct : (vs.map Prod.fst ++ ts.map Prod.fst).Nodup) : Legible (depth + 1) (vs ++ tables ts)

theorem legible_of_leaves {es : List (String × Toml)} (leaf : ∀ e ∈ es, IsLeaf e.2)
    (distinct : (es.map Prod.fst).Nodup) (depth : Nat) : Legible (depth + 1) es := by
  simpa [tables] using Legible.mk es [] leaf (by simp) (by simpa using distinct)

theorem legible_of_tables {depth : Nat} {ts : List (String × List (String × Toml))}
    (legible : ∀ t ∈ ts, Legible depth t.2) (distinct : (ts.map Prod.fst).Nodup) :
    Legible (depth + 1) (tables ts) :=
  .mk [] ts (by simp) legible (by simpa using distinct)

theorem IsLeaf.isTable {v : Toml} (h : IsLeaf v) : isTable v = false := by
  cases h <;> rfl

theorem IsLeaf.blocks {v : Toml} (h : IsLeaf v) (path : List String) : blocks path v = [] := by
  cases h <;> rfl

theorem ownLines_append {vs : List (String × Toml)} (leaf : ∀ e ∈ vs, IsLeaf e.2)
    (ts : List (String × List (String × Toml))) : ownLines (vs ++ tables ts) = valueLines vs := by
  have hvs : vs.filter (fun (_, v) => !isTable v) = vs := by
    refine List.filter_eq_self.2 fun e he => ?_
    simp [(leaf e he).isTable]
  have hts : (tables ts).filter (fun (_, v) => !isTable v) = [] := by
    rw [List.filter_eq_nil_iff]
    rintro ⟨k, v⟩ he
    obtain ⟨t, -, ht⟩ := List.mem_map.1 he
    cases ht
    simp [isTable]
  rw [ownLines, List.filter_append, hvs, hts, List.append_nil, valueLines]

theorem blocksOf_append {vs : List (String × Toml)} (leaf : ∀ e ∈ vs, IsLeaf e.2)
    (path : List String) (es : List (String × Toml)) :
    blocksOf path (vs ++ es) = blocksOf path es := by
  induction vs with
  | nil => rfl
  | cons e vs ih =>
    rw [List.cons_append, blocksOf, (leaf e (by simp)).blocks, List.nil_append,
      ih fun e he => leaf e (by simp [he])]

theorem blocks_passed (path : List String) {ts : List (String × List (String × Toml))}
    (h : ts ≠ []) : blocks path (.table (tables ts)) = blocksOf path (tables ts) := by
  have hnone : ∀ e ∈ ([] : List (String × Toml)), IsLeaf e.2 := by simp
  have hown : ownLines (tables ts) = [] := ownLines_append hnone ts
  have hne : (tables ts).isEmpty = false := by simpa [tables] using h
  simp [blocks, hown, hne]

theorem blocks_header (path : List String) {vs : List (String × Toml)}
    (leaf : ∀ e ∈ vs, IsLeaf e.2) {ts : List (String × List (String × Toml))}
    (h : vs = [] → ts = []) :
    blocks path (.table (vs ++ tables ts)) =
      (['['] ++ pathText path ++ [']', '\n'] ++ valueLines vs) :: blocksOf path (tables ts) := by
  have hhead : ((valueLines vs).isEmpty && !(vs ++ tables ts).isEmpty) = false := by
    cases vs with
    | nil => simp [h rfl, tables]
    | cons e vs => simp [valueLines]
  rw [blocks]
  simp only [ownLines_append leaf, blocksOf_append leaf, hhead, Bool.false_eq_true, if_false,
    List.nil_append, List.cons_append]

/-- The blocks of a table, each after a blank line, add it to the table that its path leads to. -/
def BlocksRead (depth : Nat) (es : List (String × Toml)) : Prop :=
  ∀ {ks : List String} {k : String} {entries sub : List (String × Node)}
    {whole : List (String × Node) → List (String × Node)} (path : List String),
    Leads ks entries sub whole → Encloses ks whole → k ∉ sub.map Prod.fst →
    ks.length + depth ≤ maxDepth →
    ∃ n last, n.toToml = .table es ∧ ∀ rest,
      document? ⟨entries, path⟩ ((blocks (ks ++ [k]) (.table es)).flatMap ('\n' :: ·) ++ rest) =
        document? ⟨whole (sub ++ [(k, n)]), last⟩ rest

theorem document?_tables {depth : Nat} {ks : List String}
    {whole : List (String × Node) → List (String × Node)} (henc : Encloses ks whole)
    (hdepth : ks.length + depth ≤ maxDepth) {ts : List (String × List (String × Toml))}
    (hread : ∀ t ∈ ts, BlocksRead depth t.2) (sub : List (String × Node)) (path : List String)
    (distinct : (sub.map Prod.fst ++ ts.map Prod.fst).Nodup) :
    ∃ ns last, Node.toTomlEntries ns = tables ts ∧ ∀ rest,
      document? ⟨whole sub, path⟩ ((blocksOf ks (tables ts)).flatMap ('\n' :: ·) ++ rest) =
        document? ⟨whole (sub ++ ns), last⟩ rest := by
  induction ts generalizing sub path with
  | nil => exact ⟨[], path, rfl, fun rest => by simp [tables, blocksOf]⟩
  | cons t ts ih =>
    obtain ⟨k, es⟩ := t
    have fresh : k ∉ sub.map Prod.fst := fun hk =>
      (List.nodup_append.1 distinct).2.2 k hk k (by simp) rfl
    obtain ⟨n, mid, hn, hfirst⟩ :=
      hread (k, es) (by simp) path (henc sub) henc fresh hdepth
    obtain ⟨ns, last, hns, hmore⟩ := ih (fun t ht => hread t (by simp [ht])) (sub ++ [(k, n)]) mid
      (by simpa using distinct)
    rw [tables] at hns hmore
    refine ⟨(k, n) :: ns, last, ?_, fun rest => ?_⟩
    · rw [Node.toTomlEntries, hn, hns, tables, List.map_cons]
    · rw [tables, List.map_cons, blocksOf, List.flatMap_append, List.append_assoc, hfirst, hmore,
        List.append_assoc, List.singleton_append]

theorem Legible.blocksRead {depth : Nat} {es : List (String × Toml)} (h : Legible depth es) :
    BlocksRead depth es := by
  induction h with
  | @mk depth vs ts leaf legible distinct ih =>
    intro ks k entries sub whole path hlead henc fresh hdepth
    have hlength : (ks ++ [k]).length + depth ≤ maxDepth := by
      simp only [List.length_append, List.length_singleton]
      omega
    by_cases hpassed : vs = [] ∧ ts ≠ []
    · -- No header is written, so the table comes to be when the first one in it is opened.
      obtain ⟨rfl, hne⟩ := hpassed
      obtain ⟨t, ts, rfl⟩ := List.exists_cons_of_ne_nil hne
      obtain ⟨j, es⟩ := t
      have hinner := henc.table fresh .passed
      have hfresh : j ∉ ([] : List (String × Node)).map Prod.fst := by simp
      obtain ⟨n, mid, hn, hfirst⟩ :=
        ih (j, es) (by simp) path (hlead.passed fresh) hinner hfresh hlength
      have hrest : ∀ t ∈ ts, BlocksRead depth t.2 := fun t ht => ih t (by simp [ht])
      obtain ⟨ns, last, hns, hmore⟩ := document?_tables hinner hlength hrest [(j, n)] mid
        (by simpa using distinct)
      refine ⟨.table .passed ((j, n) :: ns), last, ?_, fun rest => ?_⟩
      · rw [Node.toToml, Node.toTomlEntries, hn, hns, List.nil_append, tables, tables,
          List.map_cons]
      · rw [List.nil_append, blocks_passed _ hne, tables, List.map_cons, blocksOf,
          List.flatMap_append, List.append_assoc, hfirst]
        exact hmore rest
    · -- The header opens the table; its values follow, then the tables in it, each by induction.
      have hhead : vs = [] → ts = [] := fun hv =>
        Decidable.not_not.1 fun ht => hpassed ⟨hv, ht⟩
      have hopen := hlead.openTable fresh
      have hinner := henc.table fresh .header
      obtain ⟨ns, last, hns, hmore⟩ := document?_tables hinner hlength ih (Node.leaves vs)
        (ks ++ [k]) (by simpa [Node.leaves, Function.comp_def] using distinct)
      have hvalues := document?_valueLines hinner leaf []
        (by simpa using (List.nodup_append.1 distinct).1)
      refine ⟨.table .header (Node.leaves vs ++ ns), last, ?_, fun rest => ?_⟩
      · rw [Node.toToml, Node.toTomlEntries_append, Node.toTomlEntries_leaves, hns]
      · have hks : ks.length < maxDepth := by omega
        have hheader := document?_header (d := ⟨entries, path⟩) hks hopen
        rw [blocks_header _ leaf hhead, List.flatMap_cons, List.append_assoc,
          List.cons_append, List.append_assoc, hheader, hvalues, List.nil_append, hmore]

theorem documentText_append {vs : List (String × Toml)} (leaf : ∀ e ∈ vs, IsLeaf e.2)
    (h : vs ≠ []) (ts : List (String × List (String × Toml))) :
    (documentText (vs ++ tables ts)).toList =
      valueLines vs ++ (blocksOf [] (tables ts)).flatMap ('\n' :: ·) := by
  have hown : (valueLines vs).isEmpty = false := by
    cases vs with
    | nil => exact absurd rfl h
    | cons e vs => simp [valueLines]
  have hbreaks : ∀ (b : List Char) (bs : List (List Char)),
      List.intercalate ['\n'] (b :: bs) = b ++ bs.flatMap ('\n' :: ·) := by
    intro b bs
    induction bs generalizing b with
    | nil => simp [List.intercalate]
    | cons b' bs ih =>
      have hb' := ih b'
      simp only [List.intercalate, List.flatMap_cons] at hb' ⊢
      rw [List.intersperse_cons_cons, List.flatten_cons, List.flatten_cons, hb']
      rfl
  rw [documentText]
  simp only [ownLines_append leaf, blocksOf_append leaf, hown, Bool.false_eq_true, if_false,
    List.singleton_append, hbreaks, String.toList_ofList]

theorem read?_documentText {vs : List (String × Toml)} {ts : List (String × List (String × Toml))}
    (leaf : ∀ e ∈ vs, IsLeaf e.2) (h : vs ≠ []) (legible : ∀ t ∈ ts, Legible maxDepth t.2)
    (distinct : (vs.map Prod.fst ++ ts.map Prod.fst).Nodup) :
    read? (documentText (vs ++ tables ts)) = some (.table (vs ++ tables ts)) := by
  have htext := documentText_append leaf h ts
  have hmark : dropMark (documentText (vs ++ tables ts)).toList =
      (documentText (vs ++ tables ts)).toList := by
    obtain ⟨⟨k, v⟩, vs, rfl⟩ := List.exists_cons_of_ne_nil h
    obtain ⟨c, cs, hs, hc⟩ := exists_nameText k
    have hne : c.toNat ≠ 0xFEFF := by
      intro hmark
      refine hc.ne (d := Char.ofNat 0xFEFF) (by decide) (by decide) (by decide) ?_
      rw [← hmark, Char.ofNat_toNat]
    rw [htext, valueLines, List.flatMap_cons]
    simp only [hs, List.cons_append, dropMark, if_neg hne]
  obtain ⟨ns, last, hns, hread⟩ := document?_tables encloses_nil (Nat.le_of_eq (Nat.zero_add _))
    (fun t ht => (legible t ht).blocksRead) (Node.leaves vs) []
    (by simpa [Node.leaves, Function.comp_def] using distinct)
  have hvalues := document?_valueLines encloses_nil leaf []
    (by simpa using (List.nodup_append.1 distinct).1)
    ((blocksOf [] (tables ts)).flatMap ('\n' :: ·))
  have hmore := hread []
  rw [List.append_nil] at hmore
  have hend : document? ⟨id (Node.leaves vs ++ ns), last⟩ [] =
      some ⟨Node.leaves vs ++ ns, last⟩ := by
    rw [document?, dropLines]
    rfl
  rw [read?, hmark, htext]
  rw [List.nil_append] at hvalues
  rw [show (⟨[], []⟩ : Document) = ⟨id [], []⟩ from rfl, hvalues, hmore, hend, Option.map_some,
    Node.toTomlEntries_append, Node.toTomlEntries_leaves, hns]

end EidMap.Toml
