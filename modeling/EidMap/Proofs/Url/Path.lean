import EidMap.Proofs.Text.Cut
import EidMap.Proofs.Url.Percent
import Mathlib.Data.List.Induction

/-!
# The path of a web URL

The segments of a path are encoded, and dots among them are resolved. The text of such segments is
cut into the same segments, and none of them is resolved again.
-/

namespace EidMap.Url

/-- A segment in the form in which a URL has it. -/
structure IsSegment (s : List Char) : Prop where
  encoded : ∀ c ∈ s, pathSet c = false
  slash : '/' ∉ s
  backslash : '\\' ∉ s
  dot : dots s ≠ ['.']
  twoDots : dots s ≠ ['.', '.']

theorem isSegment_nil : IsSegment [] where
  encoded := by simp
  slash := by simp
  backslash := by simp
  dot := by simp [dots]
  twoDots := by simp [dots]

theorem isSegment_encode {s : List Char} (slash : '/' ∉ s) (backslash : '\\' ∉ s)
    (dot : dots s ≠ ['.']) (twoDots : dots s ≠ ['.', '.']) : IsSegment (encode pathSet s) := by
  have hmem : ∀ {c}, c ∉ escapes → c ∈ encode pathSet s → c ∈ s := fun hc hm =>
    ((mem_encode hm).resolve_left hc).1
  refine ⟨keepsEscapes_pathSet.of_mem_encode, fun hm => slash (hmem (by decide) hm),
    fun hm => backslash (hmem (by decide) hm), ?_, ?_⟩
  · rw [dots_encode]
    exact fun h => dot (encode_eq_dots (n := 1) h)
  · rw [dots_encode]
    exact fun h => twoDots (encode_eq_dots (n := 2) h)

theorem resolve_of_isSegment {ps : List (List Char)} (h : ∀ p ∈ ps, IsSegment p)
    (done : List String) : resolve done ps = done ++ ps.map String.ofList := by
  induction ps generalizing done with
  | nil => exact (List.append_nil done).symm
  | cons p ps ih =>
    obtain ⟨hp, hps⟩ := List.forall_mem_cons.1 h
    rw [resolve, if_neg hp.twoDots, if_neg hp.dot, ih hps, encode_eq_self hp.encoded,
      List.append_assoc]
    rfl

theorem resolve_ne_nil {ps : List (List Char)} (h : ps ≠ []) (done : List String) :
    resolve done ps ≠ [] := by
  induction ps generalizing done with
  | nil => exact absurd rfl h
  | cons p ps ih =>
    cases ps with
    | nil =>
      rw [resolve, List.isEmpty_nil, if_pos rfl, if_pos rfl]
      split_ifs <;> simp [resolve]
    | cons q qs =>
      rw [resolve]
      split_ifs <;> exact ih (List.cons_ne_nil q qs) _

theorem isSegment_of_mem_resolve {ps : List (List Char)} (hps : ∀ p ∈ ps, '/' ∉ p ∧ '\\' ∉ p)
    {done : List String} (hdone : ∀ x ∈ done, IsSegment x.toList) :
    ∀ x ∈ resolve done ps, IsSegment x.toList := by
  induction ps generalizing done with
  | nil => exact hdone
  | cons p ps ih =>
    obtain ⟨hp, hps⟩ := List.forall_mem_cons.1 hps
    have append : ∀ {ds : List String} {x : String}, (∀ d ∈ ds, IsSegment d.toList) →
        IsSegment x.toList → ∀ d ∈ ds ++ [x], IsSegment d.toList := by
      intro ds x hds hx d hd
      rcases List.mem_append.1 hd with hd | hd
      · exact hds d hd
      · rwa [List.mem_singleton.1 hd]
    have hdropped : ∀ x ∈ done.dropLast, IsSegment x.toList :=
      fun x hx => hdone x (List.dropLast_subset done hx)
    rw [resolve]
    split_ifs with htwo hlast hone hlast
    · exact ih hps (append hdropped isSegment_nil)
    · exact ih hps hdropped
    · exact ih hps (append hdone isSegment_nil)
    · exact ih hps hdone
    · refine ih hps (append hdone ?_)
      rw [String.toList_ofList]
      exact isSegment_encode hp.1 hp.2 hone htwo

structure IsPath (xs : List String) : Prop where
  segment : ∀ x ∈ xs, IsSegment x.toList
  ne : xs ≠ []

theorem isPath_segments (cs : List Char) : IsPath (segments true cs) := by
  refine ⟨isSegment_of_mem_resolve (fun p hp => ?_) (by simp),
    resolve_ne_nil (Text.pieces_ne_nil '/' _) []⟩
  obtain ⟨hslash, hmem⟩ := Text.of_mem_pieces hp
  refine ⟨hslash, fun hm => ?_⟩
  obtain ⟨c, -, hc⟩ := List.mem_map.1 (hmem _ hm)
  split at hc
  · cases hc
  · rename_i hne
    exact hne hc

theorem exists_isPath (cs : List Char) : ∃ xs, hostPath true cs = .segments xs ∧ IsPath xs := by
  unfold hostPath
  split
  · exact ⟨_, rfl, by simpa using isSegment_nil, List.cons_ne_nil _ _⟩
  · split
    · exact ⟨_, rfl, isPath_segments _⟩
    · exact ⟨_, rfl, isPath_segments _⟩

def slashed (xs : List String) : List Char := xs.flatMap fun x => '/' :: x.toList

theorem slashed_cons (x : String) (xs : List String) :
    slashed (x :: xs) = '/' :: (x.toList ++ slashed xs) := rfl

theorem slashed_append (xs ys : List String) : slashed (xs ++ ys) = slashed xs ++ slashed ys :=
  List.flatMap_append

theorem toList_pathText (xs : List String) : (Path.segments xs).text.toList = slashed xs := by
  rw [Path.text]
  simp [slashed, List.flatMap, Function.comp_def]

theorem mem_slashed {xs : List String} {c : Char} (h : c ∈ slashed xs) :
    c = '/' ∨ ∃ x ∈ xs, c ∈ x.toList := by
  obtain ⟨x, hx, hc⟩ := List.mem_flatMap.1 h
  exact (List.mem_cons.1 hc).imp_right fun hc => ⟨x, hx, hc⟩

theorem pieces_slashed {x : String} {xs : List String} (h : ∀ y ∈ x :: xs, '/' ∉ y.toList) :
    Text.pieces '/' (x.toList ++ slashed xs) = (x :: xs).map String.toList := by
  induction xs generalizing x with
  | nil =>
    rw [slashed, List.flatMap_nil, List.append_nil,
      Text.pieces_eq_singleton (h x List.mem_cons_self)]
    rfl
  | cons y ys ih =>
    obtain ⟨hx, hys⟩ := List.forall_mem_cons.1 h
    rw [slashed_cons, Text.pieces_append hx, ih hys]
    rfl

theorem hostPath_slashed {xs : List String} (h : IsPath xs) :
    hostPath true (slashed xs) = .segments xs := by
  obtain ⟨x, ys, rfl⟩ := List.exists_cons_of_ne_nil h.ne
  have hslashes : (x.toList ++ slashed ys).map (fun c => if c = '\\' then '/' else c) =
      x.toList ++ slashed ys := by
    refine (List.map_congr_left fun c hc => if_neg ?_).trans (List.map_id _)
    rintro rfl
    rcases List.mem_append.1 hc with hc | hc
    · exact (h.segment x List.mem_cons_self).backslash hc
    · rcases mem_slashed hc with hc | ⟨y, hy, hc⟩
      · cases hc
      · exact (h.segment y (List.mem_cons_of_mem x hy)).backslash hc
  have hsegments : ∀ p ∈ (x :: ys).map String.toList, IsSegment p := by
    intro p hp
    obtain ⟨y, hy, rfl⟩ := List.mem_map.1 hp
    exact h.segment y hy
  rw [slashed_cons, hostPath, if_pos (by decide), segments, if_pos rfl, hslashes,
    pieces_slashed fun y hy => (h.segment y hy).slash, resolve_of_isSegment hsegments]
  simp

theorem dropTrailing_append_of_ne {front : List Char} (h : ∀ c ∈ front.getLast?, c ≠ '/')
    (cs : List Char) :
    Text.dropTrailing '/' (front ++ cs) = front ++ Text.dropTrailing '/' cs := by
  have hfront : front.reverse.dropWhile (· == '/') = front.reverse :=
    Text.dropWhile_eq_self fun c hc =>
      beq_eq_false_iff_ne.2 (h c (by rwa [List.head?_reverse] at hc))
  rw [Text.dropTrailing, Text.dropTrailing, List.reverse_append, List.dropWhile_append]
  split
  · rename_i hnil
    rw [hfront, List.isEmpty_iff.1 hnil, List.reverse_reverse]
    exact (List.append_nil front).symm
  · rw [List.reverse_append, List.reverse_reverse]

theorem dropTrailing_concat (cs : List Char) :
    Text.dropTrailing '/' (cs ++ ['/']) = Text.dropTrailing '/' cs := by
  rw [Text.dropTrailing, List.reverse_concat, List.dropWhile_cons, if_pos (by decide)]
  rfl

theorem exists_dropTrailing_slashed {xs : List String} (h : ∀ x ∈ xs, '/' ∉ x.toList) :
    ∃ ys, ys <+: xs ∧ Text.dropTrailing '/' (slashed xs) = slashed ys := by
  induction xs using List.reverseRecOn with
  | nil => exact ⟨[], List.nil_prefix, rfl⟩
  | append_singleton xs x ih =>
    have htext : slashed (xs ++ [x]) = slashed xs ++ ['/'] ++ x.toList := by simp [slashed]
    by_cases hx : x.toList = []
    · obtain ⟨ys, hys, hdropped⟩ := ih fun y hy => h y (List.mem_append_left _ hy)
      refine ⟨ys, hys.trans (List.prefix_append xs [x]), ?_⟩
      rw [htext, hx, List.append_nil, dropTrailing_concat, hdropped]
    · refine ⟨xs ++ [x], List.prefix_rfl, ?_⟩
      have hlast : ∀ c ∈ (slashed (xs ++ [x])).getLast?, c ≠ '/' := by
        intro c hc
        rw [htext, List.getLast?_append, List.getLast?_eq_some_getLast hx, Option.some_or] at hc
        cases hc
        exact ne_of_mem_of_not_mem (List.getLast_mem hx)
          (h x (List.mem_append_right xs List.mem_cons_self))
      have hkept := dropTrailing_append_of_ne hlast []
      rw [List.append_nil] at hkept
      exact hkept.trans (List.append_nil _)

end EidMap.Url
