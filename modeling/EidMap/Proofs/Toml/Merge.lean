import EidMap.Toml.Basic

/-!
# Settings laid over each other

A tree keeps every name it had when another one is laid over it. Entries under new names come to
stand behind the old ones, and an empty table changes nothing.
-/

namespace EidMap.Toml

theorem lookup_put (k name : String) (v : Toml) (es : List (String × Toml)) :
    lookup k (put name v es) = if name = k then some v else lookup k es := by
  induction es with
  | nil => rfl
  | cons e es ih =>
    obtain ⟨j, u⟩ := e
    rw [put]
    split
    · subst j
      rw [lookup, lookup]
      split <;> rfl
    · rename_i hj
      rw [lookup, lookup, ih]
      split
      · subst j
        rw [if_neg (Ne.symm hj)]
      · rfl

theorem lookup_eq_none {k : String} {es : List (String × Toml)} (h : k ∉ es.map Prod.fst) :
    lookup k es = none := by
  induction es with
  | nil => rfl
  | cons e es ih =>
    simp only [List.map_cons, List.mem_cons, not_or] at h
    rw [lookup, if_neg (Ne.symm h.1), ih h.2]

theorem put_fresh {k : String} {es : List (String × Toml)} (h : k ∉ es.map Prod.fst) (v : Toml) :
    put k v es = es ++ [(k, v)] := by
  induction es with
  | nil => rfl
  | cons e es ih =>
    simp only [List.map_cons, List.mem_cons, not_or] at h
    rw [put, if_neg (Ne.symm h.1), ih h.2, List.cons_append]

theorem isSome_lookup_mergeEntries {k : String} {old : List (String × Toml)}
    (h : (lookup k old).isSome) (new : List (String × Toml)) :
    (lookup k (mergeEntries old new)).isSome := by
  induction new generalizing old with
  | nil => exact h
  | cons e new ih =>
    rw [mergeEntries]
    refine ih ?_
    rw [lookup_put]
    split
    · rfl
    · exact h

theorem mergeEntries_fresh {old new : List (String × Toml)}
    (distinct : (old.map Prod.fst ++ new.map Prod.fst).Nodup) :
    mergeEntries old new = old ++ new := by
  induction new generalizing old with
  | nil => rw [mergeEntries, List.append_nil]
  | cons e new ih =>
    obtain ⟨k, v⟩ := e
    have fresh : k ∉ old.map Prod.fst := fun hk =>
      (List.nodup_append.1 distinct).2.2 k hk k (by simp) rfl
    rw [mergeEntries, lookup_eq_none fresh, put_fresh fresh]
    simp only
    rw [ih (by simpa using distinct), List.append_assoc, List.singleton_append]

theorem merge_empty (es : List (String × Toml)) : (table es).merge (.table []) = .table es := by
  simp only [merge, mergeEntries, entries?, Option.getD_some]

end EidMap.Toml
