import EidMap.Proofs.Table.Freshness

/-!
# The open panel of a table

A toggle closes every panel of the table but the one it is about, the rows of a load come closed, and
no other step touches a panel. So a table never has more than one panel open, whatever happened to it.
-/

namespace EidMap

namespace Row

variable {α : Type}

theorem isOpen_closed (r : Row α) (p : Panel) : r.closed.isOpen p = false := by
  cases p <;> rfl

theorem isOpen_only (r : Row α) (p q : Panel) (shown : Bool) :
    (r.only p shown).isOpen q = true ↔ q = p ∧ shown = true := by
  cases p <;> cases q <;> simp [only, isOpen]

end Row

namespace Table

variable {α : Type} {t u : Table α} {i j : Nat} {p q : Panel}

def IsOpen (t : Table α) (i : Nat) (p : Panel) : Prop :=
  ∃ r, t.rows[i]? = some r ∧ r.isOpen p = true

def OnePanel (t : Table α) : Prop :=
  ∀ i j p q, t.IsOpen i p → t.IsOpen j q → i = j ∧ p = q

theorem isOpen_congr (h : u.rows = t.rows) : u.IsOpen i p ↔ t.IsOpen i p := by
  rw [IsOpen, IsOpen, h]

theorem toggle_of_row {r : Row α} (h : t.rows[i]? = some r) (p : Panel) :
    t.toggle i p =
      ({ t with rows := (t.rows.map Row.closed).set i (r.only p (!r.isOpen p)) }, true) := by
  rw [toggle]
  simp only [h]

theorem toggle_of_le (h : t.rows.length ≤ i) (p : Panel) : t.toggle i p = (t, false) := by
  rw [toggle]
  simp only [List.getElem?_eq_none h]

theorem toggle_of_lt (h : i < t.rows.length) (p : Panel) :
    t.toggle i p = ({ t with rows := (t.toggle i p).1.rows }, true) := by
  rw [toggle_of_row (List.getElem?_eq_getElem h)]

theorem isOpen_toggle (h : i < t.rows.length) :
    (t.toggle i p).1.IsOpen j q ↔ (j = i ∧ q = p) ∧ ¬t.IsOpen i p := by
  have hr : t.rows[i]? = some t.rows[i] := List.getElem?_eq_getElem h
  have hprior : t.IsOpen i p ↔ t.rows[i].isOpen p = true := by
    simp [IsOpen, hr]
  rw [toggle_of_row hr, hprior]
  by_cases hj : j = i
  · subst hj
    have hlength : j < (t.rows.map Row.closed).length := by rwa [List.length_map]
    simp [IsOpen, List.getElem?_set_self hlength, Row.isOpen_only]
  · simp only [hj, false_and, iff_false]
    rintro ⟨r, hget, hopen⟩
    rw [List.getElem?_set_ne (Ne.symm hj), List.getElem?_map] at hget
    obtain ⟨r', -, rfl⟩ := Option.map_eq_some_iff.1 hget
    rw [r'.isOpen_closed] at hopen
    cases hopen

theorem not_isOpen_finishLoad {n : Nat} {xs : List α}
    (applied : (t.step (.finishLoad n (.ok xs))).reply = .applied true) :
    ¬(t.step (.finishLoad n (.ok xs))).table.IsOpen i p := by
  by_cases hn : t.generation = n
  · have hrows : (t.step (.finishLoad n (.ok xs))).table.rows =
        xs.map fun a => ⟨a, false, false⟩ := by
      simp [step, finishLoad, hn]
    rintro ⟨r, hget, hopen⟩
    rw [hrows, List.getElem?_map] at hget
    obtain ⟨a, -, rfl⟩ := Option.map_eq_some_iff.1 hget
    cases p <;> cases hopen
  · rw [step_finishLoad_of_ne hn] at applied
    cases applied

theorem rows_step {e : Event α} (toggle : ∀ i p, e ≠ .toggle i p)
    (load : ∀ xs, e ≠ .finishLoad t.generation (.ok xs)) : (t.step e).table.rows = t.rows := by
  cases e with
  | beginLoad => rfl
  | finishLoad n result =>
    by_cases hn : t.generation = n
    · subst hn
      cases result with
      | ok xs => exact absurd rfl (load xs)
      | error message => simp [step, finishLoad]
    · rw [step_finishLoad_of_ne hn]
  | toggle i p => exact absurd rfl (toggle i p)
  | record operation outcome => cases outcome <;> rfl

theorem loadedAt_step (e : Event α) :
    (t.step e).table.loadedAt = t.loadedAt ∨
      (∃ xs, e = .finishLoad t.generation (.ok xs)) ∧
        (t.step e).table.loadedAt = some t.clock.now := by
  cases e with
  | beginLoad => exact .inl rfl
  | finishLoad n result =>
    by_cases hn : t.generation = n
    · subst hn
      cases result with
      | ok xs => exact .inr ⟨⟨xs, rfl⟩, by simp [step, finishLoad]⟩
      | error message => exact .inl (by simp [step, finishLoad])
    · rw [step_finishLoad_of_ne hn]
      exact .inl rfl
  | toggle i p =>
    by_cases hi : i < t.rows.length
    · rw [step, toggle_of_lt hi]
      exact .inl rfl
    · rw [step, toggle_of_le (Nat.le_of_not_lt hi)]
      exact .inl rfl
  | record operation outcome => cases outcome <;> exact .inl rfl

theorem OnePanel.congr (h : t.OnePanel) (rows : u.rows = t.rows) : u.OnePanel :=
  fun i j p q hi hj => h i j p q ((isOpen_congr rows).1 hi) ((isOpen_congr rows).1 hj)

theorem OnePanel.toggle (h : t.OnePanel) (i : Nat) (p : Panel) : (t.toggle i p).1.OnePanel := by
  by_cases hi : i < t.rows.length
  · intro j k q q' hj hk
    obtain ⟨⟨rfl, rfl⟩, -⟩ := (isOpen_toggle hi).1 hj
    obtain ⟨⟨rfl, rfl⟩, -⟩ := (isOpen_toggle hi).1 hk
    exact ⟨rfl, rfl⟩
  · rw [toggle_of_le (Nat.le_of_not_lt hi)]
    exact h

theorem OnePanel.step (h : t.OnePanel) (e : Event α) : (t.step e).table.OnePanel := by
  cases e with
  | beginLoad => exact h.congr (rows_step (by simp) (by simp))
  | finishLoad n result =>
    cases result with
    | ok xs =>
      by_cases hn : t.generation = n
      · have happlied : (t.step (.finishLoad n (.ok xs))).reply = .applied true := by
          simp [Table.step, finishLoad, hn]
        exact fun i j p q hi _ => absurd hi (not_isOpen_finishLoad happlied)
      · rw [step_finishLoad_of_ne hn]
        exact h
    | error message => exact h.congr (rows_step (by simp) (by simp))
  | toggle i p => exact h.toggle i p
  | record operation outcome => exact h.congr (rows_step (by simp) (by simp))

theorem onePanel_new (name : String) (clock : Clock) : (new name clock : Table α).OnePanel := by
  rintro i j p q ⟨r, hget, -⟩
  cases hget

theorem OnePanel.run (h : t.OnePanel) (es : List (Event α)) : (run t es).OnePanel := by
  induction es generalizing t with
  | nil => exact h
  | cons e es ih => exact ih (h.step e)

/-- After every run of a new table, whatever its clock shows, at most one panel is open. A toggle of a
row flips its panel, closes all others and changes nothing else, the load time and the time of the
banner included; one beside the rows has no effect, and nobody is told of it. A load that is applied
leaves all panels closed, and no other step changes any row. -/
theorem one_panel_open (name : String) (clock : Clock) (es : List (Event α)) :
    let t := run (new name clock) es
    (∀ i j p q, t.IsOpen i p → t.IsOpen j q → i = j ∧ p = q) ∧
      (∀ i p, (t.step (.toggle i p)).reply = .applied (decide (i < t.rows.length))) ∧
      (∀ i p, i < t.rows.length →
        ((t.step (.toggle i p)).table.IsOpen i p ↔ ¬t.IsOpen i p) ∧
        (∀ j q, (j, q) ≠ (i, p) → ¬(t.step (.toggle i p)).table.IsOpen j q) ∧
        (t.step (.toggle i p)).table.items = t.items ∧
        (t.step (.toggle i p)).table = { t with rows := (t.step (.toggle i p)).table.rows }) ∧
      (∀ i p, ¬i < t.rows.length → t.step (.toggle i p) = ⟨t, .applied false, false⟩) ∧
      (∀ n xs, (t.step (.finishLoad n (.ok xs))).reply = .applied true →
        ∀ i p, ¬(t.step (.finishLoad n (.ok xs))).table.IsOpen i p) ∧
      (∀ e : Event α, (∀ i p, e ≠ .toggle i p) →
        (∀ n xs, e = .finishLoad n (.ok xs) → (t.step e).reply = .applied false) →
        (t.step e).table.rows = t.rows) ∧
      ∀ e : Event α, (t.step e).table.loadedAt = t.loadedAt ∨
        (∃ xs, e = .finishLoad t.generation (.ok xs)) ∧
          (t.step e).table.loadedAt = some t.clock.now := by
  intro t
  refine ⟨(onePanel_new name clock).run es, fun i p => ?_, fun i p hi => ?_, fun i p hi => ?_,
    fun n xs happlied i p => not_isOpen_finishLoad happlied, fun e htoggle hload => ?_,
    loadedAt_step⟩
  · by_cases hi : i < t.rows.length
    · rw [step, toggle_of_lt hi, decide_eq_true hi]
    · rw [step, toggle_of_le (Nat.le_of_not_lt hi), decide_eq_false hi]
  · refine ⟨?_, fun j q hne hopen => ?_, items_toggle t i p,
      congrArg Prod.fst (toggle_of_lt hi p)⟩
    · rw [step, isOpen_toggle hi]
      simp
    · obtain ⟨⟨rfl, rfl⟩, -⟩ := (isOpen_toggle hi).1 hopen
      exact hne rfl
  · rw [step, toggle_of_le (Nat.le_of_not_lt hi)]
  · refine rows_step htoggle fun xs he => ?_
    have hreply := hload t.generation xs he
    rw [he] at hreply
    simp [step, finishLoad] at hreply

/-- The detail of the first row closes when the second row is about to be deleted. -/
theorem other_panel_closed :
    let t : Table String := run (new "keys")
      [.beginLoad, .finishLoad 1 (.ok ["a", "b"]), .toggle 0 .detail]
    t.IsOpen 0 .detail ∧ (t.step (.toggle 1 .delete)).table.IsOpen 1 .delete ∧
      ¬(t.step (.toggle 1 .delete)).table.IsOpen 0 .detail := by
  intro t
  obtain ⟨hone, -, htoggle, -⟩ := one_panel_open "keys" .stopped
    ([.beginLoad, .finishLoad 1 (.ok ["a", "b"]), .toggle 0 .detail] : List (Event String))
  obtain ⟨hflip, hothers, -⟩ := htoggle 1 .delete (by decide)
  have hopen : t.IsOpen 0 .detail := ⟨⟨"a", true, false⟩, rfl, rfl⟩
  refine ⟨hopen, hflip.2 fun hdelete => ?_, hothers 0 .detail (by decide)⟩
  cases (hone 0 1 .detail .delete hopen hdelete).1

end Table

end EidMap
