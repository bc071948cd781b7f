import EidMap.Proofs.Service.Trace

/-!
# The tables of a session

What a call does to its table is a list of changes, so what a whole session makes of the two tables
follows call by call. The rows are those of the last database that was fetched for the table; an error
stays on the banner until a load or an operation of the table succeeds; and a call moves no table but the
one that it is about.
-/

namespace EidMap.Service

def fetchedBy (s : Service) (c : Call) (t : Topic) : List Stored.Database :=
  if c.topic? = some t then s.network.databases (s.perform c).2.network else []

/-- The databases that were fetched for a table in a session, the last one at the end. -/
def fetched (s : Service) (t : Topic) : List Call → List Stored.Database
  | [] => []
  | c :: cs => s.fetchedBy c t ++ (s.perform c).2.fetched t cs

variable {s : Service} {c : Call} {t : Topic}

theorem fetchedBy_of_ne (h : c.topic? ≠ some t) : s.fetchedBy c t = [] := if_neg h

theorem Traced.fetchedBy {cs : List (Table.Change t.Row)} (h : Traced s c t cs (s.perform c))
    (hc : c.topic? = some t) :
    cs.filterMap Table.Change.brought? = (s.fetchedBy c t).map t.shelf.rows := by
  rw [Service.fetchedBy, if_pos hc]
  exact h.does.brought

theorem run_cons (s : Service) (c : Call) (cs : List Call) :
    s.run (c :: cs) = (s.perform c).2.run cs := rfl

theorem items_perform (s : Service) (c : Call) (t : Topic) :
    (t.shelf.get (s.perform c).2).items =
      (s.fetchedBy c t).getLast?.elim (t.shelf.get s).items t.shelf.rows := by
  by_cases hc : c.topic? = some t
  · obtain ⟨cs, htraced⟩ := exists_traced s hc
    rw [htraced.does.get, Table.items_changed, htraced.fetchedBy hc, List.getLast?_map]
    cases (s.fetchedBy c t).getLast? <;> rfl
  · rw [get_perform_of_ne s hc, fetchedBy_of_ne hc]
    rfl

theorem items_run (s : Service) (t : Topic) (cs : List Call) :
    (t.shelf.get (s.run cs)).items =
      (s.fetched t cs).getLast?.elim (t.shelf.get s).items t.shelf.rows := by
  induction cs generalizing s with
  | nil => rfl
  | cons c cs ih =>
    rw [run_cons, ih, items_perform, fetched, List.getLast?_append]
    cases ((s.perform c).2.fetched t cs).getLast? <;> rfl

theorem rows_perform (s : Service) (t : Topic) (h : c.isToggle = false) :
    (t.shelf.get (s.perform c).2).rows =
      (s.fetchedBy c t).getLast?.elim (t.shelf.get s).rows
        fun d => (t.shelf.rows d).map fun a => ⟨a, false, false⟩ := by
  by_cases hc : c.topic? = some t
  · obtain ⟨cs, htraced⟩ := exists_traced s hc
    rw [htraced.does.get, Table.rows_changed _ (htraced.steady h), htraced.fetchedBy hc,
      List.getLast?_map]
    cases (s.fetchedBy c t).getLast? <;> rfl
  · rw [get_perform_of_ne s hc, fetchedBy_of_ne hc]
    rfl

theorem isToggle_of_error {e : ServiceError} (h : (s.perform c).1 = .error e) :
    c.isToggle = false := by
  cases c with
  | toggle t index p =>
    rw [perform_toggle] at h
    cases h
  | connect | refresh | lookup | delete | execute => rfl

/-- After any session the items of each table are the entries of the last database that was fetched
for it, network by network in the order of the document, and a table for which none was fetched is
empty. A call that fails leaves the rows as they were, or those of the last database that it fetched
before it failed. -/
theorem items_are_last_fetched (settings : Settings) (files : Files) (network : Rpc.Network)
    (clocks : Clock × Clock) (cs : List Call) :
    let start := new settings files network clocks
    let s := start.run cs
    s.mappings.items = (start.fetched .mappings cs).getLast?.elim []
        (fun d => d.networks.flatMap fun n => n.mappings.map (Mapping.ofStored n.vni)) ∧
      s.keys.items = (start.fetched .keys cs).getLast?.elim []
        (fun d => d.networks.flatMap fun n => n.keys.map (KeyEntry.ofStored n.vni)) ∧
      ∀ (c : Call) (e : ServiceError), (s.perform c).1 = .error e → ∀ t : Topic,
        (t.shelf.get (s.perform c).2).rows = (s.fetchedBy c t).getLast?.elim (t.shelf.get s).rows
          fun d => (t.shelf.rows d).map fun a => ⟨a, false, false⟩ := by
  intro start s
  refine ⟨items_run start .mappings cs, items_run start .keys cs, fun c e he t => ?_⟩
  exact rows_perform s t (isToggle_of_error he)

theorem status_perform_ne_loading (h : (t.shelf.get s).status ≠ .loading) (c : Call) :
    (t.shelf.get (s.perform c).2).status ≠ .loading := by
  by_cases hc : c.topic? = some t
  · obtain ⟨cs, htraced⟩ := exists_traced s hc
    rw [htraced.does.get]
    exact Table.status_changed_ne_loading h cs
  · rwa [get_perform_of_ne s hc]

theorem status_run_ne_loading (h : (t.shelf.get s).status ≠ .loading) (cs : List Call) :
    (t.shelf.get (s.run cs)).status ≠ .loading := by
  induction cs generalizing s with
  | nil => exact h
  | cons c cs ih => exact ih (status_perform_ne_loading h c)

theorem status_new_ne_loading (settings : Settings) (files : Files) (network : Rpc.Network)
    (clocks : Clock × Clock) :
    (t.shelf.get (new settings files network clocks)).status ≠ .loading := by
  cases t <;> exact Status.noConfusion

theorem cleared_perform (herror : (t.shelf.get s).status.isError = true)
    (hcleared : (t.shelf.get (s.perform c).2).status.isError = false) :
    c.topic? = some t ∧
      ((t.shelf.get (s.perform c).2).status = .loaded ∧ s.fetchedBy c t ≠ [] ∨
        ∃ op a, c.operation? = some op ∧ (s.perform c).1 = .ok a ∧
          (t.shelf.get (s.perform c).2).status = .operationSucceeded op.name) := by
  have hc : c.topic? = some t := by
    by_contra hne
    rw [get_perform_of_ne s hne, herror] at hcleared
    cases hcleared
  refine ⟨hc, ?_⟩
  obtain ⟨changes, htraced⟩ := exists_traced s hc
  have hsettled := Table.settled_changed herror changes
  rw [← htraced.does.get] at hsettled
  generalize (t.shelf.get (s.perform c).2).status = status at hsettled hcleared ⊢
  cases hsettled with
  | error h =>
    rw [h] at hcleared
    cases hcleared
  | loaded h =>
    refine .inl ⟨rfl, fun hnone => h ?_⟩
    rw [htraced.fetchedBy hc, hnone]
    rfl
  | succeeded h =>
    obtain ⟨op, a, hop, rfl, ha⟩ := htraced.noted _ h
    exact .inr ⟨op, a, hop, ha, rfl⟩

/-- After any call of a session no banner tells of a load that goes on. A call that takes an error off
the banner of a table is about this table, and either has loaded it or has done its operation, which
the banner then tells. -/
theorem error_stays_until_success (settings : Settings) (files : Files) (network : Rpc.Network)
    (clocks : Clock × Clock) (cs : List Call) (c : Call) (t : Topic) :
    let s := (new settings files network clocks).run cs
    let before := (t.shelf.get s).status
    let after := (t.shelf.get (s.perform c).2).status
    after ≠ .loading ∧
      (before.isError = true → after.isError = false →
        c.topic? = some t ∧
          (after = .loaded ∧ s.fetchedBy c t ≠ [] ∨
            ∃ op a, c.operation? = some op ∧ (s.perform c).1 = .ok a ∧
              after = .operationSucceeded op.name)) := by
  intro s before after
  have hbefore : before ≠ .loading :=
    status_run_ne_loading (status_new_ne_loading settings files network clocks) cs
  exact ⟨status_perform_ne_loading hbefore c, cleared_perform⟩

/-- A call leaves a table that it is not about as it is, and the generation of a table grows by the
loads that the call has begun on it. -/
theorem tables_independent (s : Service) (c : Call) (t : Topic) :
    (c.topic? ≠ some t → t.shelf.get (s.perform c).2 = t.shelf.get s) ∧
      (t.shelf.get (s.perform c).2).generation = (t.shelf.get s).generation +
        if c.topic? = some t then c.loads (s.perform c).1 else 0 := by
  refine ⟨get_perform_of_ne s, ?_⟩
  by_cases hc : c.topic? = some t
  · obtain ⟨cs, htraced⟩ := exists_traced s hc
    rw [if_pos hc, htraced.does.get, Table.generation_changed, htraced.loads]
  · rw [if_neg hc, get_perform_of_ne s hc]
    rfl

end EidMap.Service
