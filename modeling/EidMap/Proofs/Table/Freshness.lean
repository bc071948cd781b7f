import EidMap.Table.View

/-!
# Overlapping loads of a table

The tickets that loads draw are told from the replies of a run, and so is the load begun last at any
moment. A run in which only tickets are used that were drawn shows the last result that arrived for
the load begun last, in whatever order the loads finish.
-/

namespace EidMap.Table

variable {α : Type}

@[simp]
theorem run_nil (t : Table α) : run t [] = t := rfl

@[simp]
theorem run_cons (t : Table α) (e : Event α) (es : List (Event α)) :
    run t (e :: es) = run (t.step e).table es := rfl

theorem run_append (t : Table α) (es fs : List (Event α)) :
    run t (es ++ fs) = run (run t es) fs := by
  rw [run, run, run, List.foldl_append]

@[simp]
theorem status_told (t : Table α) (status : Status) : (t.told status).status = status := rfl

@[simp]
theorem rows_told (t : Table α) (status : Status) : (t.told status).rows = t.rows := rfl

@[simp]
theorem generation_told (t : Table α) (status : Status) :
    (t.told status).generation = t.generation := rfl

@[simp]
theorem loadedAt_told (t : Table α) (status : Status) : (t.told status).loadedAt = t.loadedAt := rfl

def Reply.ticket? : Reply → Option Nat
  | .ticket n => some n
  | _ => none

def tickets (t : Table α) : List (Event α) → List Nat
  | [] => []
  | e :: es => (t.step e).reply.ticket?.toList ++ tickets (t.step e).table es

/-- The ticket of the load begun last. -/
def latest? (t : Table α) (es : List (Event α)) : Option Nat := (tickets t es).getLast?

/-- The items that an event brings if it ends the load begun last. -/
def arrival? (t : Table α) (past : List (Event α)) : Event α → Option (List α)
  | .finishLoad n (.ok xs) => if latest? t past = some n then some xs else none
  | _ => none

def arrivals (t : Table α) (past : List (Event α)) : List (Event α) → List (List α)
  | [] => []
  | e :: es => (arrival? t past e).toList ++ arrivals t (past ++ [e]) es

/-- Every load that finishes was begun before. -/
def Issued (t : Table α) (es : List (Event α)) : Prop :=
  ∀ pre n r post, es = pre ++ .finishLoad n r :: post → n ∈ tickets t pre

theorem tickets_append (t : Table α) (es fs : List (Event α)) :
    tickets t (es ++ fs) = tickets t es ++ tickets (run t es) fs := by
  induction es generalizing t with
  | nil => rfl
  | cons e es ih =>
    rw [List.cons_append, tickets, tickets, ih, run_cons, List.append_assoc]

theorem tickets_snoc (t : Table α) (es : List (Event α)) (e : Event α) :
    tickets t (es ++ [e]) = tickets t es ++ ((run t es).step e).reply.ticket?.toList := by
  rw [tickets_append, tickets, tickets, List.append_nil]

theorem arrivals_append (t : Table α) (past es fs : List (Event α)) :
    arrivals t past (es ++ fs) = arrivals t past es ++ arrivals t (past ++ es) fs := by
  induction es generalizing past with
  | nil => rw [List.append_nil]; rfl
  | cons e es ih =>
    rw [List.cons_append, arrivals, arrivals, ih, List.append_assoc, List.append_assoc]
    rfl

theorem arrivals_snoc (t : Table α) (es : List (Event α)) (e : Event α) :
    arrivals t [] (es ++ [e]) = arrivals t [] es ++ (arrival? t es e).toList := by
  rw [arrivals_append, arrivals, arrivals, List.append_nil, List.nil_append]

theorem Issued.left {t : Table α} {es fs : List (Event α)} (h : Issued t (es ++ fs)) :
    Issued t es := by
  intro pre n r post he
  exact h pre n r (post ++ fs) (by rw [he, List.append_assoc, List.cons_append])

theorem step_finishLoad_of_ne {t : Table α} {n : Nat} (h : t.generation ≠ n)
    (r : Except String (List α)) : t.step (.finishLoad n r) = ⟨t, .applied false, false⟩ := by
  have hf : t.finishLoad n r = (t, false) := if_pos h
  rw [step, hf]

theorem items_finishLoad (t : Table α) (xs : List α) :
    (t.finishLoad t.generation (.ok xs)).1.items = xs := by
  have hid : (Row.item ∘ fun a : α => (⟨a, false, false⟩ : Row α)) = id := rfl
  rw [finishLoad, if_neg (fun h => h rfl), items, List.map_map, hid, List.map_id]

theorem items_toggle (t : Table α) (i : Nat) (p : Panel) : (t.toggle i p).1.items = t.items := by
  unfold toggle
  split
  · rfl
  · rename_i r hr
    have hclosed : (t.rows.map Row.closed).map Row.item = t.items := by
      rw [List.map_map]
      rfl
    have honly : (r.only p (!r.isOpen p)).item = r.item := by cases p <;> rfl
    have hi : i < t.items.length := by
      rw [items, List.length_map]
      exact (List.getElem?_eq_some_iff.1 hr).1
    have hitem : r.item = t.items[i] := by
      obtain ⟨_, hr⟩ := List.getElem?_eq_some_iff.1 hr
      simp [items, hr]
    rw [items, List.map_set, hclosed, honly, hitem, List.set_getElem_self]

theorem generation_toggle (t : Table α) (i : Nat) (p : Panel) :
    (t.toggle i p).1.generation = t.generation := by
  unfold toggle
  split <;> rfl

/-- A step begins a load, shows what the load begun last brought, or leaves counter and items
alone. -/
theorem step_cases (t : Table α) (e : Event α) :
    (e = .beginLoad ∧ (t.step e).reply = .ticket (t.generation + 1) ∧
      (t.step e).table.generation = t.generation + 1 ∧ (t.step e).table.items = t.items) ∨
    (∃ xs, e = .finishLoad t.generation (.ok xs) ∧ (t.step e).reply.ticket? = none ∧
      (t.step e).table.generation = t.generation ∧ (t.step e).table.items = xs) ∨
    (e ≠ .beginLoad ∧ (∀ xs, e ≠ .finishLoad t.generation (.ok xs)) ∧
      (t.step e).reply.ticket? = none ∧ (t.step e).table.generation = t.generation ∧
      (t.step e).table.items = t.items) := by
  cases e with
  | beginLoad => exact .inl ⟨rfl, rfl, rfl, rfl⟩
  | finishLoad n r =>
    by_cases hn : t.generation = n
    · subst hn
      cases r with
      | ok xs =>
        have hg : (t.finishLoad t.generation (.ok xs)).1.generation = t.generation := by
          rw [finishLoad, if_neg (fun h => h rfl)]
          rfl
        exact .inr (.inl ⟨xs, rfl, rfl, hg, items_finishLoad t xs⟩)
      | error message =>
        have hf : t.finishLoad t.generation (.error message) =
            (t.told (.loadError message), true) := by
          rw [finishLoad, if_neg (fun h => h rfl)]
        rw [step, hf]
        exact .inr (.inr ⟨nofun, nofun, rfl, rfl, rfl⟩)
    · rw [step_finishLoad_of_ne hn]
      refine .inr (.inr ⟨nofun, fun xs he => ?_, rfl, rfl, rfl⟩)
      cases he
      exact hn rfl
  | toggle i p =>
    exact .inr (.inr ⟨nofun, nofun, rfl, generation_toggle t i p, items_toggle t i p⟩)
  | record operation outcome =>
    cases outcome <;> exact .inr (.inr ⟨nofun, nofun, rfl, rfl, rfl⟩)

/-- What holds after every run from `t`: the tickets are counted from one, and the items shown are
the last that arrived in time. -/
structure Tracks (t : Table α) (past : List (Event α)) : Prop where
  issued : tickets t past = List.range' 1 (run t past).generation
  shown : (run t past).items = (arrivals t [] past).getLast?.getD []

theorem tracks_new (name : String) (clock : Clock) : Tracks (new name clock : Table α) [] where
  issued := rfl
  shown := rfl

theorem Tracks.latest_eq {t : Table α} {past : List (Event α)} (h : Tracks t past) :
    latest? t past =
      if (run t past).generation = 0 then none else some (run t past).generation := by
  rw [latest?, h.issued, List.getLast?_range']
  split
  · rfl
  · congr 1
    omega

theorem Tracks.latest_eq_some {t : Table α} {past : List (Event α)} (h : Tracks t past) {n : Nat}
    (hn : n ∈ tickets t past) : latest? t past = some n ↔ (run t past).generation = n := by
  have hpos : 1 ≤ n := by
    rw [h.issued, List.mem_range'_1] at hn
    exact hn.1
  rw [h.latest_eq]
  split
  · rename_i h0
    rw [h0]
    constructor
    · nofun
    · intro h0n
      omega
  · simp

theorem Tracks.snoc {t : Table α} {past : List (Event α)} (h : Tracks t past) {e : Event α}
    (he : ∀ n r, e = .finishLoad n r → n ∈ tickets t past) : Tracks t (past ++ [e]) := by
  have hrun : run t (past ++ [e]) = ((run t past).step e).table := by
    rw [run_append, run_cons, run_nil]
  rcases step_cases (run t past) e with ⟨rfl, hr, hg, hi⟩ | ⟨xs, rfl, hr, hg, hi⟩ |
    ⟨hb, hf, hr, hg, hi⟩
  · refine ⟨?_, ?_⟩
    · rw [tickets_snoc, hr, hrun, hg, h.issued, List.range'_1_concat, Nat.add_comm 1]
      rfl
    · have hnone : arrival? t past .beginLoad = none := rfl
      rw [arrivals_snoc, hrun, hi, h.shown, hnone]
      simp
  · refine ⟨?_, ?_⟩
    · rw [tickets_snoc, hr, hrun, hg, h.issued]
      simp
    · have hl := (h.latest_eq_some (he _ _ rfl)).2 rfl
      rw [arrivals_snoc, hrun, hi, arrival?, if_pos hl]
      simp
  · refine ⟨?_, ?_⟩
    · rw [tickets_snoc, hr, hrun, hg, h.issued]
      simp
    · have hnone : arrival? t past e = none := by
        cases e with
        | finishLoad n r =>
          cases r with
          | ok xs =>
            have hl : latest? t past ≠ some n := by
              intro hl
              have hn := (h.latest_eq_some (he _ _ rfl)).1 hl
              exact hf xs (by rw [hn])
            rw [arrival?, if_neg hl]
          | error message => rfl
        | _ => rfl
      rw [arrivals_snoc, hrun, hi, h.shown, hnone]
      simp

theorem Tracks.extend {t : Table α} {past : List (Event α)} (h : Tracks t past)
    (es : List (Event α)) (issued : Issued t (past ++ es)) : Tracks t (past ++ es) := by
  induction es generalizing past with
  | nil => rwa [List.append_nil]
  | cons e es ih =>
    have he : ∀ n r, e = .finishLoad n r → n ∈ tickets t past := by
      intro n r hn
      exact issued past n r es (by rw [hn])
    have happ : past ++ e :: es = past ++ [e] ++ es := by
      rw [List.append_assoc, List.singleton_append]
    rw [happ] at issued ⊢
    exact ih (h.snoc he) issued

theorem Issued.tracks {name : String} {clock : Clock} {es : List (Event α)}
    (h : Issued (new name clock) es) : Tracks (new name clock) es :=
  (tracks_new name clock).extend es h

theorem generation_le_run (t : Table α) (es : List (Event α)) :
    t.generation ≤ (run t es).generation := by
  induction es generalizing t with
  | nil => exact Nat.le_refl _
  | cons e es ih =>
    have hes := ih (t.step e).table
    rw [run_cons]
    rcases step_cases t e with ⟨-, -, hg, -⟩ | ⟨-, -, -, hg, -⟩ | ⟨-, -, -, hg, -⟩ <;> omega

theorem generation_run_le (t : Table α) (es : List (Event α)) :
    (run t es).generation ≤ t.generation + es.length := by
  induction es generalizing t with
  | nil => exact Nat.le_refl _
  | cons e es ih =>
    have hes := ih (t.step e).table
    rw [run_cons, List.length_cons]
    rcases step_cases t e with ⟨-, -, hg, -⟩ | ⟨-, -, -, hg, -⟩ | ⟨-, -, -, hg, -⟩ <;> omega

theorem generation_run {t : Table α} {es : List (Event α)} (h : .beginLoad ∉ es) :
    (run t es).generation = t.generation := by
  induction es generalizing t with
  | nil => rfl
  | cons e es ih =>
    rw [List.mem_cons, not_or] at h
    rw [run_cons, ih h.2]
    rcases step_cases t e with ⟨rfl, -⟩ | ⟨-, -, -, hg, -⟩ | ⟨-, -, -, hg, -⟩
    · exact absurd rfl h.1
    · exact hg
    · exact hg

theorem items_run {t : Table α} {es : List (Event α)} (hb : .beginLoad ∉ es)
    (hf : ∀ r, .finishLoad t.generation r ∉ es) : (run t es).items = t.items := by
  induction es generalizing t with
  | nil => rfl
  | cons e es ih =>
    rw [List.mem_cons, not_or] at hb
    rcases step_cases t e with ⟨rfl, -⟩ | ⟨xs, rfl, -⟩ | ⟨-, -, -, hg, hi⟩
    · exact absurd rfl hb.1
    · exact absurd List.mem_cons_self (hf _)
    · have hes : ∀ r, .finishLoad (t.step e).table.generation r ∉ es := by
        intro r hr
        rw [hg] at hr
        exact hf r (List.mem_cons_of_mem _ hr)
      rw [run_cons, ih hb.2 hes, hi]

theorem Tracks.step_finishLoad {t : Table α} {past : List (Event α)} (h : Tracks t past) {n : Nat}
    (hn : n ∈ tickets t past) (hl : latest? t past ≠ some n) (r : Except String (List α)) :
    (run t past).step (.finishLoad n r) = ⟨run t past, .applied false, false⟩ :=
  step_finishLoad_of_ne (fun hg => hl ((h.latest_eq_some hn).2 hg)) r

theorem Tracks.reply_finishLoad {t : Table α} {past : List (Event α)} (h : Tracks t past) {n : Nat}
    (hn : n ∈ tickets t past) (r : Except String (List α)) :
    ((run t past).step (.finishLoad n r)).reply = .applied true ↔ latest? t past = some n := by
  constructor
  · intro hr
    refine Decidable.of_not_not fun hl => ?_
    rw [h.step_finishLoad hn hl] at hr
    cases hr
  · intro hl
    have hg := (h.latest_eq_some hn).1 hl
    subst hg
    cases r <;> simp [step, finishLoad]

theorem Tracks.step_overtaken {t : Table α} {pre mid : List (Event α)} (h : Tracks t pre) {n : Nat}
    (hn : n ∈ tickets t pre) (r : Except String (List α)) :
    (run t (pre ++ .beginLoad :: mid)).step (.finishLoad n r) =
      ⟨run t (pre ++ .beginLoad :: mid), .applied false, false⟩ := by
  refine step_finishLoad_of_ne ?_ r
  have hmid := generation_le_run ((run t pre).step .beginLoad).table mid
  have hbegin : ((run t pre).step .beginLoad).table.generation = (run t pre).generation + 1 := rfl
  rw [h.issued, List.mem_range'_1] at hn
  rw [run_append, run_cons]
  omega

theorem items_of_last_load {t : Table α} {mid rest : List (Event α)} {n : Nat} {xs : List α}
    (hn : (t.step .beginLoad).reply = .ticket n) (hb : .beginLoad ∉ mid ++ rest)
    (hf : ∀ r, .finishLoad n r ∉ mid ++ rest) :
    (run t (.beginLoad :: (mid ++ .finishLoad n (.ok xs) :: rest))).items = xs := by
  rw [List.mem_append, not_or] at hb
  have hgen : t.generation + 1 = n := by
    injection hn
  have hmid : (run (t.step .beginLoad).table mid).generation = n := by
    rw [generation_run hb.1]
    exact hgen
  rw [run_cons, run_append, run_cons]
  generalize run (t.step .beginLoad).table mid = u at hmid
  subst hmid
  have hu : (u.step (.finishLoad u.generation (.ok xs))).table.generation = u.generation := by
    simp [step, finishLoad]
  rw [items_run hb.2 (by
    intro r hr
    rw [hu] at hr
    exact hf r (List.mem_append_right _ hr))]
  exact items_finishLoad u xs

/-- In every run of a new table, the rows show what last arrived for the load begun last. No other
load that finishes has any effect. -/
theorem newest_load_shown (name : String) (clock : Clock) (es : List (Event α))
    (h : Issued (new name clock) es) :
    (run (new name clock) es).items = (arrivals (new name clock) [] es).getLast?.getD [] ∧
      (tickets (new name clock) es).Nodup ∧
      (∀ pre n r post, es = pre ++ .finishLoad n r :: post →
        (((run (new name clock) pre).step (.finishLoad n r)).reply = .applied true ↔
          latest? (new name clock) pre = some n) ∧
        (latest? (new name clock) pre ≠ some n → (run (new name clock) pre).step (.finishLoad n r) =
          ⟨run (new name clock) pre, .applied false, false⟩)) ∧
      (∀ pre mid n r post, es = pre ++ .beginLoad :: (mid ++ .finishLoad n r :: post) →
        n ∈ tickets (new name clock) pre →
        (run (new name clock) (pre ++ .beginLoad :: mid)).step (.finishLoad n r) =
          ⟨run (new name clock) (pre ++ .beginLoad :: mid), .applied false, false⟩) ∧
      ∀ pre mid rest n xs, es = pre ++ .beginLoad :: (mid ++ .finishLoad n (.ok xs) :: rest) →
        ((run (new name clock) pre).step .beginLoad).reply = .ticket n →
        .beginLoad ∉ mid ++ rest → (∀ r, .finishLoad n r ∉ mid ++ rest) →
        (run (new name clock) es).items = xs := by
  refine ⟨h.tracks.shown, ?_, ?_, ?_, ?_⟩
  · rw [h.tracks.issued]
    exact List.nodup_range'
  · intro pre n r post he
    have hn := h pre n r post he
    rw [he] at h
    have ht := h.left.tracks
    exact ⟨ht.reply_finishLoad hn r, fun hl => ht.step_finishLoad hn hl r⟩
  · intro pre mid n r post he hn
    rw [he] at h
    exact h.left.tracks.step_overtaken hn r
  · intro pre mid rest n xs he hn hb hf
    rw [he, run_append]
    exact items_of_last_load hn hb hf

theorem overtaken_load_dropped :
    let es : List (Event String) := [.beginLoad, .beginLoad, .finishLoad 2 (.ok ["fresh"]),
      .toggle 0 .detail, .finishLoad 1 (.ok ["stale"])]
    Issued (new "keys") es ∧ (run (new "keys") es).items = ["fresh"] ∧
      tickets (new "keys") es = [1, 2] ∧ arrivals (new "keys") [] es = [["fresh"]] := by
  intro es
  have h : Issued (new "keys") es := by
    intro pre n r post he
    rcases pre with _ | ⟨_, _ | ⟨_, _ | ⟨_, _ | ⟨_, _ | ⟨_, pre⟩⟩⟩⟩⟩ <;> simp [es] at he
    · obtain ⟨rfl, rfl, ⟨rfl, -⟩, -⟩ := he
      decide
    · obtain ⟨rfl, rfl, rfl, rfl, ⟨rfl, -⟩, -⟩ := he
      decide
  obtain ⟨-, -, -, -, hlast⟩ := newest_load_shown "keys" .stopped es h
  have hitems := hlast [.beginLoad] [] [.toggle 0 .detail, .finishLoad 1 (.ok ["stale"])] 2
    ["fresh"] rfl rfl (by simp) (by simp)
  exact ⟨h, hitems, rfl, rfl⟩

end EidMap.Table
