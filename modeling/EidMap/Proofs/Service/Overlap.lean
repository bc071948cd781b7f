import EidMap.Proofs.Service.Interleaving

/-!
# What overlapping calls see

Tickets are drawn in the order of time, so a result that is applied was asked for no earlier than
any load with a smaller ticket was begun. From this follow the two statements about calls that run
at the same time: a reload never shows what was asked for before its removal was acknowledged, and a
lookup answers from rows that were received since it began, unless another load overtook its own.
-/

namespace EidMap

theorem Table.generation_finishLoad {α : Type} (T : Table α) (n : Nat)
    (r : Except String (List α)) : (T.finishLoad n r).1.generation = T.generation := by
  unfold finishLoad
  split
  · rfl
  · cases r <;> rfl

variable {t : Topic}

def Stage.load? : Stage t → Option (Load t)
  | .begun _ l | .asked _ l _ | .answered _ l _ _ _ | .loaded _ l _ => some l
  | _ => none

namespace System

variable {σ τ : System t} {i : Nat}

theorem calls_set (σ : System t) (i j : Nat) (c : Stage t) (T : Table t.Row) :
    (σ.set i c T).calls j = if j = i then c else σ.calls j :=
  Function.update_apply ..

/-- What a step may do: begin a load, ask, hear the reply, show the result of the newest load, drop
the one of another, or leave generation and items alone. -/
inductive Step (σ : System t) (i : Nat) : System t → Prop
  | begins {g : Goal} (h : σ.calls i = .waiting g) :
    Step σ i (σ.set i (.begun g σ.newLoad) σ.table.beginLoad.1)
  | asks {g : Goal} {l : Load t} (h : σ.calls i = .begun g l) :
    Step σ i (σ.set i (.asked g l σ.clock) σ.table)
  | hears {g : Goal} {l : Load t} {sent : Nat} (o : Service.Outcome Stored.Database)
    (h : σ.calls i = .asked g l sent) :
    Step σ i ((σ.hear o).set i (.answered g l sent σ.clock o) σ.table)
  | shows {g : Goal} {l : Load t} {sent received : Nat} {d : Stored.Database} {T : Table t.Row}
    (h : σ.calls i = .answered g l sent received (.ok d)) (newest : σ.table.generation = l.ticket)
    (generation : T.generation = σ.table.generation) (items : T.items = t.shelf.rows d) :
    Step σ i (σ.set i (.loaded g l true) T)
  | drops {g : Goal} {l : Load t} {sent received : Nat} {d : Stored.Database}
    (h : σ.calls i = .answered g l sent received (.ok d))
    (overtaken : σ.table.generation ≠ l.ticket) : Step σ i (σ.set i (.loaded g l false) σ.table)
  | quiet {c : Stage t} {T : Table t.Row} (load : c.load? = none)
    (generation : T.generation = σ.table.generation) (items : T.items = σ.table.items) :
    Step σ i (σ.set i c T)

theorem step_of_finish {g : Goal} {l : Load t} {sent received : Nat}
    {o : Service.Outcome Stored.Database} (h : σ.calls i = .answered g l sent received o) :
    Step σ i (σ.set i (g.next l σ.table.name (σ.finish l o).2 o) (σ.finish l o).1) := by
  cases o with
  | error e =>
    refine .quiet ?_ (Table.generation_finishLoad ..) ?_
    · cases g <;> rfl
    · simp only [finish, Topic.brought, Table.finishLoad]
      split <;> rfl
  | ok d =>
    by_cases hnewest : σ.table.generation = l.ticket
    · have happlied : (σ.finish l (.ok d)).2 = true := by
        simp [finish, Table.finishLoad, Topic.brought, hnewest]
      rw [happlied]
      refine .shows h hnewest (Table.generation_finishLoad ..) ?_
      rw [finish, ← hnewest]
      exact Table.items_finishLoad σ.table _
    · have hdropped : σ.finish l (.ok d) = (σ.table, false) := if_pos hnewest
      rw [hdropped]
      exact .drops h hnewest

theorem step_of_step? {m : Move} (h : σ.step? i m = some τ) : Step σ i τ := by
  rw [step?] at h
  generalize hc : σ.calls i = c at h
  cases c with
  | waiting g =>
    cases m <;> cases h
    exact .begins hc
  | begun g l =>
    cases m <;> cases h
    exact .asks hc
  | asked g l sent =>
    cases m <;> cases h
    exact .hears _ hc
  | answered g l sent received o =>
    cases m <;> cases h
    exact step_of_finish hc
  | loaded g l applied =>
    cases m <;> cases g <;> cases h
    · rename_i k
      refine .quiet ?_ rfl rfl
      cases k with
      | delete uri =>
        rw [Job.next]
        split <;> rfl
      | _ => rfl
    · exact .quiet rfl rfl rfl
  | found a =>
    cases m <;> cases h
    exact .quiet rfl rfl rfl
  | posted a =>
    cases m with
    | acknowledge o => cases o <;> cases h <;> exact .quiet rfl rfl rfl
    | _ => cases h
  | refused e =>
    cases m <;> cases h
    exact .quiet rfl rfl rfl
  | returned r => cases m <;> cases h

theorem run_preserves {P : System t → Prop}
    (step : ∀ {σ τ : System t} {i : Nat}, P σ → Step σ i τ → P τ) (h : P σ)
    {es : List (Nat × Move)} (hrun : σ.run es = some τ) : P τ := by
  induction es generalizing σ with
  | nil =>
    cases hrun
    exact h
  | cons e es ih =>
    obtain ⟨υ, hstep, hrun⟩ := Option.bind_eq_some_iff.1 hrun
    exact ih (step h (step_of_step? hstep)) hrun

/-- The table shows a database that was received after a moment. -/
def Fresh (σ : System t) (b : Nat) : Prop :=
  ∃ r d, (r, d) ∈ σ.received ∧ b < r ∧ σ.table.items = t.shelf.rows d

structure Tracks (σ : System t) (l : Load t) : Prop where
  issued : l.ticket ≤ σ.table.generation
  past : l.begun < σ.clock
  items : σ.Fresh l.begun ∨ σ.table.items = l.before

/-- What is known of the moments of a call at a stage. -/
def Timely (σ : System t) : Stage t → Prop
  | .asked _ l sent => l.begun < sent ∧ sent < σ.clock
  | .answered _ l sent received o =>
    l.begun < sent ∧ sent < received ∧ ∀ d, o = .ok d → (received, d) ∈ σ.received
  | .loaded _ l applied => σ.Fresh l.begun ∨ applied = false ∧ l.ticket < σ.table.generation
  | _ => True

/-- What holds after every run: tickets are drawn in the order of time. -/
structure Sound (σ : System t) : Prop where
  tracks : ∀ i l, (σ.calls i).load? = some l → σ.Tracks l
  ordered : ∀ i j l l', (σ.calls i).load? = some l → (σ.calls j).load? = some l' →
    l.ticket ≤ l'.ticket → l.begun ≤ l'.begun
  timely : ∀ i, σ.Timely (σ.calls i)

structure Extends (σ τ : System t) : Prop where
  generation : σ.table.generation ≤ τ.table.generation
  items : τ.table.items = σ.table.items
  clock : σ.clock ≤ τ.clock
  received : ∀ a ∈ σ.received, a ∈ τ.received

theorem Fresh.extend {b : Nat} (h : σ.Fresh b) (hext : σ.Extends τ) : τ.Fresh b := by
  obtain ⟨r, d, hmem, hr, hitems⟩ := h
  exact ⟨r, d, hext.received _ hmem, hr, hext.items.trans hitems⟩

theorem Tracks.extend {l : Load t} (h : σ.Tracks l) (hext : σ.Extends τ) : τ.Tracks l where
  issued := Nat.le_trans h.issued hext.generation
  past := Nat.lt_of_lt_of_le h.past hext.clock
  items := h.items.imp (·.extend hext) hext.items.trans

theorem Timely.extend {c : Stage t} (h : σ.Timely c) (hext : σ.Extends τ) : τ.Timely c := by
  cases c with
  | asked g l sent => exact ⟨h.1, Nat.lt_of_lt_of_le h.2 hext.clock⟩
  | answered g l sent received o =>
    exact ⟨h.1, h.2.1, fun d hd => hext.received _ (h.2.2 d hd)⟩
  | loaded g l applied =>
    exact h.imp (·.extend hext) fun ⟨ha, hl⟩ => ⟨ha, Nat.lt_of_lt_of_le hl hext.generation⟩
  | _ => trivial

theorem extends_set {c : Stage t} {T : Table t.Row}
    (generation : σ.table.generation ≤ T.generation) (items : T.items = σ.table.items) :
    σ.Extends (σ.set i c T) :=
  ⟨generation, items, Nat.le_succ _, fun _ => id⟩

theorem sound_start (T : Table t.Row) (jobs : Nat → Job) : (start T jobs).Sound where
  tracks := nofun
  ordered := nofun
  timely _ := trivial

theorem Sound.set {υ : System t} (h : σ.Sound) (hυ : σ.Extends υ) (calls : υ.calls = σ.calls)
    {c : Stage t} {T : Table t.Row} (generation : υ.table.generation ≤ T.generation)
    (items : T.items = υ.table.items)
    (load : ∀ l, c.load? = some l → (σ.calls i).load? = some l)
    (timely : (υ.set i c T).Timely c) : (υ.set i c T).Sound := by
  have hext : σ.Extends (υ.set i c T) := by
    have hset : υ.Extends (υ.set i c T) := extends_set generation items
    exact ⟨Nat.le_trans hυ.generation hset.generation, hset.items.trans hυ.items,
      Nat.le_trans hυ.clock hset.clock, fun a ha => hset.received a (hυ.received a ha)⟩
  have hload : ∀ j l, ((υ.set i c T).calls j).load? = some l → (σ.calls j).load? = some l := by
    intro j l hl
    rw [calls_set, calls] at hl
    split at hl
    · rename_i hj
      rw [hj]
      exact load l hl
    · exact hl
  refine ⟨fun j l hl => (h.tracks j l (hload j l hl)).extend hext, fun j k l l' hl hl' =>
    h.ordered j k l l' (hload j l hl) (hload k l' hl'), fun j => ?_⟩
  rw [calls_set, calls]
  split
  · exact timely
  · exact (h.timely j).extend hext

theorem Sound.begins (h : σ.Sound) (g : Goal) :
    (σ.set i (.begun g σ.newLoad) σ.table.beginLoad.1).Sound := by
  have hext : σ.Extends (σ.set i (.begun g σ.newLoad) σ.table.beginLoad.1) :=
    extends_set (Nat.le_succ _) rfl
  have hload : ∀ j l,
      ((σ.set i (.begun g σ.newLoad) σ.table.beginLoad.1).calls j).load? = some l →
        l = σ.newLoad ∨ (σ.calls j).load? = some l := by
    intro j l hl
    rw [calls_set] at hl
    split at hl
    · exact .inl (Option.some.inj hl).symm
    · exact .inr hl
  -- the new load has the greatest ticket and the latest moment
  refine ⟨fun j l hl => ?_, fun j k l l' hl hl' hle => ?_, fun j => ?_⟩
  · rcases hload j l hl with rfl | hl
    · exact ⟨Nat.le_refl _, Nat.lt_succ_self _, .inr rfl⟩
    · exact (h.tracks j l hl).extend hext
  · rcases hload j l hl with rfl | hl <;> rcases hload k l' hl' with rfl | hl'
    · exact Nat.le_refl _
    · exact absurd ((h.tracks k l' hl').issued) (Nat.not_le_of_lt hle)
    · exact Nat.le_of_lt (h.tracks j l hl).past
    · exact h.ordered j k l l' hl hl' hle
  · rw [calls_set]
    split
    · trivial
    · exact (h.timely j).extend hext

theorem Sound.shows (h : σ.Sound) {g : Goal} {l : Load t} {sent received : Nat}
    {d : Stored.Database} {T : Table t.Row} (hi : σ.calls i = .answered g l sent received (.ok d))
    (newest : σ.table.generation = l.ticket) (generation : T.generation = σ.table.generation)
    (items : T.items = t.shelf.rows d) : (σ.set i (.loaded g l true) T).Sound := by
  have hl : (σ.calls i).load? = some l := by rw [hi]; rfl
  obtain ⟨hsent, hreceived, hmem⟩ : σ.Timely (.answered g l sent received (.ok d)) :=
    hi ▸ h.timely i
  -- `l` has the greatest ticket, so no load was begun after it, and its reply came later still
  have hfresh : ∀ j l', (σ.calls j).load? = some l' →
      (σ.set i (.loaded g l true) T).Fresh l'.begun := by
    intro j l' hl'
    have hissued := (h.tracks j l' hl').issued
    have hbegun := h.ordered j i l' l hl' hl (newest ▸ hissued)
    exact ⟨received, d, hmem d rfl, by omega, items⟩
  have hload : ∀ j l', ((σ.set i (.loaded g l true) T).calls j).load? = some l' →
      (σ.calls j).load? = some l' := by
    intro j l' hl'
    rw [calls_set] at hl'
    split at hl'
    · rename_i hj
      rw [hj, hl]
      exact hl'
    · exact hl'
  refine ⟨fun j l' hl' => ?_, fun j k l' l'' hl' hl'' =>
    h.ordered j k l' l'' (hload j l' hl') (hload k l'' hl''), fun j => ?_⟩
  · have htracks := h.tracks j l' (hload j l' hl')
    exact ⟨generation ▸ htracks.issued, Nat.lt_succ_of_lt htracks.past,
      .inl (hfresh j l' (hload j l' hl'))⟩
  · rw [calls_set]
    split
    · exact .inl (hfresh i l hl)
    · have htimely := h.timely j
      generalize hc : σ.calls j = c at htimely
      cases c with
      | asked g' l' sent' => exact ⟨htimely.1, Nat.lt_succ_of_lt htimely.2⟩
      | answered g' l' sent' received' o => exact htimely
      | loaded g' l' applied => exact .inl (hfresh j l' (by rw [hc]; rfl))
      | _ => trivial

theorem Sound.step (h : σ.Sound) (hstep : Step σ i τ) : τ.Sound := by
  have hrefl : σ.Extends σ := ⟨Nat.le_refl _, rfl, Nat.le_refl _, fun _ => id⟩
  cases hstep with
  | begins hi => exact h.begins _
  | @asks g l hi =>
    have hl : (σ.calls i).load? = some l := by rw [hi]; rfl
    have hpast := (h.tracks i l hl).past
    exact h.set hrefl rfl (Nat.le_refl _) rfl (fun _ => hl.trans) ⟨hpast, Nat.lt_succ_self _⟩
  | @hears g l sent o hi =>
    have hl : (σ.calls i).load? = some l := by rw [hi]; rfl
    obtain ⟨hsent, hclock⟩ : σ.Timely (.asked g l sent) := hi ▸ h.timely i
    have hext : σ.Extends (σ.hear o) :=
      ⟨Nat.le_refl _, rfl, Nat.le_refl _, fun _ => List.mem_append_left _⟩
    refine h.set hext rfl (Nat.le_refl _) rfl (fun _ => hl.trans) ⟨hsent, hclock, ?_⟩
    rintro d rfl
    exact List.mem_append_right _ (List.mem_singleton_self _)
  | shows hi newest generation items => exact h.shows hi newest generation items
  | @drops g l sent received d hi overtaken =>
    have hl : (σ.calls i).load? = some l := by rw [hi]; rfl
    have hissued := (h.tracks i l hl).issued
    exact h.set hrefl rfl (Nat.le_refl _) rfl (fun _ => hl.trans)
      (.inr ⟨rfl, Nat.lt_of_le_of_ne hissued fun he => overtaken he.symm⟩)
  | @quiet c T load generation items =>
    refine h.set hrefl rfl (Nat.le_of_eq generation.symm) items
      (fun l hl => absurd (load.symm.trans hl) nofun) ?_
    -- the stages that have a load contradict `load`
    cases c <;> trivial

theorem Sound.run (h : σ.Sound) {es : List (Nat × Move)} (hrun : σ.run es = some τ) : τ.Sound :=
  run_preserves Sound.step h hrun

/-- A lookup answers from the rows that it sees. They are those of a database that was received
after the lookup began, or another load was begun after its own and the rows are still the ones that
were shown when the lookup began. -/
theorem lookup_overlapped {T : Table t.Row} {jobs : Nat → Job} {es : List (Nat × Move)}
    {uri : String} {l : Load t} {applied : Bool} (hrun : (start T jobs).run es = some σ)
    (hi : σ.calls i = .loaded (.job (.lookup uri)) l applied) :
    (∃ τ, σ.step? i .go = some τ ∧
        τ.calls i = .returned (t.answer uri (σ.table.find? fun a => t.shelf.eidUri a == uri))) ∧
      (σ.Fresh l.begun ∨ l.ticket < σ.table.generation ∧ σ.table.items = l.before) := by
  have hsound := (sound_start T jobs).run hrun
  refine ⟨⟨_, by rw [step?, hi]; rfl, calls_set_self ..⟩, ?_⟩
  have hitems := (hsound.tracks i l (by rw [hi]; rfl)).items
  have htimely : σ.Timely (.loaded (.job (.lookup uri)) l applied) := hi ▸ hsound.timely i
  rcases htimely with hfresh | ⟨-, hovertaken⟩
  · exact .inl hfresh
  · exact hitems.imp id fun hbefore => ⟨hovertaken, hbefore⟩

def sample : Stored.Mapping :=
  ⟨"a", none, ⟨.null, none, none, none, none, none, none, none, [], []⟩⟩

/-- The table shows one mapping; one call looks it up, and all others load. -/
def lookingUp : System .mappings :=
  start ((Table.new "mappings").shown [Mapping.ofStored 0 sample])
    fun i => if i = 0 then .lookup "a" else .refresh

/-- The lookup receives a database without rows, but another load was begun after its own. -/
def overtaking : List (Nat × Move) :=
  [(0, .go), (1, .go), (0, .go), (0, .reply (.ok .empty)), (0, .go)]

theorem overtaken_lookup_answers :
    ∃ σ l, lookingUp.run overtaking = some σ ∧ σ.calls 0 = .loaded (.job (.lookup "a")) l false ∧
      (∃ τ, σ.step? 0 .go = some τ ∧ τ.calls 0 = .returned (Topic.answer .mappings "a"
        (σ.table.find? fun a => Topic.mappings.shelf.eidUri a == "a"))) ∧
      (σ.Fresh l.begun ∨ l.ticket < σ.table.generation ∧ σ.table.items = l.before) :=
  ⟨_, _, rfl, rfl, lookup_overlapped (show (start _ _).run overtaking = some _ from rfl) rfl⟩

/-- The lookup returns the mapping that was shown before, which is in no database received. -/
theorem overtaken_lookup_not_fresh :
    ∃ σ, lookingUp.run (overtaking ++ [(0, .go)]) = some σ ∧
      σ.calls 0 = .returned (.row (Mapping.ofStored 0 sample)) ∧
      σ.received = [(3, .empty)] ∧ Topic.first? .mappings "a" .empty = none :=
  ⟨_, rfl, rfl, rfl, rfl⟩

structure Since (σ : System t) (ticket b : Nat) : Prop where
  generation : ticket ≤ σ.table.generation
  clock : b ≤ σ.clock
  later : ∀ j l, (σ.calls j).load? = some l → ticket ≤ l.ticket → b ≤ l.begun

theorem Step.clock_eq (h : Step σ i τ) : τ.clock = σ.clock + 1 := by
  cases h <;> rfl

theorem Step.generation_le (h : Step σ i τ) : σ.table.generation ≤ τ.table.generation := by
  cases h with
  | begins => exact Nat.le_succ _
  | asks | hears | drops => exact Nat.le_refl _
  | shows _ _ generation _ | quiet _ generation _ => exact Nat.le_of_eq generation.symm

theorem Step.calls_of_ne (h : Step σ i τ) {j : Nat} (hj : j ≠ i) : τ.calls j = σ.calls j := by
  cases h <;> exact (calls_set ..).trans (if_neg hj)

theorem Step.load_cases (h : Step σ i τ) {l : Load t} (hl : (τ.calls i).load? = some l) :
    (σ.calls i).load? = some l ∨ l.begun = σ.clock := by
  cases h with
  | begins =>
    rw [calls_set_self] at hl
    cases hl
    exact .inr rfl
  | asks hi | hears _ hi | shows hi | drops hi =>
    rw [calls_set_self] at hl
    rw [hi]
    exact .inl hl
  | quiet load =>
    rw [calls_set_self, load] at hl
    cases hl

theorem Since.step {n b : Nat} (h : σ.Since n b) (hstep : Step σ i τ) : τ.Since n b where
  generation := Nat.le_trans h.generation hstep.generation_le
  clock := by
    rw [hstep.clock_eq]
    exact Nat.le_succ_of_le h.clock
  later j l hl hn := by
    by_cases hj : j = i
    · subst hj
      rcases hstep.load_cases hl with hl | hbegun
      · exact h.later j l hl hn
      · exact hbegun ▸ h.clock
    · rw [hstep.calls_of_ne hj] at hl
      exact h.later j l hl hn

theorem Since.run {n b : Nat} (h : σ.Since n b) {es : List (Nat × Move)}
    (hrun : σ.run es = some τ) : τ.Since n b :=
  run_preserves (P := fun υ => υ.Since n b) Since.step h hrun

theorem clock_run {es : List (Nat × Move)} (hrun : σ.run es = some τ) :
    τ.clock = σ.clock + es.length := by
  induction es generalizing σ with
  | nil =>
    cases hrun
    rfl
  | cons e es ih =>
    obtain ⟨υ, hstep, hrun⟩ := Option.bind_eq_some_iff.1 hrun
    rw [ih hrun, (step_of_step? hstep).clock_eq, List.length_cons]
    omega

theorem calls_run_of_ne {es : List (Nat × Move)} (hrun : σ.run es = some τ)
    (hes : ∀ e ∈ es, e.1 ≠ i) : τ.calls i = σ.calls i := by
  induction es generalizing σ with
  | nil =>
    cases hrun
    rfl
  | cons e es ih =>
    obtain ⟨υ, hstep, hrun⟩ := Option.bind_eq_some_iff.1 hrun
    rw [List.forall_mem_cons] at hes
    rw [ih hrun hes.2, (step_of_step? hstep).calls_of_ne hes.1.symm]

theorem calls_of_acknowledge (h : σ.step? i (.acknowledge (.ok ())) = some τ) :
    τ.calls i = .waiting (.reload σ.clock) := by
  rw [step?] at h
  cases hc : σ.calls i with
  | posted a =>
    rw [hc] at h
    cases h
    exact calls_set_self ..
  | loaded g l applied =>
    rw [hc] at h
    cases g <;> cases h
  | _ =>
    rw [hc] at h
    cases h

theorem Sound.since (h : σ.Sound) {g : Goal} (hi : σ.calls i = .waiting g)
    (hstep : σ.step? i .go = some τ) : τ.Since (σ.table.generation + 1) σ.clock := by
  rw [step?, hi] at hstep
  cases hstep
  refine ⟨Nat.le_refl _, Nat.le_succ _, fun j l hl hn => ?_⟩
  rw [calls_set] at hl
  split at hl
  · cases hl
    exact Nat.le_refl _
  · have hissued := (h.tracks j l hl).issued
    omega

theorem generation_of_finish {l : Load t} {o : Service.Outcome Stored.Database}
    (h : (σ.finish l o).2 = true) : σ.table.generation = l.ticket := by
  unfold finish Table.finishLoad at h
  split at h
  · cases h
  · rename_i hn
    exact Decidable.of_not_not hn

/-- After the reload of an acknowledged removal has begun, every result that is applied to the table
was asked for, by a load that was begun, after the acknowledgement. -/
theorem reload_follows_acknowledgement {T : Table t.Row} {jobs : Nat → Job}
    {es es' es'' : List (Nat × Move)} {j : Nat} {g : Goal} {l : Load t} {sent received : Nat}
    {o : Service.Outcome Stored.Database}
    (hrun : (start T jobs).run
      (es ++ (i, .acknowledge (.ok ())) :: (es' ++ (i, .go) :: es'')) = some τ)
    (hpause : ∀ e ∈ es', e.1 ≠ i) (hj : τ.calls j = .answered g l sent received o)
    (happlied : (τ.finish l o).2 = true) :
    es.length < l.begun ∧ l.begun < sent ∧ sent < received := by
  have hsound := (sound_start T jobs).run hrun
  rw [run_append, Option.bind_eq_some_iff] at hrun
  obtain ⟨σ₁, h₁, hrun⟩ := hrun
  obtain ⟨σ₂, hack, hrun⟩ := Option.bind_eq_some_iff.1 hrun
  rw [run_append, Option.bind_eq_some_iff] at hrun
  obtain ⟨σ₃, h₃, hrun⟩ := hrun
  obtain ⟨σ₄, hrestart, hrun⟩ := Option.bind_eq_some_iff.1 hrun
  have hwaiting : σ₃.calls i = .waiting (.reload σ₁.clock) :=
    (calls_run_of_ne h₃ hpause).trans (calls_of_acknowledge hack)
  have hclock : es.length < σ₃.clock := by
    have hclock₁ : σ₁.clock = 0 + es.length := clock_run h₁
    rw [clock_run h₃, (step_of_step? hack).clock_eq, hclock₁]
    omega
  have hsound₃ := (((sound_start T jobs).run h₁).step (step_of_step? hack)).run h₃
  -- from the restart on, only results with its ticket or a greater one are applied
  have hsince := (hsound₃.since hwaiting hrestart).run hrun
  have hnewest := generation_of_finish happlied
  have hbegun := hsince.later j l (by rw [hj]; rfl) (hnewest ▸ hsince.generation)
  obtain ⟨hsent, hreceived, -⟩ : τ.Timely (.answered g l sent received o) := hj ▸ hsound.timely j
  exact ⟨Nat.lt_of_lt_of_le hclock hbegun, hsent, hreceived⟩

def removing : System .mappings :=
  start (Table.new "mappings") fun i => if i = 0 then .delete "a" else .refresh

/-- The removal is posted while a load that was begun before it is under way. -/
def posting : List (Nat × Move) :=
  [(1, .go), (1, .go), (0, .go), (0, .go), (0, .reply (.ok ⟨[⟨0, [sample], []⟩]⟩)), (0, .go),
    (0, .go), (0, .go)]

/-- The load that was begun before is answered after the acknowledgement; its rows are dropped. -/
theorem late_answer_dropped :
    ∃ τ, removing.run (posting ++ (0, .acknowledge (.ok ())) ::
        ([(1, .reply (.ok ⟨[⟨0, [sample], []⟩]⟩))] ++ (0, .go) ::
          [(0, .go), (0, .reply (.ok .empty))])) = some τ ∧
      τ.calls 0 = .answered (.reload 8) ⟨3, 10, [Mapping.ofStored 0 sample]⟩ 11 12 (.ok .empty) ∧
      (τ.finish ⟨3, 10, [Mapping.ofStored 0 sample]⟩ (.ok .empty)).2 = true ∧
      τ.calls 1 = .answered (.job .refresh) ⟨1, 0, []⟩ 1 9 (.ok ⟨[⟨0, [sample], []⟩]⟩) ∧
      (τ.finish ⟨1, 0, []⟩ (.ok ⟨[⟨0, [sample], []⟩]⟩)).2 = false ∧
      posting.length < 10 ∧ 10 < 11 ∧ 11 < 12 := by
  obtain ⟨τ, hrun, hcall, happlied, hlate, hdropped⟩ :
      ∃ τ, removing.run (posting ++ (0, .acknowledge (.ok ())) ::
          ([(1, .reply (.ok ⟨[⟨0, [sample], []⟩]⟩))] ++ (0, .go) ::
            [(0, .go), (0, .reply (.ok .empty))])) = some τ ∧
        τ.calls 0 = .answered (.reload 8) ⟨3, 10, [Mapping.ofStored 0 sample]⟩ 11 12 (.ok .empty) ∧
        (τ.finish ⟨3, 10, [Mapping.ofStored 0 sample]⟩ (.ok .empty)).2 = true ∧
        τ.calls 1 = .answered (.job .refresh) ⟨1, 0, []⟩ 1 9 (.ok ⟨[⟨0, [sample], []⟩]⟩) ∧
        (τ.finish ⟨1, 0, []⟩ (.ok ⟨[⟨0, [sample], []⟩]⟩)).2 = false :=
    ⟨_, rfl, rfl, rfl, rfl, rfl⟩
  exact ⟨τ, hrun, hcall, happlied, hlate, hdropped,
    reload_follows_acknowledgement hrun (by decide) hcall happlied⟩

end System

end EidMap
