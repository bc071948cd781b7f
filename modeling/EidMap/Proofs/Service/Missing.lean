import EidMap.Proofs.Service.Refresh

/-!
# A store without a database

A store that answers the request for its database with 404 has none. If it does not say why, it
counts as empty; what it says is told as a failed load.
-/

namespace EidMap.Service

variable {s : Service} {body : String}

theorem rows_empty (t : Topic) : t.shelf.rows .empty = [] := by
  cases t <;> rfl

theorem load_of_missing (heard : s.network.takes s.reading? ≠ [])
    (missing : s.network.reply 0 = .answer 404 body) :
    s.load s.network = match Rpc.errorMessages body with
      | [] => .ok .empty
      | messages => .error (.api (String.intercalate ", " messages) (some 404)) := by
  obtain ⟨url, hload⟩ := load_of_takes heard
  rw [hload, missing, Rpc.Reply.database_missing]
  cases Rpc.errorMessages body <;> rfl

theorem refresh_of_silent (t : Topic) (heard : s.network.takes s.reading? ≠ [])
    (missing : s.network.reply 0 = .answer 404 body) (silent : Rpc.errorMessages body = []) :
    (s.refresh t.shelf).1 = .ok ((t.shelf.get s).shown []) ∧
      t.shelf.get (s.refresh t.shelf).2 = (t.shelf.get s).shown [] := by
  have hload := load_of_missing heard missing
  rw [silent] at hload
  have hrefresh := refresh_of_load (t := t) (T := t.shelf.get s) hload
  rw [put_self, rows_empty] at hrefresh
  rw [hrefresh]
  exact ⟨rfl, get_put⟩

theorem refresh_of_spoken (t : Topic) (heard : s.network.takes s.reading? ≠ [])
    (missing : s.network.reply 0 = .answer 404 body) (spoken : Rpc.errorMessages body ≠ []) :
    (s.refresh t.shelf).1 = .error (.loadFailed (t.shelf.get s).name
        (String.intercalate ", " (Rpc.errorMessages body))) ∧
      t.shelf.get (s.refresh t.shelf).2 = (t.shelf.get s).failed (ServiceError.loadFailed
        (t.shelf.get s).name (String.intercalate ", " (Rpc.errorMessages body))).message := by
  have hload : s.load s.network =
      .error (.api (String.intercalate ", " (Rpc.errorMessages body)) (some 404)) := by
    rw [load_of_missing heard missing]
    cases hmessages : Rpc.errorMessages body with
    | nil => exact absurd hmessages spoken
    | cons m ms => rfl
  have hrefresh := refresh_of_not_load (t := t) (T := t.shelf.get s) hload
  rw [put_self] at hrefresh
  rw [hrefresh]
  exact ⟨rfl, get_put⟩

/-- A refresh that is answered 404 shows no rows, unless the answer says why: then the rows stay as
they were, and the messages are told to the caller and in the banner. -/
theorem refresh_of_missing (t : Topic) (heard : s.network.takes s.reading? ≠ [])
    (missing : s.network.reply 0 = .answer 404 body) :
    (Rpc.errorMessages body = [] → ∃ T, (s.refresh t.shelf).1 = .ok T ∧
      t.shelf.get (s.refresh t.shelf).2 = T ∧ T.items = [] ∧ T.status = .loaded) ∧
    (Rpc.errorMessages body ≠ [] → ∃ e, (s.refresh t.shelf).1 = .error e ∧
      e = .loadFailed (t.shelf.get s).name (String.intercalate ", " (Rpc.errorMessages body)) ∧
      (t.shelf.get (s.refresh t.shelf).2).items = (t.shelf.get s).items ∧
      (t.shelf.get (s.refresh t.shelf).2).status = .loadError e.message) := by
  refine ⟨fun silent => ?_, fun spoken => ?_⟩
  · obtain ⟨hresult, htable⟩ := refresh_of_silent t heard missing silent
    exact ⟨_, hresult, htable, Table.items_shown _ _, Table.status_shown _ _⟩
  · obtain ⟨hresult, htable⟩ := refresh_of_spoken t heard missing spoken
    exact ⟨_, hresult, rfl, by rw [htable, Table.items_failed], by rw [htable, Table.status_failed]⟩

theorem storeless_empty :
    ∃ T, ((scripted [.answer 404 ""]).refresh (Topic.shelf .mappings)).1 = .ok T ∧
      T.items = [] ∧ T.status = .loaded := by
  obtain ⟨hsilent, -⟩ := refresh_of_missing .mappings (scripted_heard [.answer 404 ""]) rfl
  obtain ⟨T, hresult, -, hitems, hstatus⟩ := hsilent (by cbv)
  exact ⟨T, hresult, hitems, hstatus⟩

def goneDocument : String :=
  "\x7b\"errors\":\x7b\"error\":[\x7b\"error-message\":\"gone\"\x7d]\x7d\x7d"

theorem storeless_failed :
    (scripted [.answer 404 goneDocument]).network.reply 0 = .answer 404 goneDocument ∧
      ((scripted [.answer 404 goneDocument]).refresh (Topic.shelf .mappings)).1 =
        .error (.loadFailed "mappings" "gone") := by
  have hmessages : Rpc.errorMessages goneDocument = ["gone"] := by cbv
  have hspoken := refresh_of_spoken .mappings (scripted_heard [.answer 404 goneDocument]) rfl
    (by rw [hmessages]; exact List.cons_ne_nil _ _)
  rw [hmessages] at hspoken
  exact ⟨rfl, hspoken.1⟩

end EidMap.Service
