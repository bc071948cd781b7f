import EidMap.Proofs.Json.Member
import EidMap.Proofs.Json.Record
import EidMap.Proofs.Json.Text
import EidMap.Proofs.Rpc.Calls
import EidMap.Proofs.Rpc.Outcome
import Mathlib.Tactic.SplitIfs

/-!
# Two ways to remove

A removal with a finished body posts what the removal of an identifier posts. The two make the
same of an answer unless it is a success with a text: the first takes any JSON, the second one
output at most, in an object or in an array.
-/

namespace EidMap

namespace Json

open Source (layer)

namespace Doc

theorem of_capture_cons {key : Except Fault String} {d : Doc}
    {fs : List (Except Fault String × Doc)} {xs : List (String × Json)}
    (h : captureFields ((key, d) :: fs) = .ok xs) :
    ∃ k v vs, key = .ok k ∧ capture d = .ok v ∧ captureFields fs = .ok vs := by
  cases key with
  | error f => cases h
  | ok k =>
    rw [captureFields] at h
    cases hd : capture d with
    | error f =>
      rw [hd] at h
      cases h
    | ok v =>
      rw [hd] at h
      obtain ⟨vs, hvs, -⟩ := map_eq_ok.1 h
      exact ⟨k, v, vs, rfl, rfl, hvs⟩

theorem of_capture_items_cons {d : Doc} {ds : List Doc} {xs : List Json}
    (h : captureItems (d :: ds) = .ok xs) :
    ∃ v vs, capture d = .ok v ∧ captureItems ds = .ok vs := by
  rw [captureItems] at h
  cases hd : capture d with
  | error f =>
    rw [hd] at h
    cases h
  | ok v =>
    rw [hd] at h
    obtain ⟨vs, hvs, -⟩ := map_eq_ok.1 h
    exact ⟨v, vs, rfl, hvs⟩

theorem of_capture_array {depth : Nat} {ds : List Doc} {close : Option Break} {v : Json}
    (h : capture (.array depth ds close) = .ok v) :
    close = none ∧ ∃ vs, captureItems ds = .ok vs := by
  simp only [capture] at h
  split_ifs at h
  split at h <;> cases h
  rename_i hds
  exact ⟨rfl, _, hds⟩

theorem of_capture_object {depth : Nat} {fs : List (Except Fault String × Doc)}
    {close : Option Break} {v : Json} (h : capture (.object depth fs close) = .ok v) :
    close = none ∧ ∃ vs, captureFields fs = .ok vs := by
  simp only [capture] at h
  split_ifs at h
  split at h <;> cases h
  rename_i hfs
  exact ⟨rfl, _, hfs⟩

mutual
theorem skip_of_capture : ∀ {d : Doc} {v : Json}, capture d = .ok v → skip d = none
  | .null, _, _ | .bool _, _, _ | .number _, _, _ | .string _, _, _ => by simp [skip]
  | .array depth ds close, _, h => by
    obtain ⟨rfl, vs, hds⟩ := of_capture_array h
    simp [skip, skip_of_captureItems hds]
  | .object depth fs close, _, h => by
    obtain ⟨rfl, vs, hfs⟩ := of_capture_object h
    simp [skip, skip_of_captureFields hfs]
  | .faulty read skip, _, h => by
    rw [capture] at h
    cases h

theorem skip_of_captureItems :
    ∀ {ds : List Doc} {vs : List Json}, captureItems ds = .ok vs → skipItems ds = none
  | [], _, _ => rfl
  | d :: ds, _, h => by
    obtain ⟨v, vs, hd, hds⟩ := of_capture_items_cons h
    simp [skipItems, skip_of_capture hd, skip_of_captureItems hds]

theorem skip_of_captureFields : ∀ {fs : List (Except Fault String × Doc)}
    {vs : List (String × Json)}, captureFields fs = .ok vs → skipFields fs = none
  | [], _, _ => rfl
  | (key, d) :: fs, _, h => by
    obtain ⟨k, v, vs, rfl, hd, hfs⟩ := of_capture_cons h
    simp [skipFields, skip_of_capture hd, skip_of_captureFields hfs]
end

def occurrences (name : String) (fs : List (Except Fault String × Doc)) : Nat :=
  fs.countP fun f => f.1.toOption == some name

/-- The document has one output at most: in an object under that name, or in an array. -/
def SingleOutput : Doc → Prop
  | .object _ fs _ => occurrences "output" fs ≤ 1
  | .array _ ds _ => ds.length ≤ 1
  | _ => False

/-- The document is closed, the output can be read, and what else an object has can be passed over. -/
def ReadableOutput : Doc → Prop
  | .object _ fs close => close = none ∧ ∀ f ∈ fs, ∃ k, f.1 = .ok k ∧
      if k = "output" then ∃ v, f.2.capture = .ok v else f.2.skip = none
  | .array _ ds close => close = none ∧ ∀ d ∈ ds, ∃ v, d.capture = .ok v
  | _ => False

theorem exists_capture_of_items {ds : List Doc} {vs : List Json}
    (captured : captureItems ds = .ok vs) : ∀ d ∈ ds, ∃ v, d.capture = .ok v := by
  induction ds generalizing vs with
  | nil => nofun
  | cons d ds ih =>
    obtain ⟨v, vs, hd, hds⟩ := of_capture_items_cons captured
    exact List.forall_mem_cons.2 ⟨⟨v, hd⟩, ih hds⟩

theorem exists_capture_of_fields {fs : List (Except Fault String × Doc)}
    {vs : List (String × Json)} (captured : captureFields fs = .ok vs) :
    ∀ f ∈ fs, ∃ k v, f.1 = .ok k ∧ f.2.capture = .ok v := by
  induction fs generalizing vs with
  | nil => nofun
  | cons f fs ih =>
    obtain ⟨k, v, vs, hk, hd, hfs⟩ := of_capture_cons captured
    exact List.forall_mem_cons.2 ⟨⟨k, v, hk, hd⟩, ih hfs⟩

theorem readableOutput_of_capture {d : Doc} {v : Json} (captured : d.capture = .ok v)
    (single : d.SingleOutput) : d.ReadableOutput := by
  cases d with
  | null | bool | number | string | faulty => exact single.elim
  | array depth ds close =>
    obtain ⟨rfl, vs, hds⟩ := of_capture_array captured
    exact ⟨rfl, exists_capture_of_items hds⟩
  | object depth fs close =>
    obtain ⟨rfl, vs, hfs⟩ := of_capture_object captured
    refine ⟨rfl, fun f hf => ?_⟩
    obtain ⟨k, v, hk, hv⟩ := exists_capture_of_fields hfs f hf
    refine ⟨k, hk, ?_⟩
    split_ifs
    · exact ⟨v, hv⟩
    · exact skip_of_capture hv

end Doc

theorem passOver_eq_ok {d : Doc} : passOver d = .ok () ↔ d.skip = none := by
  rw [passOver, show Source.skip d = d.skip from rfl]
  cases d.skip <;> simp

theorem value_of_capture {d : Doc} {v : Json} (h : d.capture = .ok v) : value d = .ok v := by
  rw [value, show Source.capture d = d.capture from rfl, h]

theorem exists_cons_iff {ε α : Type} (a : α) (x : Except ε (List α)) :
    (∃ out, (do return a :: (← x) : Except ε (List α)) = .ok out) ↔ ∃ out, x = .ok out := by
  cases x with
  | error e => exact ⟨nofun, nofun⟩
  | ok as => exact ⟨fun _ => ⟨as, rfl⟩, fun _ => ⟨a :: as, rfl⟩⟩

theorem exists_step_iff {δ : Type} (f : String × δ) (x : Decoded Unit)
    (rest : Decoded (List (String × δ))) :
    (∃ out, (do
        x.inside 0
        return f :: (← rest.later) : Decoded (List (String × δ))) = .ok out) ↔
      x = .ok () ∧ ∃ out, rest = .ok out := by
  cases x with
  | error e => exact ⟨nofun, nofun⟩
  | ok =>
    refine (exists_cons_iff f rest.later).trans ?_
    simp

def Guard.Passes (g : Guard Doc) (f : Except Fault String × Doc) : Prop :=
  ∃ k, f.1 = .ok k ∧ if k = g.name then g.check f.2 = .ok () else f.2.skip = none

/-- A walk that looks for one field goes past everything that passes, unless the field comes twice. -/
theorem exists_walk_iff {g : Guard Doc} (unaliased : g.aliases = [])
    (fs : List (Except Fault String × Doc)) (seen : List String) :
    (∃ out, walk [g] passOver seen fs = .ok out) ↔
      (∀ f ∈ fs, g.Passes f) ∧
        Doc.occurrences g.name fs + (if seen.contains g.name then 1 else 0) ≤ 1 := by
  induction fs generalizing seen with
  | nil =>
    refine ⟨fun _ => ⟨nofun, ?_⟩, fun _ => ⟨[], rfl⟩⟩
    rw [Doc.occurrences, List.countP_nil]
    split_ifs <;> omega
  | cons f fs ih =>
    obtain ⟨f | k, d⟩ := f
    · refine ⟨nofun, fun ⟨hpass, _⟩ => ?_⟩
      obtain ⟨k, hk, -⟩ := List.forall_mem_cons.1 hpass |>.1
      cases hk
    have hanswers : g.answers k = (k == g.name) := by
      rw [Guard.answers, unaliased, List.contains_nil, Bool.or_false]
    have hcount : Doc.occurrences g.name ((.ok k, d) :: fs) =
        Doc.occurrences g.name fs + if k == g.name then 1 else 0 := List.countP_cons
    have hpasses : g.Passes (.ok k, d) ↔
        if k = g.name then g.check d = .ok () else d.skip = none :=
      ⟨fun ⟨_, hk, h⟩ => by cases hk; exact h, fun h => ⟨k, rfl, h⟩⟩
    rw [List.forall_mem_cons, hcount, hpasses, walk, List.find?_cons, hanswers]
    by_cases hk : k = g.name
    · subst hk
      simp only [beq_self_eq_true, if_true]
      cases hseen : seen.contains g.name with
      | true => simp
      | false =>
        rw [if_neg Bool.false_ne_true, exists_step_iff, ih (g.name :: seen)]
        simp [and_assoc]
    · simp only [beq_false_of_ne hk, if_neg hk, List.find?_nil, Bool.false_eq_true, if_false,
        Nat.add_zero]
      rw [exists_step_iff, ih seen, passOver_eq_ok, and_assoc]

theorem mem_of_find? {name : String} {fs : List (String × Doc)} {d : Doc}
    (h : Parts.find? name [] fs = some d) : (name, d) ∈ fs := by
  induction fs with
  | nil => cases h
  | cons f fs ih =>
    rw [Parts.find?] at h
    split_ifs at h with hname
    · cases h
      have hname : f.1 = name := by simpa using hname
      exact hname ▸ List.mem_cons_self
    · exact List.mem_cons_of_mem f (ih h)

def output : Field Doc Json := defaulted "output" value .null

theorem readOutput_array_iff (depth : Nat) (ds : List Doc) (close : Option Break) :
    (∃ o, Rpc.Client.readOutput value .null (.array depth ds close) = .ok o) ↔
      (close = none ∧ ∀ d ∈ ds, ∃ v, d.capture = .ok v) ∧ ds.length ≤ 1 := by
  have hread : (∃ o, Rpc.Client.readOutput value .null (.array depth ds close) = .ok o) ↔
      ∃ o, (Parts.placed "struct RpcOutput" ["output"] ds (close.map Break.read)).get output = .ok o ∧
        ds.length ≤ 1 ∧ close = none := by
    refine exists_congr fun o => bind_eq_ok.trans ⟨?_, ?_⟩
    · rintro ⟨a, ha, h⟩
      obtain ⟨hlength, hclose, rfl⟩ := surplus_eq_ok.1 h
      exact ⟨ha, hlength, Option.map_eq_none_iff.1 hclose⟩
    · rintro ⟨ho, hlength, rfl⟩
      exact ⟨o, ho, surplus_eq_ok.2 ⟨hlength, rfl, rfl⟩⟩
  rw [hread]
  rcases ds with _ | ⟨x, _ | ⟨y, ds⟩⟩
  · refine ⟨fun ⟨_, _, h⟩ => ⟨⟨h.2, nofun⟩, h.1⟩, ?_⟩
    rintro ⟨⟨rfl, -⟩, h⟩
    exact ⟨.null, rfl, h, rfl⟩
  · constructor
    · rintro ⟨o, ho, h⟩
      have hx := capture_of_value (Decoded.inside_eq_ok.1 ho)
      exact ⟨⟨h.2, List.forall_mem_singleton.2 ⟨o, hx⟩⟩, h.1⟩
    · rintro ⟨⟨hclose, hread⟩, hlength⟩
      obtain ⟨v, hv⟩ := List.forall_mem_singleton.1 hread
      exact ⟨v, Decoded.inside_eq_ok.2 (value_of_capture hv), hlength, hclose⟩
  · exact ⟨fun ⟨_, _, h⟩ => absurd h.1 (by simp), fun h => absurd h.2 (by simp)⟩

theorem guard_output_passes (f : Except Fault String × Doc) :
    output.guard.Passes f ↔ ∃ k, f.1 = .ok k ∧
      if k = "output" then ∃ v, f.2.capture = .ok v else f.2.skip = none := by
  have hcheck : output.guard.check f.2 = .ok () ↔ ∃ v, f.2.capture = .ok v :=
    map_eq_ok.trans ⟨fun ⟨v, hv, _⟩ => ⟨v, capture_of_value hv⟩,
      fun ⟨v, hv⟩ => ⟨v, value_of_capture hv, rfl⟩⟩
  rw [Guard.Passes, hcheck]
  rfl

theorem readOutput_object_iff (depth : Nat) (fs : List (Except Fault String × Doc))
    (close : Option Break) :
    (∃ o, Rpc.Client.readOutput value .null (.object depth fs close) = .ok o) ↔
      (close = none ∧ ∀ f ∈ fs, ∃ k, f.1 = .ok k ∧
        if k = "output" then ∃ v, f.2.capture = .ok v else f.2.skip = none) ∧
      Doc.occurrences "output" fs ≤ 1 := by
  have hwalk := exists_walk_iff (g := output.guard) rfl fs []
  simp only [guard_output_passes] at hwalk
  constructor
  · rintro ⟨o, h⟩
    obtain ⟨out, hout, h⟩ := bind_eq_ok.1 h
    obtain ⟨_, hclose, -⟩ := bind_eq_ok.1 h
    obtain ⟨hfs, hsingle⟩ := hwalk.1 ⟨out, hout⟩
    exact ⟨⟨Option.map_eq_none_iff.1 (close_eq_ok.1 hclose).1, hfs⟩, hsingle⟩
  · rintro ⟨⟨rfl, hfs⟩, hsingle⟩
    obtain ⟨out, hout⟩ := hwalk.2 ⟨hfs, hsingle⟩
    -- what the walk let through as the output can be read
    have hget : ∃ o, (Parts.named out).get output = .ok o := by
      cases hfind : Parts.find? "output" [] out with
      | none => exact ⟨.null, get_named_absent hfind rfl⟩
      | some d =>
        have hmem : (Except.ok "output", d) ∈ fs := by
          rw [walk_eq_ok hout]
          exact List.mem_map_of_mem (mem_of_find? hfind)
        obtain ⟨k, hk, hd⟩ := hfs _ hmem
        cases hk
        obtain ⟨w, hw⟩ := hd
        exact ⟨w, (get_named hfind).trans (value_of_capture hw)⟩
    obtain ⟨o, ho⟩ := hget
    exact ⟨o, bind_eq_ok.2 ⟨out, hout, ho⟩⟩

theorem readOutput_iff (d : Doc) :
    (∃ o, Rpc.Client.readOutput value .null d = .ok o) ↔ d.ReadableOutput ∧ d.SingleOutput := by
  cases d with
  | null | bool | number | string | faulty =>
    refine ⟨?_, fun h => h.1.elim⟩
    rintro ⟨o, h⟩
    cases h
  | array depth ds close => exact readOutput_array_iff depth ds close
  | object depth fs close => exact readOutput_object_iff depth fs close

theorem decodeText_of_faulty {α : Type} {reader : Doc → Decoded α} {s : String} {read : Fault}
    {skip : Option Fault} {e : DecodeError} (h : (Doc.ofText s).1 = .faulty read skip)
    (fails : reader (.faulty read skip) = .error e) : decodeText reader s = .error e := by
  rw [← h] at fails
  rw [decodeText]
  dsimp only
  rw [fails]

def Whole (s : String) : Prop := (dropSpace ((Doc.ofText s).2.getD [])).isEmpty = true

theorem exists_decodeText_iff {α : Type} (read : Doc → Decoded α) (s : String) :
    (∃ a, decodeText read s = .ok a) ↔ (∃ a, read (Doc.ofText s).1 = .ok a) ∧ Whole s := by
  rw [decodeText, Whole]
  dsimp only
  cases read (Doc.ofText s).1 with
  | error e => simp
  | ok a =>
    dsimp only
    split_ifs with hrest
    · simp [hrest]
    · simp [hrest]

end Json

namespace Rpc

/-- A success with a text. -/
inductive Reply.Speaks (body : String) : Reply → Prop
  | success {status : Nat} (success : isSuccess status = true)
    (text : (Text.trim body.toList).isEmpty = false) : Speaks body (.answer status body)

theorem Reply.Speaks.accepts_iff {r : Reply} {body : String} (speaks : r.Speaks body) :
    r.Accepts ↔ ∃ v, Json.decodeText Json.value body = .ok v := by
  cases speaks with
  | success success text =>
    constructor
    · rintro ⟨-, hblank | hjson⟩
      · cases hblank.symm.trans text
      · exact hjson
    · exact fun hjson => .answer success (.inr hjson)

namespace Reply

variable {α : Type} {read : Json.Doc → Json.Decoded α} {url : Url} {r : Reply} {body : String}

theorem posted_of_silent (silent : ∀ body, ¬r.Speaks body) :
    (r.posted read url).map (fun _ => ()) = (r.result url).map fun _ => () := by
  rw [posted]
  cases hr : r.result url with
  | error e => rfl
  | ok text =>
    obtain ⟨status, rfl, hs⟩ := result_eq_ok hr
    have hblank : (Text.trim text.toList).isEmpty = true := by
      by_contra htext
      exact silent text (.success hs (Bool.eq_false_iff.2 htext))
    dsimp only
    rw [if_pos hblank]
    rfl

theorem posted_of_speaks (speaks : r.Speaks body) :
    (r.posted read url).map (fun _ => ()) = (decodeBody read body).map fun _ => () := by
  obtain ⟨success, text⟩ := speaks
  rw [posted, result_of_isSuccess success]
  dsimp only
  rw [if_neg (Bool.eq_false_iff.1 text)]
  cases decodeBody read body <;> rfl

end Reply

namespace Client

inductive Removes (eid : Json) : Operation → Call → Prop
  | mapping : Removes eid .removeMapping (.removeMapping eid)
  | key : Removes eid .removeKey (.removeKey eid)

theorem outcome_congr {α : Type} {n : Network} {q : Except Error Request}
    {f g : Url → Reply → Except Error α}
    (same : n.takes q.toOption ≠ [] → ∀ url, f url (n.reply 0) = g url (n.reply 0)) :
    outcome n f q = outcome n g q := by
  cases q with
  | error e => rfl
  | ok r =>
    rw [outcome, outcome]
    cases hears : n.hears r with
    | false => rfl
    | true =>
      refine same ?_ r.url
      rw [Except.toOption, Network.takes, hears, if_pos rfl]
      exact List.cons_ne_nil _ _

theorem outcome_of_takes {α : Type} {n : Network} {q : Except Error Request}
    (heard : n.takes q.toOption ≠ []) (f : Url → Reply → Except Error α) :
    ∃ url, outcome n f q = f url (n.reply 0) := by
  cases q with
  | error e => exact absurd rfl heard
  | ok r =>
    rw [Except.toOption, Network.takes] at heard
    split_ifs at heard with hears
    · exact ⟨r.url, if_pos hears⟩
    · exact absurd rfl heard

section

variable {eid : Json} {op : Operation} {k : Call} {c : Client} {n : Network} {body : String}

theorem Removes.perform_eq (h : Removes eid op k) (c : Client) (n : Network) :
    k.perform c n = c.invokeUnit op (.object [("eid", eid)]) n := by
  cases h <;> rfl

theorem Removes.request?_eq (h : Removes eid op k) (c : Client) :
    k.request? c = ((c.operationUrl op).map (c.postRequest · (eidInput eid))).toOption := by
  have hposting : k.request? c = c.posting? op (eidInput eid) := by cases h <;> rfl
  rw [hposting, posting?]
  cases c.operationUrl op <;> rfl

theorem Removes.same_network (h : Removes eid op k) (c : Client) (n : Network) :
    (c.removeRaw op (eidInput eid) n).2 = (k.perform c n).2 := by
  rw [(c.exchanged_removeRaw op (eidInput eid) n).network_eq, h.perform_eq,
    (c.exchanged_invokeUnit op (.object [("eid", eid)]) n).network_eq]
  rfl

theorem Removes.same_outcome (h : Removes eid op k)
    (same : n.takes (k.request? c) ≠ [] → ∀ url,
      ((n.reply 0).posted Json.value url).map (fun _ => ()) =
        ((n.reply 0).posted (readOutput Json.value .null) url).map fun _ => ()) :
    (c.removeRaw op (eidInput eid) n).1 = (k.perform c n).1 := by
  rw [removeRaw_fst, h.perform_eq, invokeUnit_fst]
  refine outcome_congr fun heard url => ?_
  rw [← h.request?_eq] at heard
  rw [Reply.acceptance_eq]
  exact same heard url

theorem Removes.of_silent (h : Removes eid op k)
    (silent : n.takes (k.request? c) = [] ∨ ∀ body, ¬(n.reply 0).Speaks body) :
    (c.removeRaw op (eidInput eid) n).1 = (k.perform c n).1 := by
  refine h.same_outcome fun heard url => ?_
  have hsilent := silent.resolve_left heard
  rw [Reply.posted_of_silent hsilent, Reply.posted_of_silent hsilent]

theorem Removes.of_faulty (h : Removes eid op k) (speaks : (n.reply 0).Speaks body)
    {read : Json.Fault} {skip : Option Json.Fault}
    (faulty : (Json.Doc.ofText body).1 = .faulty read skip) :
    (c.removeRaw op (eidInput eid) n).1 = (k.perform c n).1 := by
  refine h.same_outcome fun _ url => ?_
  have hvalue : Json.decodeText Json.value body = .error (Json.Flaw.at (.malformed read) .reading) :=
    Json.decodeText_of_faulty faulty rfl
  have houtput : Json.decodeText (readOutput Json.value .null) body =
      .error (Json.Flaw.at (.malformed read) .reading) :=
    Json.decodeText_of_faulty faulty rfl
  rw [Reply.posted_of_speaks speaks, Reply.posted_of_speaks speaks, decodeBody, decodeBody, hvalue,
    houtput]

theorem Removes.raw_iff (h : Removes eid op k) (heard : n.takes (k.request? c) ≠ [])
    (speaks : (n.reply 0).Speaks body) :
    (c.removeRaw op (eidInput eid) n).1 = .ok () ↔
      ∃ v, Json.decodeText Json.value body = .ok v := by
  rw [h.request?_eq] at heard
  obtain ⟨url, houtcome⟩ := outcome_of_takes heard Reply.acceptance
  rw [removeRaw_fst, houtcome, Reply.acceptance_eq_ok, speaks.accepts_iff]

theorem Removes.typed_iff (h : Removes eid op k) (heard : n.takes (k.request? c) ≠ [])
    (speaks : (n.reply 0).Speaks body) :
    (k.perform c n).1 = .ok () ↔ (Json.Doc.ofText body).1.ReadableOutput ∧
      (Json.Doc.ofText body).1.SingleOutput ∧ Json.Whole body := by
  rw [h.request?_eq] at heard
  obtain ⟨url, houtcome⟩ := outcome_of_takes heard fun url r =>
    (r.posted (readOutput Json.value .null) url).map fun _ => ()
  have hperform : (k.perform c n).1 =
      ((n.reply 0).posted (readOutput Json.value .null) url).map fun _ => () := by
    rw [h.perform_eq, invokeUnit_fst]
    exact houtcome
  rw [hperform, Reply.posted_of_speaks speaks, Json.map_eq_ok]
  simp only [decodeBody_eq_ok, and_true]
  rw [Json.exists_decodeText_iff, Json.readOutput_iff, and_assoc]

theorem Removes.typed_iff_of_json (h : Removes eid op k) (heard : n.takes (k.request? c) ≠ [])
    (speaks : (n.reply 0).Speaks body) {v : Json} (json : Json.decodeText Json.value body = .ok v) :
    (k.perform c n).1 = .ok () ↔ (Json.Doc.ofText body).1.SingleOutput := by
  obtain ⟨⟨w, hw⟩, hwhole⟩ := (Json.exists_decodeText_iff Json.value body).1 ⟨v, json⟩
  rw [h.typed_iff heard speaks]
  exact ⟨fun h => h.2.1, fun hsingle =>
    ⟨Json.Doc.readableOutput_of_capture (Json.capture_of_value hw) hsingle, hsingle, hwhole⟩⟩

/-- The two removals send the same, and mostly make the same of the reply. They agree unless a
success with a text is received, and on a text that no JSON value begins. Of the other texts a
finished body takes those that are JSON. The removal of an identifier takes the documents whose one
output can be read, whatever else it passes over; of those that are JSON, the ones that have one
output at most. -/
theorem removals_compare (h : Removes eid op k) (c : Client) (n : Network) :
    (Call.removeRaw op (eidInput eid)).request? c = k.request? c ∧
    (c.removeRaw op (eidInput eid) n).2 = (k.perform c n).2 ∧
    ((n.takes (k.request? c) = [] ∨ ∀ body, ¬(n.reply 0).Speaks body) →
      (c.removeRaw op (eidInput eid) n).1 = (k.perform c n).1) ∧
    (∀ body read skip, (n.reply 0).Speaks body → (Json.Doc.ofText body).1 = .faulty read skip →
      (c.removeRaw op (eidInput eid) n).1 = (k.perform c n).1) ∧
    ∀ body, n.takes (k.request? c) ≠ [] → (n.reply 0).Speaks body →
      ((c.removeRaw op (eidInput eid) n).1 = .ok () ↔
        ∃ v, Json.decodeText Json.value body = .ok v) ∧
      ((k.perform c n).1 = .ok () ↔ (Json.Doc.ofText body).1.ReadableOutput ∧
        (Json.Doc.ofText body).1.SingleOutput ∧ Json.Whole body) ∧
      ∀ v, Json.decodeText Json.value body = .ok v →
        ((k.perform c n).1 = .ok () ↔ (Json.Doc.ofText body).1.SingleOutput) := by
  refine ⟨?_, h.same_network c n, h.of_silent,
    fun body read skip speaks faulty => h.of_faulty speaks faulty,
    fun body heard speaks => ⟨h.raw_iff heard speaks, h.typed_iff heard speaks,
      fun v json => h.typed_iff_of_json heard speaks json⟩⟩
  cases h <;> rfl

end

def plainClient : Client :=
  ⟨⟨"http", some ⟨"", none, .domain "odl", none⟩, .segments [""], none, none⟩, none⟩

def replying (body : String) : Network := ⟨fun _ => true, [.answer 200 body], []⟩

theorem replying_heard (body : String) :
    (replying body).takes ((Call.removeMapping (.ofNat 1)).request? plainClient) ≠ [] := by
  have hurl : (plainClient.operationUrl .removeMapping).toOption =
      some ⟨"http", some ⟨"", none, .domain "odl", none⟩,
        .segments ["restconf", "operations", "odl-mappingservice:remove-mapping"], none, none⟩ := by
    decide +kernel
  have hrequest : (Call.removeMapping (.ofNat 1)).request? plainClient =
      (plainClient.operationUrl .removeMapping).toOption.map
        (plainClient.postRequest · (eidInput (.ofNat 1))) := rfl
  rw [hrequest, hurl, Option.map_some, Network.takes]
  exact List.cons_ne_nil _ _

def emptyOutput : Json := .object [("output", .object [])]

theorem spells_emptyOutput : Json.Spells emptyOutput.compact emptyOutput :=
  Json.spells_compact (.object (List.forall_mem_singleton.2 (.object fun _ hf =>
    absurd hf List.not_mem_nil)))

theorem empty_output_suits_both :
    (plainClient.removeRaw .removeMapping (eidInput (.ofNat 1)) (replying emptyOutput.compact)).1 =
        .ok () ∧
      (plainClient.removeMapping (.ofNat 1) (replying emptyOutput.compact)).1 = .ok () := by
  obtain ⟨-, -, -, -, htext⟩ := removals_compare (.mapping : Removes (.ofNat 1) _ _) plainClient
    (replying emptyOutput.compact)
  have hdocument : (Json.Doc.ofText emptyOutput.compact).1 = emptyOutput.toDoc 0 := by
    obtain ⟨rest, hdoc, -⟩ := spells_emptyOutput
    rw [hdoc]
  have hjson : Json.decodeText Json.value emptyOutput.compact = .ok emptyOutput :=
    (spells_emptyOutput.decodeText Json.value).trans rfl
  obtain ⟨hraw, -, htyped⟩ := htext emptyOutput.compact (replying_heard _)
    (.success rfl (by decide +kernel))
  exact ⟨hraw.2 ⟨_, hjson⟩, (htyped _ hjson).2 (hdocument ▸ Nat.le_refl 1)⟩

/-- An answer that is neither an object nor an array. -/
theorem bare_answer_divides :
    (plainClient.removeRaw .removeMapping (eidInput (.ofNat 1)) (replying "true")).1 = .ok () ∧
      (plainClient.removeMapping (.ofNat 1) (replying "true")).1 ≠ .ok () := by
  have hremoves : Removes (.ofNat 1) .removeMapping (.removeMapping (.ofNat 1)) := .mapping
  have hspells : Json.Spells "true" (.bool true) := Json.spells_compact (.bool true)
  have hdocument : (Json.Doc.ofText "true").1 = .bool true := by
    obtain ⟨rest, hdoc, -⟩ := hspells
    rw [hdoc]
    rfl
  have hjson : Json.decodeText Json.value "true" = .ok (.bool true) :=
    (hspells.decodeText Json.value).trans rfl
  have hspeaks : ((replying "true").reply 0).Speaks "true" := .success rfl (by decide +kernel)
  have htyped := hremoves.typed_iff_of_json (replying_heard "true") hspeaks hjson
  rw [hdocument] at htyped
  exact ⟨(hremoves.raw_iff (replying_heard "true") hspeaks).2 ⟨_, hjson⟩, htyped.1⟩

end Client

end Rpc

end EidMap
