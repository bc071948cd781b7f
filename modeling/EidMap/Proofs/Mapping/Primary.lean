import EidMap.Locator
import Mathlib.Data.List.Pairwise

/-!
# The primary locator

The primary locator is found in one pass, which keeps the first of the best locators read so far. So the
order of the list has a say only where two locators are equally good.
-/

namespace EidMap.Locator

/-- A lower priority is better, and of two equal ones the higher weight. -/
def Outdoes (l m : Locator) : Prop :=
  l.priority < m.priority ∨ l.priority = m.priority ∧ m.weight < l.weight

/-- No locator of the list has a lower priority, and none of the same priority a higher weight. -/
structure Best (ls : List Locator) (l : Locator) : Prop where
  priority : ∀ m ∈ ls, l.priority ≤ m.priority
  weight : ∀ m ∈ ls, m.priority = l.priority → m.weight ≤ l.weight

/-- One of the best, with nothing but worse ones before it. -/
structure FirstBest (ls : List Locator) (l : Locator) : Prop extends Best ls l where
  first : ∃ front back, ls = front ++ l :: back ∧ ∀ m ∈ front, l.Outdoes m

variable {l m n : Locator} {ls ks : List Locator}

theorem precedes_iff : l.precedes m = true ↔ l.Outdoes m := by
  simp [precedes, Outdoes]

theorem outdoes_iff : l.Outdoes m ↔ l.priority.toNat < m.priority.toNat ∨
    l.priority.toNat = m.priority.toNat ∧ m.weight.toNat < l.weight.toNat := by
  rw [Outdoes, UInt8.lt_iff_toNat_lt, UInt8.lt_iff_toNat_lt, UInt8.toNat_inj]

theorem Outdoes.trans (h : l.Outdoes m) (h' : m.Outdoes n) : l.Outdoes n := by
  rw [outdoes_iff] at h h' ⊢
  omega

theorem Outdoes.of_not (h : l.Outdoes m) (h' : ¬ n.Outdoes m) : l.Outdoes n := by
  rw [outdoes_iff] at h h' ⊢
  omega

theorem best_iff : Best ls l ↔ ∀ m ∈ ls, ¬ m.Outdoes l := by
  have hm : ∀ m : Locator, ¬ m.Outdoes l ↔
      l.priority ≤ m.priority ∧ (m.priority = l.priority → m.weight ≤ l.weight) := by
    intro m
    rw [outdoes_iff, UInt8.le_iff_toNat_le, UInt8.le_iff_toNat_le, ← UInt8.toNat_inj]
    omega
  refine ⟨fun h m hmem => (hm m).2 ⟨h.priority m hmem, h.weight m hmem⟩, fun h => ⟨?_, ?_⟩⟩
  · exact fun m hmem => ((hm m).1 (h m hmem)).1
  · exact fun m hmem => ((hm m).1 (h m hmem)).2

theorem Best.perm (h : Best ls l) (hp : ks.Perm ls) : Best ks l :=
  ⟨fun m hm => h.priority m (hp.mem_iff.1 hm), fun m hm => h.weight m (hp.mem_iff.1 hm)⟩

theorem Best.alike (h : Best ls l) (hl : l ∈ ls) (h' : Best ls m) (hm : m ∈ ls) :
    m.priority = l.priority ∧ m.weight = l.weight := by
  have hpriority : m.priority = l.priority :=
    UInt8.le_antisymm (h'.priority l hl) (h.priority m hm)
  exact ⟨hpriority, UInt8.le_antisymm (h.weight m hm hpriority) (h'.weight l hl hpriority.symm)⟩

theorem FirstBest.mem (h : FirstBest ls l) : l ∈ ls := by
  obtain ⟨front, back, rfl, -⟩ := h.first
  exact List.mem_append_right _ List.mem_cons_self

theorem firstBest_singleton (l : Locator) : FirstBest [l] l where
  toBest := best_iff.2 fun m hm => by
    rw [List.mem_singleton.1 hm, outdoes_iff]
    omega
  first := ⟨[], [], rfl, List.forall_mem_nil _⟩

theorem FirstBest.snoc (h : FirstBest ls l) (m : Locator) :
    FirstBest (ls ++ [m]) (if m.precedes l then m else l) := by
  have hbest := best_iff.1 h.toBest
  split
  · rename_i hm
    rw [precedes_iff] at hm
    have hworse : ∀ k ∈ ls, m.Outdoes k := fun k hk => hm.of_not (hbest k hk)
    refine ⟨best_iff.2 fun k hk hkm => ?_, ls, [], rfl, hworse⟩
    rcases List.mem_append.1 hk with hk | hk
    · exact hbest k hk (hkm.trans hm)
    · rw [List.mem_singleton.1 hk, outdoes_iff] at hkm
      omega
  · rename_i hm
    rw [precedes_iff] at hm
    obtain ⟨front, back, rfl, hfront⟩ := h.first
    refine ⟨best_iff.2 fun k hk => ?_, front, back ++ [m], by simp, hfront⟩
    rcases List.mem_append.1 hk with hk | hk
    · exact hbest k hk
    · rwa [List.mem_singleton.1 hk]

theorem FirstBest.foldl (h : FirstBest ls l) (rest : List Locator) :
    FirstBest (ls ++ rest) (rest.foldl (fun best m => if m.precedes best then m else best) l) := by
  induction rest generalizing ls l with
  | nil => rwa [List.append_nil]
  | cons m rest ih =>
    rw [List.append_cons]
    exact ih (h.snoc m)

theorem exists_primary? (h : ls ≠ []) : ∃ l, primary? ls = some l ∧ FirstBest ls l := by
  cases ls with
  | nil => exact absurd rfl h
  | cons l rest => exact ⟨_, rfl, (firstBest_singleton l).foldl rest⟩

def Untied (ls : List Locator) : Prop := ls.Pairwise fun l m => ¬ (Best ls l ∧ Best ls m)

theorem Untied.eq (h : Untied ls) (hl : l ∈ ls) (hbest : Best ls l) (hm : m ∈ ls)
    (hbest' : Best ls m) : m = l := by
  have hsymm : Std.Symm fun l m => ¬ (Best ls l ∧ Best ls m) := ⟨fun _ _ hn hb => hn hb.symm⟩
  by_contra hne
  exact h.forall hm hl hne ⟨hbest', hbest⟩

theorem exists_primary?_of_perm (h : FirstBest ls l) (hp : ks.Perm ls) :
    ∃ m ∈ ls, primary? ks = some m ∧ Best ls m := by
  have hne : ks ≠ [] := List.ne_nil_of_mem (hp.mem_iff.2 h.mem)
  obtain ⟨m, hm, hfirst⟩ := exists_primary? hne
  exact ⟨m, hp.mem_iff.1 hfirst.mem, hm, hfirst.toBest.perm hp.symm⟩

/-- What a summary shows of a primary locator and of how many locators there are. -/
structure Shows (s : Summary) (l : Locator) (count : Nat) : Prop where
  counted : s.locators = l.address.display ++ " (+" ++ Text.natText (count - 1) ++ ")" ↔ 1 < count
  alone : s.locators = l.address.display ↔ ¬ 1 < count
  flags : s.flags = l.flags
  ttl : s.ttl = l.ttl

theorem ofLocators_eq {action : Action} (h : primary? ls = some l) :
    Summary.ofLocators ls action =
      ⟨l.address.display ++
        if 1 < ls.length then " (+" ++ Text.natText (ls.length - 1) ++ ")" else "",
        l.flags, l.ttl⟩ := by
  rw [Summary.ofLocators, h]

theorem shows_ofLocators {action : Action} (h : primary? ls = some l) :
    Shows (Summary.ofLocators ls action) l ls.length := by
  have hlong : ∀ s t : String, s ++ " (+" ++ t ++ ")" ≠ s := by
    intro s t hst
    have hlength := congrArg (fun u => u.toList.length) hst
    simp at hlength
  rw [ofLocators_eq h]
  by_cases hone : 1 < ls.length
  · refine ⟨iff_of_true ?_ hone, iff_of_false ?_ fun hn => hn hone, rfl, rfl⟩
    · simp only [if_pos hone, String.append_assoc]
    · simp only [if_pos hone, ← String.append_assoc]
      exact hlong _ _
  · refine ⟨iff_of_false ?_ hone, iff_of_true ?_ hone, rfl, rfl⟩
    · simp only [if_neg hone, String.append_empty]
      exact (hlong _ _).symm
    · simp only [if_neg hone, String.append_empty]

/-- The primary locator is the first of the best. In another order the primary one is as good, and the
summary is the same unless two locators are equally good; it shows the primary locator and how many
others there are. -/
theorem first_best_shown (h : ls ≠ []) :
    ∃ l, primary? ls = some l ∧ FirstBest ls l ∧
      (∀ ks, ks.Perm ls → ∃ m, primary? ks = some m ∧
        m.priority = l.priority ∧ m.weight = l.weight) ∧
      (Untied ls → ∀ ks, ks.Perm ls → ∀ action,
        Summary.ofLocators ks action = Summary.ofLocators ls action) ∧
      ∀ action, Shows (Summary.ofLocators ls action) l ls.length := by
  obtain ⟨l, hl, hfirst⟩ := exists_primary? h
  refine ⟨l, hl, hfirst, fun ks hp => ?_, fun huntied ks hp action => ?_, fun action =>
    shows_ofLocators hl⟩
  · obtain ⟨m, hmem, hm, hbest⟩ := exists_primary?_of_perm hfirst hp
    exact ⟨m, hm, hfirst.toBest.alike hfirst.mem hbest hmem⟩
  · obtain ⟨m, hmem, hm, hbest⟩ := exists_primary?_of_perm hfirst hp
    rw [ofLocators_eq hm, ofLocators_eq hl, hp.length_eq,
      huntied.eq hfirst.mem hfirst.toBest hmem hbest]

/-- Of two locators with the lowest priority the heavier one is shown, wherever it stands. -/
theorem heavier_locator_shown :
    let ls := [{ neutral (.asNumber 1) with priority := 2 }, neutral (.asNumber 2),
      { neutral (.asNumber 3) with weight := 200 }]
    ls ≠ [] ∧ Untied ls ∧
      Summary.ofLocators ls.reverse .drop = ⟨"as:AS3 (+2)", "Up", "1/200/255/0"⟩ := by
  intro ls
  have hne : ls ≠ [] := List.cons_ne_nil _ _
  obtain ⟨l, hl, hfirst, -, hsame, -⟩ := first_best_shown hne
  cases hl
  have huntied : Untied ls := by
    have hthird : ∀ m, Best ls m → m.priority ≤ 1 ∧ (m.priority = 1 → 200 ≤ m.weight) := by
      intro m hm
      have hmem := hfirst.mem
      exact ⟨hm.priority _ hmem, fun hone => hm.weight _ hmem hone.symm⟩
    have hworse : ¬ Best ls ls[0] := fun hm => absurd (hthird _ hm).1 (by decide)
    have hlighter : ¬ Best ls ls[1] := fun hm => absurd ((hthird _ hm).2 rfl) (by decide)
    refine .cons ?_ (.cons ?_ (.cons (List.forall_mem_nil _) .nil))
    · exact fun m _ hb => hworse hb.1
    · exact fun m _ hb => hlighter hb.1
  refine ⟨hne, huntied, ?_⟩
  rw [hsame huntied _ (List.reverse_perm ls)]
  decide +kernel

end EidMap.Locator
