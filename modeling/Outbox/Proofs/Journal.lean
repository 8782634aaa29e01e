import Outbox.Journal
import Outbox.Proofs.Lists

namespace Outbox

/-!
# Totals

What the measures of a journal add up to:

* `Measure.isGauge`, `Journal.counts` — the measures that add to a total, and do not replace one.
* `Measure.adds` — by how much a measure adds to the total of a name.
* `Journal.total` — the total of a name.
* `Journal.total_eq_sum` — it is the sum of what the measures add to it, unless measures replace it.
-/

namespace Measure

/-- Whether a measure replaces a total. -/
def isGauge : Measure → Bool
  | depth _ => true
  | _ => false

/-- By how much a measure adds to the total of a name. -/
def adds (name : String) (m : Measure) : Nat :=
  (m.changes.map fun (n, c) => if n = name then c.apply 0 else 0).sum

variable {name : String}

/-- Only one total is replaced. -/
theorem add_of_mem_changes {m : Measure} {n : String} {c : Change} (h : (n, c) ∈ m.changes)
    (hn : n ≠ "spool.queue.depth") : ∃ k, c = .add k := by
  cases m with
  | enqueued bytes =>
    simp only [changes, List.mem_cons, Prod.mk.injEq, List.not_mem_nil, or_false] at h
    rcases h with ⟨-, rfl⟩ | ⟨-, rfl⟩ | ⟨-, rfl⟩ <;> exact ⟨_, rfl⟩
  | passed delivered ok =>
    simp only [changes, List.mem_cons, Prod.mk.injEq, List.not_mem_nil, or_false] at h
    rcases h with ⟨-, rfl⟩ | ⟨-, rfl⟩ | ⟨-, rfl⟩ <;> exact ⟨_, rfl⟩
  | dropped count =>
    simp only [changes, List.mem_cons, Prod.mk.injEq, List.not_mem_nil, or_false] at h
    exact ⟨_, h.2⟩
  | depth count =>
    simp only [changes, List.mem_cons, Prod.mk.injEq, List.not_mem_nil, or_false] at h
    exact absurd h.1 hn

/-- A measure that replaces a total adds to no other one. -/
theorem adds_of_isGauge {m : Measure} (h : m.isGauge = true) (hn : name ≠ "spool.queue.depth") :
    m.adds name = 0 := by
  cases m with
  | depth count =>
    show (if "spool.queue.depth" = name then _ else 0) + 0 = 0
    rw [if_neg hn.symm]
    rfl
  | _ => cases h

end Measure

namespace Journal

/-- The total of a name, which is zero unless something changes it. -/
def total (name : String) (j : Journal) : Nat := ((totals j).lookup name).getD 0

/-- The measures of a journal that add to totals, the oldest first. -/
def counts (j : Journal) : List Measure := (measures j).filter fun m => !m.isGauge

variable {j k : Journal} {name : String}

theorem counts_append (j k : Journal) : counts (j ++ k) = counts j ++ counts k := by
  unfold counts measures
  rw [List.filterMap_append, List.filter_append]

theorem lookup_cons_getD (n : String) (k : Nat) (ts : List (String × Nat)) :
    (((n, k) :: ts).lookup name).getD 0 = if n = name then k else (ts.lookup name).getD 0 := by
  rw [List.lookup_cons]
  by_cases hn : n = name
  · rw [if_pos hn, hn, beq_self_eq_true]
    rfl
  · rw [if_neg hn, beq_eq_false_iff_ne.2 fun heq => hn heq.symm]

/-- What a change of one total makes of another one. -/
theorem lookup_changeTotal (n : String) (c : Change) (ts : List (String × Nat)) :
    ((changeTotal n c ts).lookup name).getD 0 =
      if n = name then c.apply ((ts.lookup name).getD 0) else (ts.lookup name).getD 0 := by
  induction ts with
  | nil => exact lookup_cons_getD n (c.apply 0) []
  | cons t ts ih =>
    obtain ⟨n', total⟩ := t
    unfold changeTotal
    by_cases heq : n' = n
    · subst heq
      rw [if_pos rfl, lookup_cons_getD, lookup_cons_getD]
      split <;> rfl
    · rw [if_neg heq, lookup_cons_getD, lookup_cons_getD, ih]
      by_cases hn' : n' = name
      · rw [if_pos hn', if_neg fun hn => heq (hn'.trans hn.symm), if_pos hn']
      · rw [if_neg hn', if_neg hn']

theorem lookup_changes {cs : List (String × Change)}
    (hadd : ∀ n c, (n, c) ∈ cs → n = name → ∃ k, c = .add k) (ts : List (String × Nat)) :
    ((cs.foldl (fun t (n, c) => changeTotal n c t) ts).lookup name).getD 0 =
      (ts.lookup name).getD 0 + (cs.map fun (n, c) => if n = name then c.apply 0 else 0).sum := by
  induction cs generalizing ts with
  | nil => rfl
  | cons x cs ih =>
    obtain ⟨n, c⟩ := x
    rw [List.foldl_cons, ih fun n c hc => hadd n c (List.mem_cons_of_mem _ hc), List.map_cons,
      List.sum_cons, lookup_changeTotal]
    by_cases hn : n = name
    · obtain ⟨k, rfl⟩ := hadd n c List.mem_cons_self hn
      simp only [if_pos hn, Change.apply]
      omega
    · simp only [if_neg hn]
      omega

/-- A total that no measure replaces is the sum of what the measures add to it. -/
theorem total_eq_sum (hn : name ≠ "spool.queue.depth") (j : Journal) :
    total name j = ((counts j).map (Measure.adds name)).sum := by
  have hmeasures : ∀ (ms : List Measure) (ts : List (String × Nat)),
      ((ms.foldl (fun ts m => m.changes.foldl (fun t (n, c) => changeTotal n c t) ts) ts).lookup
        name).getD 0 = (ts.lookup name).getD 0 + (ms.map (Measure.adds name)).sum := by
    intro ms
    induction ms with
    | nil => exact fun ts => rfl
    | cons m ms ih =>
      intro ts
      rw [List.foldl_cons, ih, lookup_changes, List.map_cons, List.sum_cons]
      · exact Nat.add_assoc _ _ _
      · rintro n c hc rfl
        exact Measure.add_of_mem_changes hc hn
  have hfilter : ((counts j).map (Measure.adds name)).sum =
      ((measures j).map (Measure.adds name)).sum := by
    unfold counts
    induction measures j with
    | nil => rfl
    | cons m ms ih =>
      cases hm : m.isGauge with
      | true =>
        rw [List.filter_cons_of_neg (by simp [hm]), ih, List.map_cons, List.sum_cons,
          Measure.adds_of_isGauge hm hn, Nat.zero_add]
      | false =>
        rw [List.filter_cons_of_pos (by simp [hm]), List.map_cons, List.map_cons, List.sum_cons,
          List.sum_cons, ih]
  rw [hfilter]
  exact (hmeasures (measures j) []).trans (Nat.zero_add _)

end Journal

end Outbox
