import Mathlib.Algebra.GroupWithZero.Nat
import Mathlib.Data.List.Basic
import Mathlib.Data.List.Induction
import Mathlib.Data.List.Nodup

namespace Outbox

/-!
# Lists

What replacing an element does to a list in which every actor has a place:

* `getElem?_set_cases`, `exists_mem_set` — the other elements stay.
* `sum_map_set`, `le_sum_map`, `sum_map_toNat` — sums over the list.

The first occurrences of the elements of a list that grows at its end:

* `eraseDups_concat`, `nodup_eraseDups` — an element is added to them only if it is new.

The last element of a list of which something holds, and lists of pairs that are searched by key:

* `IsLast`, `isLast_concat` — an element that is added at the end is the last one, or changes none.
* `lookup_filter_ne` — the other keys do not matter.
-/

variable {α : Type} {l : List α} {i j : Nat} {a b : α}

/-- What stands in a list after a replacement is new, or was there at another place. -/
theorem getElem?_set_cases (h : (l.set i b)[j]? = some a) :
    (j = i ∧ a = b) ∨ (j ≠ i ∧ l[j]? = some a) := by
  by_cases hij : i = j
  · subst hij
    rw [List.getElem?_set_self'] at h
    obtain ⟨_, _, rfl⟩ := Option.map_eq_some_iff.1 h
    exact .inl ⟨rfl, rfl⟩
  · rw [List.getElem?_set_ne hij] at h
    exact .inr ⟨Ne.symm hij, h⟩

/-- What is somewhere in a list is so after a replacement that keeps it up. -/
theorem exists_mem_set {p : α → Prop} (h : l[i]? = some a) (hkeep : p a → p b)
    (hex : ∃ x ∈ l, p x) : ∃ x ∈ l.set i b, p x := by
  obtain ⟨x, hx, hp⟩ := hex
  obtain ⟨k, hk⟩ := List.mem_iff_getElem?.1 hx
  by_cases hik : i = k
  · subst hik
    obtain rfl := Option.some.inj (h.symm.trans hk)
    exact ⟨b, List.mem_set (List.getElem?_eq_some_iff.1 h).1 b, hkeep hp⟩
  · exact ⟨x, List.mem_of_getElem? ((List.getElem?_set_ne hik).trans hk), hp⟩

/-- What stands in a list after an element is added was there before, or is new and stands at the
    end. -/
theorem getElem?_concat_cases (h : (l ++ [b])[j]? = some a) :
    l[j]? = some a ∨ (j = l.length ∧ a = b) := by
  rw [List.getElem?_append] at h
  split at h
  · exact .inl h
  · next hj =>
    obtain ⟨hlt, heq⟩ := List.getElem?_eq_some_iff.1 h
    rw [List.length_singleton] at hlt
    refine .inr ⟨by omega, ?_⟩
    rw [← heq, List.getElem_singleton]

/-- Replacing an element changes a sum by the difference. -/
theorem sum_map_set (f : α → Nat) (b : α) (h : l[i]? = some a) :
    ((l.set i b).map f).sum + f a = (l.map f).sum + f b := by
  induction l generalizing i with
  | nil => cases h
  | cons x l ih =>
    cases i with
    | zero =>
      cases h
      simp only [List.set_cons_zero, List.map_cons, List.sum_cons]
      omega
    | succ i =>
      have := ih (i := i) (by simpa using h)
      simp only [List.set_cons_succ, List.map_cons, List.sum_cons]
      omega

theorem le_sum_map (f : α → Nat) (h : a ∈ l) : f a ≤ (l.map f).sum := by
  obtain ⟨xs, ys, rfl⟩ := List.append_of_mem h
  rw [List.map_append, List.sum_append, List.map_cons, List.sum_cons]
  omega

/-- Counting one for each element of a kind. -/
theorem sum_map_toNat (p : α → Bool) (l : List α) :
    (l.map fun a => (p a).toNat).sum = l.countP p := by
  induction l with
  | nil => rfl
  | cons a l ih =>
    rw [List.map_cons, List.sum_cons, List.countP_cons, ih, Nat.add_comm]
    cases p a <;> rfl

/-! ### First occurrences -/

section Distinct

variable {α : Type} [BEq α] [LawfulBEq α]

/-- An element that is added at the end is left only if it is new. -/
theorem eraseDups_concat (l : List α) (a : α) :
    (l ++ [a]).eraseDups = if a ∈ l then l.eraseDups else l.eraseDups ++ [a] := by
  rw [List.eraseDups_append]
  split
  · next h => simp [List.removeAll, h]
  · next h => simp [List.removeAll, h, List.eraseDups_cons]

/-- No element is left twice. -/
theorem nodup_eraseDups (l : List α) : l.eraseDups.Nodup := by
  induction l using List.reverseRecOn with
  | nil => exact List.nodup_nil
  | append_singleton l a ih =>
    rw [eraseDups_concat]
    split
    · exact ih
    · next hnew =>
      have hnew' : a ∉ l.eraseDups := fun hin => hnew (List.mem_eraseDups.1 hin)
      rw [List.nodup_append_comm, List.singleton_append, List.nodup_cons]
      exact ⟨hnew', ih⟩

end Distinct

/-! ### The last of a kind -/

section Last

variable {p : α → Prop}

/-- An element of a list of which something holds, and of none after it. -/
def IsLast (p : α → Prop) (l : List α) (a : α) : Prop :=
  p a ∧ ∃ before after, l = before ++ a :: after ∧ ∀ b ∈ after, ¬ p b

theorem not_isLast_nil : ¬ IsLast p [] a := by
  rintro ⟨-, before, after, heq, -⟩
  simp at heq

/-- An element that is added at the end is the last one if it is of the kind. -/
theorem isLast_concat [DecidablePred p] :
    IsLast p (l ++ [b]) a ↔ if p b then a = b else IsLast p l a := by
  constructor
  · rintro ⟨ha, before, after, heq, hafter⟩
    rcases List.eq_nil_or_concat' after with rfl | ⟨after, last, rfl⟩
    · obtain rfl := List.singleton_inj.1 (List.append_inj' heq rfl).2
      rw [if_pos ha]
    · rw [← List.cons_append, ← List.append_assoc] at heq
      obtain ⟨rfl, hlast⟩ := List.append_inj' heq rfl
      obtain rfl := List.singleton_inj.1 hlast
      rw [if_neg (hafter b List.mem_concat_self)]
      exact ⟨ha, before, after, rfl, fun x hx => hafter x (List.mem_append_left _ hx)⟩
  · split
    · next hb =>
      rintro rfl
      exact ⟨hb, l, [], rfl, by simp⟩
    · next hb =>
      rintro ⟨ha, before, after, rfl, hafter⟩
      refine ⟨ha, before, after ++ [b], by simp, fun x hx => ?_⟩
      rcases List.mem_append.1 hx with hx | hx
      · exact hafter x hx
      · rwa [List.mem_singleton.1 hx]

end Last

/-! ### Lists of pairs -/

/-- What is found under a key does not depend on the other keys. -/
theorem lookup_filter_ne {κ β : Type} [BEq κ] [LawfulBEq κ] {k other : κ} (l : List (κ × β))
    (h : other ≠ k) : (l.filter fun x => x.1 != k).lookup other = l.lookup other := by
  induction l with
  | nil => rfl
  | cons x l ih =>
    obtain ⟨key, value⟩ := x
    by_cases hkey : key = k
    · have hother : (other == key) = false := by simpa [hkey] using h
      rw [List.filter_cons_of_neg (by simp [hkey]), List.lookup_cons, hother, ih]
    · rw [List.filter_cons_of_pos (by simpa using hkey), List.lookup_cons, List.lookup_cons, ih]

end Outbox
