import Mathlib.Data.List.Nodup
import Outbox.Table

namespace Outbox.Table

/-!
# Tables as sets of entries

What follows for a table from the order of its keys:

* `eq_of_key_eq` — a key has at most one entry.
* `eq_of_mem_iff`, `ext_get?` — the entries in order, and the table, follow from the values.
* `get?_eq_some_iff` — the values that `get?` gives are those of the entries.
* `mem_insert_iff`, `mem_erase_iff` — the entries after a change.
* `size_insert`, `size_erase` — the number of entries after a change.
* `toList_erase_middle` — erasing a key takes its entry out and leaves the others in their places.
* `eraseAll` — a table without some keys; `get?_eraseAll` and `size_eraseAll` say what is left.
-/

/-! ### Entries and keys -/

/-- No key occurs twice. -/
theorem nodup_keys (t : Table) : (t.toList.map Entry.key).Nodup := by
  rw [List.nodup_iff_pairwise_ne, List.pairwise_map]
  refine t.sorted.imp fun {a b} hlt heq => ?_
  rw [heq] at hlt
  exact Bytes.lt_irrefl _ hlt

/-- No entry occurs twice. -/
theorem nodup (t : Table) : t.toList.Nodup := .of_map _ t.nodup_keys

/-- Two entries with the same key are the same entry. -/
theorem eq_of_key_eq {t : Table} {a b : Entry} (ha : a ∈ t.toList) (hb : b ∈ t.toList)
    (h : a.key = b.key) : a = b :=
  List.inj_on_of_nodup_map t.nodup_keys ha hb h

/-- What is found under a key is the entry with this key. -/
theorem find?_eq_some_iff {t : Table} {k : Bytes} {e : Entry} :
    t.find? k = some e ↔ e ∈ t.toList ∧ e.key = k := by
  unfold find?
  constructor
  · intro h
    exact ⟨List.mem_of_find?_eq_some h, by simpa using List.find?_some h⟩
  · rintro ⟨he, rfl⟩
    cases hf : t.toList.find? fun x => x.key = e.key with
    | none =>
      have := List.find?_eq_none.1 hf e he
      simp at this
    | some x =>
      have hx : x.key = e.key := by simpa using List.find?_some hf
      rw [eq_of_key_eq (List.mem_of_find?_eq_some hf) he hx]

/-- A key has a value exactly if the two are an entry. -/
theorem get?_eq_some_iff {t : Table} {k v : Bytes} :
    t.get? k = some v ↔ (⟨k, v⟩ : Entry) ∈ t.toList := by
  unfold get?
  rw [Option.map_eq_some_iff]
  constructor
  · rintro ⟨e, he, rfl⟩
    obtain ⟨hmem, rfl⟩ := find?_eq_some_iff.1 he
    exact hmem
  · intro h
    exact ⟨⟨k, v⟩, find?_eq_some_iff.2 ⟨h, rfl⟩, rfl⟩

/-- Nothing is found under a key that no entry has. -/
theorem get?_eq_none_iff {t : Table} {k : Bytes} :
    t.get? k = none ↔ ∀ e ∈ t.toList, e.key ≠ k := by
  unfold get? find?
  simp [List.find?_eq_none]

/-- A table contains the keys of its entries. -/
theorem contains_iff {t : Table} {k : Bytes} :
    t.contains k = true ↔ ∃ e ∈ t.toList, e.key = k := by
  unfold contains find?
  simp [List.find?_isSome]

/-- What is contained can be looked up. -/
theorem contains_eq_isSome (t : Table) (k : Bytes) : t.contains k = (t.get? k).isSome := by
  unfold contains get?
  exact Option.isSome_map.symm

/-- Entries in order are determined by which ones there are. -/
theorem eq_of_mem_iff {xs ys : List Entry} (hxs : xs.Pairwise fun a b => a.key < b.key)
    (hys : ys.Pairwise fun a b => a.key < b.key) (h : ∀ e, e ∈ xs ↔ e ∈ ys) : xs = ys := by
  have hperm : xs.Perm ys :=
    (List.perm_ext_iff_of_nodup (nodup ⟨xs, hxs⟩) (nodup ⟨ys, hys⟩)).2 h
  refine hperm.eq_of_pairwise (fun a b _ _ hab hba => ?_) hxs hys
  exact absurd (Bytes.lt_trans hab hba) (Bytes.lt_irrefl _)

/-- A table is determined by the values of its keys. -/
theorem ext_get? {t u : Table} (h : ∀ k, t.get? k = u.get? k) : t = u := by
  refine ext_toList (eq_of_mem_iff t.sorted u.sorted fun e => ?_)
  rw [← get?_eq_some_iff (t := t), ← get?_eq_some_iff (t := u), h]

/-! ### Changes -/

/-- After an insertion there is the new entry, and there are those under other keys. -/
theorem mem_insert_iff {t : Table} {k v : Bytes} {e : Entry} :
    e ∈ (t.insert k v).toList ↔ e = ⟨k, v⟩ ∨ (e ∈ t.toList ∧ e.key ≠ k) := by
  obtain ⟨k', v'⟩ := e
  rw [← get?_eq_some_iff, get?_insert, ← get?_eq_some_iff]
  by_cases h : k = k'
  · subst h
    simp [eq_comm]
  · have h' : k' ≠ k := fun e => h e.symm
    simp [h, h']

/-- After an erasure there are the entries under other keys. -/
theorem mem_erase_iff {t : Table} {k : Bytes} {e : Entry} :
    e ∈ (t.erase k).toList ↔ e ∈ t.toList ∧ e.key ≠ k := by
  simp

/-- An entry with a new key comes to the others. -/
theorem count_insert {t : Table} {k v : Bytes} (h : ∀ x ∈ t.toList, x.key ≠ k) (x : Entry) :
    (t.insert k v).toList.count x = t.toList.count x + [(⟨k, v⟩ : Entry)].count x := by
  rw [(nodup _).count, (nodup _).count, List.count_singleton]
  by_cases hx : x = ⟨k, v⟩
  · subst hx
    have hnew : (⟨k, v⟩ : Entry) ∉ t.toList := fun hin => h _ hin rfl
    rw [if_pos (mem_insert_iff.2 (.inl rfl)), if_neg hnew]
    simp
  · have hsame : x ∈ (t.insert k v).toList ↔ x ∈ t.toList := by
      rw [mem_insert_iff]
      exact ⟨fun hor => (hor.resolve_left hx).1, fun hin => .inr ⟨hin, h x hin⟩⟩
    have hne : ((⟨k, v⟩ : Entry) == x) = false := by simpa using fun heq => hx heq.symm
    simp only [hsame, hne, Bool.false_eq_true, if_false, Nat.add_zero]

/-- A new key makes the list longer by one, a key that is there does not. -/
theorem length_insertEntry {e : Entry} {xs : List Entry}
    (h : xs.Pairwise fun a b => a.key < b.key) :
    (insertEntry e xs).length =
      if (xs.find? fun x => x.key = e.key).isSome then xs.length else xs.length + 1 := by
  induction xs with
  | nil => rfl
  | cons x xs ih =>
    obtain ⟨hx, hxs⟩ := List.pairwise_cons.1 h
    unfold insertEntry
    split
    · next o =>
      -- every key of the list comes after the new one
      have hlt := Bytes.order_eq_lt_iff.1 o
      have hnone : (x :: xs).find? (fun y => y.key = e.key) = none := by
        rw [List.find?_eq_none]
        intro y hy
        have : e.key < y.key := by
          rcases List.mem_cons.1 hy with rfl | hy
          · exact hlt
          · exact Bytes.lt_trans hlt (hx y hy)
        simpa using fun heq => Bytes.lt_irrefl _ (heq ▸ this)
      simp [hnone]
    · next o =>
      have heq := Bytes.order_eq_eq_iff.1 o
      simp [heq]
    · next o =>
      have hgt := Bytes.order_eq_gt_iff.1 o
      have hne : x.key ≠ e.key := fun heq => Bytes.lt_irrefl _ (heq ▸ hgt)
      rw [List.length_cons, ih hxs, List.find?_cons_of_neg (by simpa using hne)]
      split <;> rfl

/-- An insertion makes a table larger by one, if the key is new. -/
theorem size_insert (t : Table) (k v : Bytes) :
    (t.insert k v).size = if t.contains k then t.size else t.size + 1 :=
  length_insertEntry t.sorted

/-- Erasing an entry leaves the entries before it and those after it. -/
theorem toList_erase_middle {t : Table} {xs ys : List Entry} {e : Entry}
    (h : t.toList = xs ++ e :: ys) : (t.erase e.key).toList = xs ++ ys := by
  have hnd := t.nodup_keys
  rw [h, List.map_append, List.map_cons, List.nodup_middle, List.nodup_cons] at hnd
  have hne : ∀ x ∈ xs ++ ys, x.key ≠ e.key := by
    intro x hx heq
    exact hnd.1 (by rw [← List.map_append, ← heq]; exact List.mem_map_of_mem hx)
  rw [toList_erase, h, List.filter_append, List.filter_cons]
  have hxs : xs.filter (fun x => x.key != e.key) = xs :=
    List.filter_eq_self.2 fun x hx => by simpa using hne x (List.mem_append_left _ hx)
  have hys : ys.filter (fun x => x.key != e.key) = ys :=
    List.filter_eq_self.2 fun x hx => by simpa using hne x (List.mem_append_right _ hx)
  simp [hxs, hys]

/-- An erasure makes a table smaller by one, if the key is there. -/
theorem size_erase {t : Table} {k : Bytes} (h : t.contains k = true) :
    (t.erase k).size + 1 = t.size := by
  obtain ⟨e, he, rfl⟩ := contains_iff.1 h
  obtain ⟨xs, ys, hxy⟩ := List.append_of_mem he
  unfold size
  rw [toList_erase_middle hxy, hxy, List.length_append, List.length_append, List.length_cons]
  omega

/-! ### Erasing several keys -/

/-- The table without some keys. -/
def eraseAll (keys : List Bytes) (t : Table) : Table := keys.foldl erase t

/-- Erasing no keys changes nothing. -/
@[simp] theorem eraseAll_nil (t : Table) : eraseAll [] t = t := rfl

/-- Keys are erased one after another. -/
@[simp] theorem eraseAll_cons (key : Bytes) (keys : List Bytes) (t : Table) :
    eraseAll (key :: keys) t = eraseAll keys (t.erase key) := rfl

/-- Under a key that has been erased nothing is found, and under others what was there. -/
theorem get?_eraseAll (keys : List Bytes) (t : Table) (k : Bytes) :
    (eraseAll keys t).get? k = if k ∈ keys then none else t.get? k := by
  induction keys generalizing t with
  | nil => rfl
  | cons key keys ih =>
    rw [eraseAll_cons, ih, get?_erase]
    by_cases h : key = k
    · simp [h]
    · have h' : k ≠ key := fun heq => h heq.symm
      simp [h, h']

/-- Different keys that have a value are as many entries less. -/
theorem size_eraseAll {keys : List Bytes} {t : Table} (hnd : keys.Nodup)
    (hin : ∀ k ∈ keys, t.contains k = true) :
    (eraseAll keys t).size + keys.length = t.size := by
  induction keys generalizing t with
  | nil => rfl
  | cons key keys ih =>
    obtain ⟨hnew, hnd⟩ := List.nodup_cons.1 hnd
    have hrest : ∀ k ∈ keys, (t.erase key).contains k = true := by
      intro k hk
      have hne : key ≠ k := fun heq => hnew (heq ▸ hk)
      rw [contains_eq_isSome, get?_erase, if_neg hne, ← contains_eq_isSome]
      exact hin k (List.mem_cons_of_mem _ hk)
    have hsize := size_erase (hin key List.mem_cons_self)
    have := ih hnd hrest
    rw [eraseAll_cons, List.length_cons]
    omega

end Outbox.Table
