import Outbox.Bytes

namespace Outbox

/-!
# Tables

An ordered map from keys to values, both of them byte strings:

* `Bytes.order` — compares keys; it agrees with the order of lists.
* `Table` — entries whose keys increase strictly; the type holds the proof.
* `Table.get?` — the value of a key.
* `Table.insert`, `Table.erase` — a table with a key set to a value, and without a key.
* `get?_insert`, `get?_erase` — what the two do to the values.
-/

/-- A key and its value. -/
structure Entry where
  key : Bytes
  value : Bytes
  deriving DecidableEq, Repr

/-! ### The order of keys -/

/-- Compares byte strings: the first byte that differs decides, and a start comes before its
    extensions. -/
def Bytes.order : Bytes → Bytes → Ordering
  | [], [] => .eq
  | [], _ :: _ => .lt
  | _ :: _, [] => .gt
  | x :: xs, y :: ys => if x < y then .lt else if y < x then .gt else order xs ys

/-- The order is `lt` where one is before the other. -/
theorem Bytes.order_eq_lt_iff {a b : Bytes} : Bytes.order a b = .lt ↔ a < b := by
  induction a generalizing b with
  | nil => cases b <;> simp [Bytes.order]
  | cons x xs ih =>
    cases b with
    | nil => simp [Bytes.order]
    | cons y ys =>
      rw [List.cons_lt_cons_iff, Bytes.order]
      split
      · next h => simp [h]
      · next h =>
        split
        · next h' =>
          have : x ≠ y := fun e => UInt8.lt_irrefl y (e ▸ h')
          simp [h, this]
        · next h' =>
          have : x = y := UInt8.le_antisymm (UInt8.not_lt.1 h') (UInt8.not_lt.1 h)
          simp [this, ih]

/-- The order is `eq` where both are the same. -/
theorem Bytes.order_eq_eq_iff {a b : Bytes} : Bytes.order a b = .eq ↔ a = b := by
  induction a generalizing b with
  | nil => cases b <;> simp [Bytes.order]
  | cons x xs ih =>
    cases b with
    | nil => simp [Bytes.order]
    | cons y ys =>
      rw [Bytes.order]
      split
      · next h =>
        have : x ≠ y := fun e => UInt8.lt_irrefl y (e ▸ h)
        simp [this]
      · next h =>
        split
        · next h' =>
          have : x ≠ y := fun e => UInt8.lt_irrefl y (e ▸ h')
          simp [this]
        · next h' =>
          have : x = y := UInt8.le_antisymm (UInt8.not_lt.1 h') (UInt8.not_lt.1 h)
          simp [this, ih]

/-- The order is `gt` where one is after the other. -/
theorem Bytes.order_eq_gt_iff {a b : Bytes} : Bytes.order a b = .gt ↔ b < a := by
  induction a generalizing b with
  | nil => cases b <;> simp [Bytes.order]
  | cons x xs ih =>
    cases b with
    | nil => simp [Bytes.order]
    | cons y ys =>
      rw [List.cons_lt_cons_iff, Bytes.order]
      split
      · next h =>
        have h₁ : ¬ y < x := fun h' => UInt8.lt_irrefl _ (UInt8.lt_trans h h')
        have h₂ : y ≠ x := fun e => UInt8.lt_irrefl y (e ▸ h)
        simp [h₁, h₂]
      · next h =>
        split
        · next h' => simp [h']
        · next h' =>
          have : x = y := UInt8.le_antisymm (UInt8.not_lt.1 h') (UInt8.not_lt.1 h)
          simp [this, ih]

/-- The order of bytes is transitive. -/
theorem Bytes.lt_trans {a b c : Bytes} (h : a < b) (h' : b < c) : a < c :=
  List.lt_trans h h'

/-- No bytes come before themselves. -/
theorem Bytes.lt_irrefl (a : Bytes) : ¬ a < a :=
  List.lt_irrefl a

/-! ### Tables -/

/-- An ordered map from keys to values. -/
structure Table where
  toList : List Entry
  sorted : toList.Pairwise fun a b => a.key < b.key

namespace Table

/-! ### Entries in order -/

/-- Sets a key in a list of entries that is in order. -/
def insertEntry (e : Entry) : List Entry → List Entry
  | [] => [e]
  | x :: xs =>
    match Bytes.order e.key x.key with
    | .lt => e :: x :: xs
    | .eq => e :: xs
    | .gt => x :: insertEntry e xs

/-- After an insertion there is nothing but the new entry and the old ones. -/
theorem mem_insertEntry {e y : Entry} {xs : List Entry} (h : y ∈ insertEntry e xs) :
    y = e ∨ y ∈ xs := by
  induction xs with
  | nil => simpa [insertEntry] using h
  | cons x xs ih =>
    unfold insertEntry at h
    split at h
    · simpa using h
    · rcases List.mem_cons.1 h with rfl | h
      · exact .inl rfl
      · exact .inr (List.mem_cons_of_mem _ h)
    · rcases List.mem_cons.1 h with rfl | h
      · exact .inr List.mem_cons_self
      · exact (ih h).imp id (List.mem_cons_of_mem _)

/-- An insertion keeps the entries in order. -/
theorem pairwise_insertEntry {e : Entry} {xs : List Entry}
    (h : xs.Pairwise fun a b => a.key < b.key) :
    (insertEntry e xs).Pairwise fun a b => a.key < b.key := by
  induction xs with
  | nil => simp [insertEntry]
  | cons x xs ih =>
    obtain ⟨hx, hxs⟩ := List.pairwise_cons.1 h
    unfold insertEntry
    split
    · next o =>
      have hlt := Bytes.order_eq_lt_iff.1 o
      refine List.pairwise_cons.2 ⟨fun y hy => ?_, h⟩
      rcases List.mem_cons.1 hy with rfl | hy
      · exact hlt
      · exact Bytes.lt_trans hlt (hx y hy)
    · next o =>
      have heq := Bytes.order_eq_eq_iff.1 o
      exact List.pairwise_cons.2 ⟨fun y hy => heq ▸ hx y hy, hxs⟩
    · next o =>
      refine List.pairwise_cons.2 ⟨fun y hy => ?_, ih hxs⟩
      rcases mem_insertEntry hy with rfl | hy
      · exact Bytes.order_eq_gt_iff.1 o
      · exact hx y hy

/-! ### Looking up and changing -/

/-- The entry of a key. -/
def find? (t : Table) (key : Bytes) : Option Entry :=
  t.toList.find? fun e => e.key = key

/-- The value of a key. -/
def get? (t : Table) (key : Bytes) : Option Bytes :=
  (t.find? key).map Entry.value

/-- Whether a key has a value. -/
def contains (t : Table) (key : Bytes) : Bool :=
  (t.find? key).isSome

/-- The number of entries. -/
def size (t : Table) : Nat := t.toList.length

/-- No entries. -/
def empty : Table := ⟨[], .nil⟩

/-- The table with a key set to a value. -/
def insert (t : Table) (key value : Bytes) : Table :=
  ⟨insertEntry ⟨key, value⟩ t.toList, pairwise_insertEntry t.sorted⟩

/-- The table without a key. -/
def erase (t : Table) (key : Bytes) : Table :=
  ⟨t.toList.filter fun e => e.key != key, t.sorted.filter _⟩

/-- There is nothing in an empty table. -/
@[simp] theorem toList_empty : empty.toList = [] := rfl

/-- An erasure leaves the entries under other keys. -/
@[simp] theorem toList_erase (t : Table) (key : Bytes) :
    (t.erase key).toList = t.toList.filter fun e => e.key != key := rfl

/-- Under the key of the new entry it is found, and under others what was there. -/
theorem find?_insertEntry (e : Entry) (xs : List Entry) (k : Bytes) :
    (insertEntry e xs).find? (fun x => x.key = k) =
      if e.key = k then some e else xs.find? fun x => x.key = k := by
  induction xs with
  | nil => by_cases h : e.key = k <;> simp [insertEntry, h]
  | cons x xs ih =>
    unfold insertEntry
    split
    · by_cases h : e.key = k <;> simp [h]
    · next o =>
      have heq := Bytes.order_eq_eq_iff.1 o
      by_cases h : e.key = k
      · simp [h]
      · have : x.key ≠ k := heq ▸ h
        simp [h, this]
    · next o =>
      have hgt := Bytes.order_eq_gt_iff.1 o
      by_cases hx : x.key = k
      · have : e.key ≠ k := fun h => Bytes.lt_irrefl k (by rwa [hx, h] at hgt)
        simp [hx, this]
      · simp [hx, ih]

/-- After an insertion the new value is found under its key, and under others what was there. -/
@[simp] theorem get?_insert (t : Table) (key value k : Bytes) :
    (t.insert key value).get? k = if key = k then some value else t.get? k := by
  unfold get? find? insert
  rw [find?_insertEntry]
  split <;> rfl

/-- After an erasure nothing is found under the key, and under others what was there. -/
@[simp] theorem get?_erase (t : Table) (key k : Bytes) :
    (t.erase key).get? k = if key = k then none else t.get? k := by
  unfold get? find?
  rw [toList_erase, List.find?_filter]
  split
  · next h =>
    subst h
    rw [List.find?_eq_none.2]
    · rfl
    · intro x _
      by_cases hx : x.key = key <;> simp [hx]
  · next h =>
    congr 2
    funext x
    by_cases hx : x.key = k
    · have : k ≠ key := fun e => h e.symm
      simp [hx, this]
    · simp [hx]

/-- Two tables with the same entries are equal. -/
theorem ext_toList {t u : Table} (h : t.toList = u.toList) : t = u := by
  cases t
  cases u
  simp_all

instance : DecidableEq Table := fun t u =>
  if h : t.toList = u.toList then .isTrue (ext_toList h)
  else .isFalse fun e => h (e ▸ rfl)

end Table

end Outbox
