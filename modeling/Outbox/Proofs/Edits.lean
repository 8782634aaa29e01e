import Outbox.Proofs.Names

namespace Outbox.Headers

/-!
# Headers and their history

What headers hold after any number of changes, said of the changes alone:

* `Edit` — inserting or removing a name; `edited`, `returned` — the headers after some edits, and
  what the edits return.
* `Lasts` — an edit of a history has given a name its value, and no later one is of that name.
* `CameAt` — the edit of a history by which a name came in that has been there ever since; there is
  one at most (`CameAt.unique`).
* `get?_edited`, `mem_names_edited`, `pairwise_names_edited` — the values, the names and the order
  of the names that a history leaves.
* `ordered_by_history` — so headers are a map that keeps its names in the order in which they came.
-/

/-! ### Edits -/

/-- A change to headers. -/
inductive Edit where
  | insert (name value : String)
  | remove (name : String)
  deriving DecidableEq, Repr

namespace Edit

/-- The name that an edit is of. -/
def name : Edit → String
  | insert name _ => name
  | remove name => name

/-- The value that an edit leaves under its name. -/
def value? : Edit → Option String
  | insert _ value => some value
  | remove _ => none

/-- What an edit returns, and the headers after it. -/
def apply : Edit → Headers → Option String × Headers
  | insert name value, h => h.insert name value
  | remove name, h => h.remove name

/-- The edit that adds a pair. -/
def ofPair (pair : String × String) : Edit := .insert pair.1 pair.2

end Edit

/-- The headers after edits. -/
def edited (h : Headers) (edits : List Edit) : Headers :=
  edits.foldl (fun h e => (e.apply h).2) h

/-- What edits return, one after another. -/
def returned (h : Headers) : List Edit → List (Option String)
  | [] => []
  | e :: edits => (e.apply h).1 :: returned (e.apply h).2 edits

variable {h : Headers} {name other value : String} {history edits : List Edit} {e : Edit}
  {i j : Nat}

theorem edited_append (h : Headers) (edits edits' : List Edit) :
    h.edited (edits ++ edits') = (h.edited edits).edited edits' :=
  List.foldl_append

theorem edited_concat (h : Headers) (edits : List Edit) (e : Edit) :
    h.edited (edits ++ [e]) = (e.apply (h.edited edits)).2 :=
  List.foldl_concat _ h e edits

/-- Headers that are collected from pairs are empty ones into which the pairs have been inserted. -/
theorem ofList_eq_edited (pairs : List (String × String)) :
    ofList pairs = empty.edited (pairs.map .ofPair) := by
  unfold edited
  rw [List.foldl_map]
  rfl

/-! ### One edit -/

theorem find_takeOut_of_ne {pairs : List (String × String)} (hne : name ≠ other) :
    find other (takeOut name pairs).2 = find other pairs := by
  induction pairs with
  | nil => rfl
  | cons pair pairs ih =>
    rw [takeOut]
    split
    · next heq => rw [find, if_neg (heq ▸ hne)]
    · show (if pair.1 = other then some pair.2 else find other (takeOut name pairs).2) = _
      rw [ih, find]

/-- An edit returns the value that its name had before. -/
theorem apply_fst (e : Edit) (h : Headers) : (e.apply h).1 = h.get? e.name := by
  cases e with
  | insert => exact insert_fst ..
  | remove => exact remove_fst ..

theorem nodup_apply (hnd : h.names.Nodup) : (e.apply h).2.names.Nodup := by
  cases e with
  | insert => exact nodup_insert hnd
  | remove => exact nodup_remove hnd

/-- An edit changes the value of its own name only. -/
theorem get?_apply (hnd : h.names.Nodup) :
    (e.apply h).2.get? name = if e.name = name then e.value? else h.get? name := by
  cases e with
  | insert n v => exact get?_add h (n, v) name
  | remove n =>
    split
    · next heq =>
      subst heq
      exact nodup_iff_get?_remove.1 hnd n
    · next hne => exact find_takeOut_of_ne hne

/-! ### Values -/

/-- An edit of a history has given a name its value, and no later one is of that name. -/
def Lasts (history : List Edit) (name value : String) : Prop :=
  IsLast (fun e => e.name = name) history (.insert name value)

/-- The last edit decides about its own name. -/
theorem lasts_concat : Lasts (history ++ [e]) name value ↔
    if e.name = name then e.value? = some value else Lasts history name value := by
  unfold Lasts
  rw [isLast_concat]
  split
  · next hname =>
    subst hname
    cases e <;> simp [Edit.name, Edit.value?, eq_comm]
  · exact Iff.rfl

theorem nodup_names_edited (history : List Edit) : (empty.edited history).names.Nodup := by
  induction history using List.reverseRecOn with
  | nil => exact List.nodup_nil
  | append_singleton history e ih =>
    rw [edited_concat]
    exact nodup_apply ih

/-- The value of a name is the one that the history has left under it. -/
theorem get?_edited :
    (empty.edited history).get? name = some value ↔ Lasts history name value := by
  induction history using List.reverseRecOn with
  | nil => simp [edited, Lasts, not_isLast_nil]
  | append_singleton history e ih =>
    rw [edited_concat, get?_apply (nodup_names_edited history), lasts_concat]
    split
    · exact Iff.rfl
    · exact ih

/-- A name is there if and only if the history has left a value under it. -/
theorem mem_names_iff_lasts :
    name ∈ (empty.edited history).names ↔ ∃ value, Lasts history name value := by
  simp only [← get?_edited, ← Option.isSome_iff_exists, Option.isSome_iff_ne_none, ne_eq,
    get?_eq_none_iff, not_not]

/-! ### Names -/

/-- By the edit at a place of a history a name came in, and it has been there ever since. -/
structure CameAt (history : List Edit) (name : String) (i : Nat) : Prop where
  inserted : ∃ value, history[i]? = some (.insert name value)
  /-- Before that edit the name was not there. -/
  absent : ∀ value, ¬ Lasts (history.take i) name value
  /-- It has not been removed since. -/
  kept : .remove name ∉ history.drop i

theorem CameAt.lt_length (hc : CameAt history name i) : i < history.length := by
  obtain ⟨value, hvalue⟩ := hc.inserted
  exact (List.getElem?_eq_some_iff.1 hvalue).1

/-- Whatever came in before the last edit is still there, unless that edit removes it. -/
theorem cameAt_concat_of_lt (hi : i < history.length) :
    CameAt (history ++ [e]) name i ↔ CameAt history name i ∧ e ≠ .remove name := by
  have hget : (history ++ [e])[i]? = history[i]? := List.getElem?_append_left hi
  have htake : (history ++ [e]).take i = history.take i := List.take_append_of_le_length hi.le
  have hdrop : (history ++ [e]).drop i = history.drop i ++ [e] :=
    List.drop_append_of_le_length hi.le
  constructor
  · rintro ⟨hinserted, habsent, hkept⟩
    rw [hget] at hinserted
    rw [htake] at habsent
    rw [hdrop, List.mem_append, List.mem_singleton, not_or] at hkept
    exact ⟨⟨hinserted, habsent, hkept.1⟩, Ne.symm hkept.2⟩
  · rintro ⟨⟨hinserted, habsent, hkept⟩, hne⟩
    refine ⟨by rwa [hget], by rwa [htake], ?_⟩
    rw [hdrop, List.mem_append, List.mem_singleton, not_or]
    exact ⟨hkept, Ne.symm hne⟩

/-- The last edit brings a name in if it inserts it and it was not there. -/
theorem cameAt_concat_length : CameAt (history ++ [e]) name history.length ↔
    (∃ value, e = .insert name value) ∧ name ∉ (empty.edited history).names := by
  have hget : (history ++ [e])[history.length]? = some e := List.getElem?_concat_length
  rw [mem_names_iff_lasts, not_exists]
  constructor
  · rintro ⟨hinserted, habsent, -⟩
    rw [hget] at hinserted
    rw [List.take_left] at habsent
    obtain ⟨value, hvalue⟩ := hinserted
    exact ⟨⟨value, Option.some.inj hvalue⟩, habsent⟩
  · rintro ⟨⟨value, rfl⟩, habsent⟩
    refine ⟨⟨value, hget⟩, by rwa [List.take_left], ?_⟩
    rw [List.drop_left]
    simp

/-- A name that is there came in by an edit, and one that came in and was not removed is there. -/
theorem mem_names_edited :
    name ∈ (empty.edited history).names ↔ ∃ i, CameAt history name i := by
  induction history using List.reverseRecOn with
  | nil =>
    refine ⟨fun hin => (List.not_mem_nil hin).elim, fun ⟨i, hc⟩ => ?_⟩
    exact absurd hc.lt_length (Nat.not_lt_zero i)
  | append_singleton history e ih =>
    -- the name came in by an earlier edit, or by this one
    have hsplit : (∃ i, CameAt (history ++ [e]) name i) ↔
        (name ∈ (empty.edited history).names ∧ e ≠ .remove name) ∨
          ((∃ value, e = .insert name value) ∧ name ∉ (empty.edited history).names) := by
      rw [← cameAt_concat_length, ih]
      constructor
      · rintro ⟨i, hc⟩
        have hlt := hc.lt_length
        rw [List.length_append, List.length_singleton] at hlt
        rcases Nat.lt_succ_iff_lt_or_eq.1 hlt with hi | rfl
        · obtain ⟨hc', hne⟩ := (cameAt_concat_of_lt hi).1 hc
          exact .inl ⟨⟨i, hc'⟩, hne⟩
        · exact .inr hc
      · rintro (⟨⟨i, hc⟩, hne⟩ | hc)
        · exact ⟨i, (cameAt_concat_of_lt hc.lt_length).2 ⟨hc, hne⟩⟩
        · exact ⟨_, hc⟩
    rw [hsplit, edited_concat]
    cases e with
    | insert n v =>
      show name ∈ ((empty.edited history).insert n v).2.names ↔ _
      rw [names_insert]
      by_cases hn : n = name
      · subst hn
        by_cases hin : n ∈ (empty.edited history).names <;> simp [hin]
      · split <;> simp [hn, Ne.symm hn]
    | remove n =>
      show name ∈ ((empty.edited history).remove n).2.names ↔ _
      rw [names_remove, (nodup_names_edited history).mem_erase_iff]
      simp [and_comm, eq_comm]

/-- A name that is there came in by one edit only. -/
theorem CameAt.unique (hi : CameAt history name i) (hj : CameAt history name j) : i = j := by
  -- where it came in again it would have to be absent, but from the first time on it is there
  have habsurd {i j : Nat} (hi : CameAt history name i) (hj : CameAt history name j) :
      ¬ i < j := by
    intro hlt
    obtain ⟨value, hvalue⟩ := hi.inserted
    have hcame : CameAt (history.take j) name i := by
      refine ⟨⟨value, by rw [List.getElem?_take_of_lt hlt, hvalue]⟩, ?_, ?_⟩
      · rw [List.take_take, Nat.min_eq_left hlt.le]
        exact hi.absent
      · rw [List.drop_take]
        exact fun hin => hi.kept (List.mem_of_mem_take hin)
    obtain ⟨v, hv⟩ := mem_names_iff_lasts.1 (mem_names_edited.2 ⟨i, hcame⟩)
    exact hj.absent v hv
  exact Nat.le_antisymm (Nat.not_lt.1 (habsurd hj hi)) (Nat.not_lt.1 (habsurd hi hj))

/-! ### Order -/

/-- One name came in before another one, and both have been there ever since. -/
def CameBefore (history : List Edit) (name other : String) : Prop :=
  ∃ i j, i < j ∧ CameAt history name i ∧ CameAt history other j

/-- Names that are there stay in their order when another edit removes none of them. -/
theorem CameBefore.concat (hb : CameBefore history name other) (hname : e ≠ .remove name)
    (hother : e ≠ .remove other) : CameBefore (history ++ [e]) name other := by
  obtain ⟨i, j, hlt, hi, hj⟩ := hb
  exact ⟨i, j, hlt, (cameAt_concat_of_lt hi.lt_length).2 ⟨hi, hname⟩,
    (cameAt_concat_of_lt hj.lt_length).2 ⟨hj, hother⟩⟩

/-- The names stand in the order in which they came in. -/
theorem pairwise_names_edited (history : List Edit) :
    (empty.edited history).names.Pairwise (CameBefore history) := by
  induction history using List.reverseRecOn with
  | nil => exact .nil
  | append_singleton history e ih =>
    rw [edited_concat]
    cases e with
    | insert n v =>
      have hkept : (empty.edited history).names.Pairwise
          (CameBefore (history ++ [.insert n v])) :=
        ih.imp fun hb => hb.concat (by simp) (by simp)
      show ((empty.edited history).insert n v).2.names.Pairwise _
      rw [names_insert]
      split
      · exact hkept
      · next hnew =>
        -- the new name came in by the last edit of all
        refine List.pairwise_append.2 ⟨hkept, List.pairwise_singleton _ _, ?_⟩
        intro name hname other hother
        obtain rfl := List.mem_singleton.1 hother
        obtain ⟨i, hi⟩ := mem_names_edited.1 hname
        exact ⟨i, history.length, hi.lt_length,
          (cameAt_concat_of_lt hi.lt_length).2 ⟨hi, by simp⟩,
          cameAt_concat_length.2 ⟨⟨v, rfl⟩, hnew⟩⟩
    | remove n =>
      have hnd := nodup_names_edited history
      show ((empty.edited history).remove n).2.names.Pairwise _
      rw [names_remove]
      refine (ih.sublist List.erase_sublist).imp_of_mem fun hname hother hb => hb.concat ?_ ?_
      · rintro ⟨rfl⟩
        exact (hnd.mem_erase_iff.1 hname).1 rfl
      · rintro ⟨rfl⟩
        exact (hnd.mem_erase_iff.1 hother).1 rfl

/-! ### What edits return -/

/-- An edit among others returns the value that its name had before it. -/
theorem getElem?_returned (h : Headers) (edits : List Edit) (i : Nat) :
    (returned h edits)[i]? = edits[i]?.map fun e => (h.edited (edits.take i)).get? e.name := by
  induction edits generalizing h i with
  | nil => rfl
  | cons e edits ih =>
    cases i with
    | zero => exact congrArg some (apply_fst e h)
    | succ i => exact ih (e.apply h).2 i

/-- Headers are a map that keeps its names in the order in which they came. However some pairs are
    collected, or none, and names are inserted and removed after that, so that this holds after each
    edit: every name stands there once; its value is that of the last insertion of it, if there is
    one that no removal has followed, and else it has none; each edit has returned the value that
    its name had before it; and the names stand in the order of the edits by which they came in,
    each by its first insertion since it was last absent. So to insert a name that is there moves
    none, and to remove one leaves the others in their order. -/
theorem ordered_by_history (pairs : List (String × String)) (edits : List Edit) :
    let history := pairs.map .ofPair ++ edits
    let h := (ofList pairs).edited edits
    h.names.Nodup ∧
    (∀ name value, h.get? name = some value ↔ Lasts history name value) ∧
    (∀ name, h.get? name = none ↔ ∀ value, ¬ Lasts history name value) ∧
    (∀ i e, edits[i]? = some e → (returned (ofList pairs) edits)[i]? =
      some (((ofList pairs).edited (edits.take i)).get? e.name)) ∧
    (∀ name, name ∈ h.names ↔ ∃ i, CameAt history name i) ∧
    (∀ name i j, CameAt history name i → CameAt history name j → i = j) ∧
    h.names.Pairwise (CameBefore history) ∧
    (∀ name value, name ∈ h.names → (h.insert name value).2.names = h.names) ∧
    (∀ name, (h.remove name).2.names = h.names.filter (· != name)) := by
  intro history h
  have hh : h = empty.edited history := by
    rw [edited_append, ← ofList_eq_edited]
  have hnd : h.names.Nodup := hh ▸ nodup_names_edited history
  have hvalue (name value) : h.get? name = some value ↔ Lasts history name value :=
    hh ▸ get?_edited
  refine ⟨hnd, hvalue, fun name => ?_, ?_, fun name => hh ▸ mem_names_edited,
    fun _ _ _ => CameAt.unique, hh ▸ pairwise_names_edited history, ?_, ?_⟩
  · simp only [← hvalue, Option.eq_none_iff_forall_ne_some, ne_eq]
  · intro i e he
    rw [getElem?_returned, he]
    rfl
  · intro name value hin
    rw [names_insert, if_pos hin]
  · intro name
    rw [names_remove, hnd.erase_eq_filter]

example : (ofList [("a", "1"), ("b", "2")]).edited
    [.insert "a" "3", .insert "c" "4", .remove "a", .insert "a" "5"] =
      ⟨[("b", "2"), ("c", "4"), ("a", "5")]⟩ := by
  decide

end Outbox.Headers
