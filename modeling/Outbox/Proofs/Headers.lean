import Outbox.Headers
import Outbox.Proofs.Lists

namespace Outbox.Headers

/-!
# Headers one after another

* `toList_add` — a header with a new name comes to the end.
* `ofList_toList` — headers with different names that are inserted in order are the same headers.
* `names_ofList`, `get?_ofList` — of a name that is inserted more than once, the first place and the
  last value are left.
* `mem_of_mem_ofList`, `size_ofList_le` — nothing else is there.
-/

theorem put_of_new {name value : String} {pairs : List (String × String)}
    (h : name ∉ pairs.map Prod.fst) : put name value pairs = (none, pairs ++ [(name, value)]) := by
  induction pairs with
  | nil => rfl
  | cons pair pairs ih =>
    rw [List.map_cons, List.mem_cons, not_or] at h
    rw [put, if_neg (Ne.symm h.1), ih h.2]
    rfl

/-- A header with a new name comes to the end. -/
theorem toList_add {h : Headers} {pair : String × String} (hn : pair.1 ∉ h.names) :
    (h.add pair).toList = h.toList ++ [pair] := by
  show (put pair.1 pair.2 h.toList).2 = _
  rw [put_of_new hn]

theorem toList_foldl_add {pairs : List (String × String)} {h : Headers}
    (hnd : (h.names ++ pairs.map Prod.fst).Nodup) :
    (pairs.foldl add h).toList = h.toList ++ pairs := by
  induction pairs generalizing h with
  | nil => rw [List.foldl_nil, List.append_nil]
  | cons pair pairs ih =>
    rw [List.map_cons, List.nodup_append_comm, List.cons_append, List.nodup_cons] at hnd
    have hnew : pair.1 ∉ h.names := fun hin => hnd.1 (List.mem_append_right _ hin)
    have hadd := toList_add hnew
    rw [List.foldl_cons, ih, hadd, List.append_assoc, List.singleton_append]
    unfold names
    rw [hadd, List.map_append, List.append_assoc, List.nodup_append_comm, List.append_assoc]
    show ((pair.1 :: pairs.map Prod.fst) ++ h.names).Nodup
    rw [List.cons_append, List.nodup_cons]
    exact hnd

/-- Headers with different names that are inserted one after another are the same headers. -/
theorem ofList_toList {h : Headers} (hnd : h.names.Nodup) : ofList h.toList = h := by
  have hlist : (ofList h.toList).toList = h.toList := toList_foldl_add hnd
  exact congrArg Headers.mk hlist

/-! ### The last value of a name -/

/-- The value of a name after another pair is put into a list. -/
theorem find_put (name : String) (pair : String × String) (pairs : List (String × String)) :
    find name (put pair.1 pair.2 pairs).2 =
      if pair.1 = name then some pair.2 else find name pairs := by
  induction pairs with
  | nil => rfl
  | cons other pairs ih =>
    obtain ⟨n, v⟩ := other
    rw [put]
    split
    · next heq =>
      subst heq
      rw [find, find]
      split <;> rfl
    · next hne =>
      show (if n = name then some v else find name (put pair.1 pair.2 pairs).2) = _
      rw [ih, find]
      split
      · next heq =>
        rw [if_neg]
        intro h
        exact hne (heq.trans h.symm)
      · rfl

/-- A name that is there keeps its place. -/
theorem names_put_of_mem {name value : String} {pairs : List (String × String)}
    (h : name ∈ pairs.map Prod.fst) :
    (put name value pairs).2.map Prod.fst = pairs.map Prod.fst := by
  induction pairs with
  | nil => simp at h
  | cons other pairs ih =>
    obtain ⟨n, v⟩ := other
    rw [put]
    split
    · rfl
    · next hne =>
      have hrest : name ∈ pairs.map Prod.fst := by
        simpa [Ne.symm hne] using h
      show n :: (put name value pairs).2.map Prod.fst = _
      rw [ih hrest]
      rfl

/-- The value of a name after another header. -/
theorem get?_add (h : Headers) (pair : String × String) (name : String) :
    (h.add pair).get? name = if pair.1 = name then some pair.2 else h.get? name :=
  find_put name pair h.toList

/-- The names after another header. -/
theorem names_add (h : Headers) (pair : String × String) :
    (h.add pair).names = if pair.1 ∈ h.names then h.names else h.names ++ [pair.1] := by
  split
  · next hin => exact names_put_of_mem hin
  · next hnew =>
    unfold names
    rw [toList_add hnew, List.map_append, List.map_singleton]

theorem ofList_concat (pairs : List (String × String)) (pair : String × String) :
    ofList (pairs ++ [pair]) = (ofList pairs).add pair :=
  List.foldl_concat add empty pair pairs

/-- Headers that are inserted one after another have each name once, where it came first. -/
theorem names_ofList (pairs : List (String × String)) :
    (ofList pairs).names = (pairs.map Prod.fst).eraseDups := by
  induction pairs using List.reverseRecOn with
  | nil => rfl
  | append_singleton pairs pair ih =>
    rw [ofList_concat, names_add, ih, List.map_append, List.map_singleton, eraseDups_concat]
    simp only [List.mem_eraseDups]

theorem nodup_names_ofList (pairs : List (String × String)) : (ofList pairs).names.Nodup := by
  rw [names_ofList]
  exact nodup_eraseDups _

/-- Of values that are inserted under one name the last one is left. -/
theorem get?_ofList (pairs : List (String × String)) (name : String) :
    (ofList pairs).get? name = pairs.reverse.lookup name := by
  induction pairs using List.reverseRecOn with
  | nil => rfl
  | append_singleton pairs pair ih =>
    rw [ofList_concat, get?_add, ih, List.reverse_concat, List.lookup_cons]
    by_cases h : pair.1 = name
    · simp [h]
    · simp [h, beq_eq_false_iff_ne.2 (Ne.symm h)]

/-- What stands in a list after a pair is put into it stood there before, or is the pair. -/
theorem mem_put {pair other : String × String} {pairs : List (String × String)}
    (h : other ∈ (put pair.1 pair.2 pairs).2) : other ∈ pairs ∨ other = pair := by
  induction pairs with
  | nil => exact .inr (List.mem_singleton.1 h)
  | cons first pairs ih =>
    rw [put] at h
    split at h
    · next heq =>
      obtain rfl | hrest := List.mem_cons.1 h
      · exact .inr (by rw [heq])
      · exact .inl (List.mem_cons_of_mem _ hrest)
    · obtain rfl | hrest := List.mem_cons.1 h
      · exact .inl List.mem_cons_self
      · exact (ih hrest).imp_left (List.mem_cons_of_mem _)

/-- Nothing stands in headers but what has been inserted. -/
theorem mem_of_mem_ofList {pair : String × String} {pairs : List (String × String)}
    (h : pair ∈ (ofList pairs).toList) : pair ∈ pairs := by
  induction pairs using List.reverseRecOn with
  | nil => exact h
  | append_singleton pairs last ih =>
    rw [ofList_concat] at h
    obtain hold | rfl := mem_put h
    · exact List.mem_append_left _ (ih hold)
    · exact List.mem_append_right _ List.mem_cons_self

theorem length_names (h : Headers) : h.names.length = h.size := List.length_map ..

/-- There are no more headers than have been inserted. -/
theorem size_ofList_le (pairs : List (String × String)) : (ofList pairs).size ≤ pairs.length := by
  induction pairs using List.reverseRecOn with
  | nil => exact Nat.le_refl 0
  | append_singleton pairs last ih =>
    rw [ofList_concat, ← length_names, names_add, List.length_append, List.length_singleton]
    rw [← length_names] at ih
    split
    · omega
    · rw [List.length_append, List.length_singleton]
      omega

example : ofList [("a", "1"), ("b", "2"), ("a", "3")] = ⟨[("a", "3"), ("b", "2")]⟩ := by
  decide

/-- Headers stay as they are when they are inserted one after another, if and only if their names
    are different. -/
theorem ofList_toList_iff {h : Headers} : ofList h.toList = h ↔ h.names.Nodup := by
  constructor
  · intro heq
    rw [← heq]
    exact nodup_names_ofList _
  · exact ofList_toList

end Outbox.Headers
