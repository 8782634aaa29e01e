import Outbox.Proofs.Store.Lock

namespace Outbox

/-!
# The working copy

What an operation that holds the lock has made of the working copy so far:

* `PutOp.Fits`, `RemovalOp.Fits`, `WalkOp.Fits`, `RecountOp.Fits` — how the working copy differs
  from the committed entries.
* `PutOp.fits_step`, `RemovalOp.fits_step`, `WalkOp.fits_step`, `RecountOp.fits_step` — a step of
  the operation keeps this up.
* `PutOp.fits_of_turn`, … — so does a step of somebody else.
* `PutOp.table_step`, `RemovalOp.table_step`, `WalkOp.table_step` — what a step makes of the
  committed entries.
-/

/-! ### Puts -/

namespace PutOp

/-- A put of an entry adds that entry, and finds out whether the key is new. -/
def Fits (key value : Bytes) (f : Files) : PutOp → Prop
  | entering k v | locking k v => k = key ∧ v = value
  | writing k v => k = key ∧ v = value ∧ f.writer = some f.table
  | counting isNew | committing isNew =>
    key ≠ [] ∧ f.writer = some (f.table.insert key value) ∧ isNew = !f.table.contains key
  | tallying | retracting _ _ | failing _ | done _ => True

variable {key value : Bytes} {s s' : Store} {f g : Files} {op op' : PutOp}

/-- What a put has made of the files is told by how far it has come, after every step. -/
theorem fits_step {failure : Option EngineFault} (hf : op.Fits key value s.files)
    (h : op.step failure s = some (op', s')) : op'.Fits key value s'.files := by
  cases step_cases h with
  | enter => exact hf
  | lock => exact ⟨hf.1, hf.2, rfl⟩
  | @write k v good =>
    obtain ⟨rfl, rfl, hw⟩ := hf
    -- an empty key would have been refused
    have hk : k ≠ [] := by
      rintro rfl
      simp [refusal?] at good
    refine ⟨hk, ?_, ?_⟩
    · show some (s.working.insert k v) = some (s.table.insert k v)
      rw [Store.working_eq hw]
      rfl
    · show (!s.working.contains k) = !s.table.contains k
      rw [Store.working_eq hw]
      rfl
  | countNew | countOld => exact hf
  | refuse | reject | commit | fail | tally | retractNew | retractOld | tallyFailure => trivial

/-- Whether a step of a put commits. -/
def lands : (before after : PutOp) → Bool
  | committing _, tallying => true
  | _, _ => false

/-- Whether a put may still commit. -/
def pends : PutOp → Bool
  | tallying | retracting _ _ | failing _ | done _ => false
  | _ => true

/-- Committing a put is what changes the committed entries. -/
theorem table_step {failure : Option EngineFault} (hf : op.Fits key value s.files)
    (h : op.step failure s = some (op', s')) :
    if op.lands op' then key ≠ [] ∧ s'.table = s.table.insert key value
    else s'.table = s.table := by
  cases step_cases h with
  | commit =>
    obtain ⟨hk, hw, -⟩ := hf
    exact ⟨hk, Store.working_eq hw⟩
  | _ => rfl

/-- A put that says that it has committed has done so. -/
theorem landed_step {failure : Option EngineFault} (h : op.step failure s = some (op', s'))
    (ho : op' = tallying ∨ op' = done (.ok ())) : op.lands op' = true ∨ op = tallying := by
  cases step_cases h with
  | commit => exact .inl rfl
  | tally => exact .inr rfl
  | _ => rcases ho with ho | ho <;> cases ho

/-- A put that may still commit could do so before, and one that commits does so no more. -/
theorem pends_step {failure : Option EngineFault} (h : op.step failure s = some (op', s')) :
    (op'.pends = true → op.pends = true) ∧
      (op.lands op' = true → op.pends = true ∧ op'.pends = false) := by
  cases step_cases h with
  | tally | retractNew | retractOld | tallyFailure => exact ⟨nofun, nofun⟩
  | commit => exact ⟨fun _ => rfl, fun _ => ⟨rfl, rfl⟩⟩
  | _ => exact ⟨fun _ => rfl, nofun⟩

/-- A put that holds the lock has a working copy. -/
theorem writer_ne_none (hf : op.Fits key value f) (hh : op.holds = true) : f.writer ≠ none := by
  cases op <;> simp_all [holds, Fits]

/-- A step of somebody else does not touch what a put has done. -/
theorem fits_of_turn {before after : Bool} (hf : op.Fits key value f)
    (ht : f.Turn before after g) (hb : op.holds = true → before = false) :
    op.Fits key value g := by
  by_cases hh : op.holds = true
  · rwa [ht.eq_of_locked (hb hh) (writer_ne_none hf hh)]
  · cases op <;> first | exact hf | exact absurd rfl hh

end PutOp

/-! ### Removals -/

namespace RemovalOp

/-- A removal of keys takes out the entries of these keys, and counts them. -/
def Fits (keys : List Bytes) (f : Files) : RemovalOp → Prop
  | entering ks | locking ks => ks = keys
  | erasing ks => ks = keys ∧ f.writer = some f.table
  | committing removed =>
    f.writer = some (eraseKeys keys f.table).1 ∧ removed = (eraseKeys keys f.table).2.1
  | releasing _ | tallying _ | done _ => True

/-- The entries that remain are those of other keys; the empty key cannot be removed. -/
theorem mem_eraseKeys_iff {keys : List Bytes} {t : Table} {e : Entry} :
    e ∈ (eraseKeys keys t).1.toList ↔ e ∈ t.toList ∧ (e.key ∈ keys → e.key = []) := by
  induction keys generalizing t with
  | nil => simp [eraseKeys]
  | cons k keys ih =>
    simp only [eraseKeys]
    split
    · next hk =>
      -- the empty key is passed over
      subst hk
      rw [ih, List.mem_cons]
      refine and_congr_right fun _ => ⟨fun himp hmem => hmem.elim id himp, fun himp hmem => ?_⟩
      exact himp (.inr hmem)
    · next hk =>
      split
      · rw [ih, Table.mem_erase_iff, List.mem_cons]
        by_cases hek : e.key = k
        · simp [hek, hk]
        · simp [hek]
      · next hc =>
        -- there is nothing under the key
        rw [ih, List.mem_cons]
        have hek : e ∈ t.toList → e.key ≠ k := fun he heq => hc (Table.contains_iff.2 ⟨e, he, heq⟩)
        constructor
        · rintro ⟨he, himp⟩
          exact ⟨he, fun hmem => himp (hmem.resolve_left (hek he))⟩
        · rintro ⟨he, himp⟩
          exact ⟨he, fun hmem => himp (.inr hmem)⟩

/-- Every entry remains or is counted. -/
theorem size_eraseKeys (keys : List Bytes) (t : Table) :
    (eraseKeys keys t).1.size + (eraseKeys keys t).2.1 = t.size := by
  induction keys generalizing t with
  | nil => rfl
  | cons k keys ih =>
    simp only [eraseKeys]
    split
    · exact ih t
    · split
      · next hc =>
        have h := ih (t.erase k)
        have := Table.size_erase hc
        show (eraseKeys keys (t.erase k)).1.size + ((eraseKeys keys (t.erase k)).2.1 + 1) = t.size
        omega
      · exact ih t

variable {keys : List Bytes} {s s' : Store} {f g : Files} {op op' : RemovalOp}

/-- What a removal has made of the files is told by how far it has come, after every step. -/
theorem fits_step {failure : Option EngineFault} {j : Journal} (hf : op.Fits keys s.files)
    (h : op.step failure s = some (op', s', j)) : op'.Fits keys s'.files := by
  cases step_cases h with
  | enter => exact hf
  | lock => exact ⟨hf, rfl⟩
  | @erase ks =>
    obtain ⟨rfl, hw⟩ := hf
    refine ⟨?_, ?_⟩
    · show some (eraseKeys ks s.working).1 = some (eraseKeys ks s.table).1
      rw [Store.working_eq hw]
      rfl
    · show (eraseKeys ks s.working).2.1 = (eraseKeys ks s.table).2.1
      rw [Store.working_eq hw]
      rfl
  | refuse | pass | fail | commitNothing | commit | release | tally => trivial

/-- Committing a removal is what changes the committed entries. -/
theorem table_step {failure : Option EngineFault} {j : Journal} (hf : op.Fits keys s.files)
    (h : op.step failure s = some (op', s', j)) :
    s'.table = s.table ∨ s'.table = (eraseKeys keys s.table).1 := by
  cases step_cases h with
  | commitNothing | commit => exact .inr (Store.working_eq hf.1)
  | _ => exact .inl rfl

/-- A removal that holds the lock has a working copy. -/
theorem writer_ne_none (hf : op.Fits keys f) (hh : op.holds = true) : f.writer ≠ none := by
  cases op <;> simp_all [holds, Fits]

/-- A step of somebody else does not touch what a removal has done. -/
theorem fits_of_turn {before after : Bool} (hf : op.Fits keys f) (ht : f.Turn before after g)
    (hb : op.holds = true → before = false) : op.Fits keys g := by
  by_cases hh : op.holds = true
  · rwa [ht.eq_of_locked (hb hh) (writer_ne_none hf hh)]
  · cases op <;> first | exact hf | exact absurd rfl hh

end RemovalOp

/-! ### Walks -/

namespace WalkOp

/-- A walk has gone over the entries of `seen` and left those of `kept`; the entries after them are
    as they were. -/
def Fits (kept seen : List Entry) (f : Files) : WalkOp → Prop
  | entering | locking => kept = [] ∧ seen = []
  | walking rest _ deleted =>
    ∃ w, f.writer = some w ∧ f.table.toList = seen ++ rest ∧ w.toList = kept ++ rest ∧
      kept.length + deleted = seen.length
  | committing _ deleted =>
    ∃ w rest, f.writer = some w ∧ f.table.toList = seen ++ rest ∧ w.toList = kept ++ rest ∧
      kept.length + deleted = seen.length
  | releasing _ _ | tallying _ _ | done _ => True

variable {kept seen : List Entry} {s s' : Store} {f g : Files} {op op' : WalkOp}

/-- What a walk has made of the files is told by how far it has come, after every step. -/
theorem fits_step {failure : Option EngineFault} (hf : op.Fits kept seen s.files)
    (h : op.step failure s = some (op', s')) : op'.Fits kept seen s'.files := by
  cases step_cases h with
  | enter => exact hf
  | lock =>
    obtain ⟨rfl, rfl⟩ := hf
    exact ⟨s.table, rfl, rfl, rfl, rfl⟩
  | finish =>
    obtain ⟨w, hw, htable, hcopy, hcount⟩ := hf
    exact ⟨w, [], hw, htable, hcopy, hcount⟩
  | refuse | fail | commitNothing | commit | release | tally => trivial

/-- An entry that is deleted has been seen and is not kept. -/
theorem fits_delete {e : Entry} (hf : op.Fits kept seen s.files) (he : op.offered? = some e) :
    (op.answer .delete s).1.Fits kept (seen ++ [e]) (op.answer .delete s).2.files := by
  obtain ⟨rest, visited, deleted, rfl⟩ := offered?_eq_some_iff.1 he
  obtain ⟨w, hw, htable, hcopy, hcount⟩ := hf
  refine ⟨w.erase e.key, ?_, ?_, Table.toList_erase_middle hcopy, ?_⟩
  · show some (s.working.erase e.key) = some (w.erase e.key)
    rw [Store.working_eq hw]
  · show s.table.toList = seen ++ [e] ++ rest
    rw [List.append_assoc]
    exact htable
  · simp only [List.length_append, List.length_singleton]
    omega

/-- An entry that stays has been seen and is kept. -/
theorem fits_keep {e : Entry} (hf : op.Fits kept seen s.files) (he : op.offered? = some e) :
    (op.answer .keep s).1.Fits (kept ++ [e]) (seen ++ [e]) (op.answer .keep s).2.files := by
  obtain ⟨rest, visited, deleted, rfl⟩ := offered?_eq_some_iff.1 he
  obtain ⟨w, hw, htable, hcopy, hcount⟩ := hf
  refine ⟨w, hw, ?_, ?_, ?_⟩
  · show s.table.toList = seen ++ [e] ++ rest
    rw [List.append_assoc]
    exact htable
  · rw [List.append_assoc]
    exact hcopy
  · simp only [List.length_append, List.length_singleton]
    omega

/-- Where a walk is stopped, the rest stays. -/
theorem fits_stop {e : Entry} (hf : op.Fits kept seen s.files) (he : op.offered? = some e) :
    (op.answer .stop s).1.Fits kept seen (op.answer .stop s).2.files := by
  obtain ⟨rest, visited, deleted, rfl⟩ := offered?_eq_some_iff.1 he
  obtain ⟨w, hw, htable, hcopy, hcount⟩ := hf
  exact ⟨w, e :: rest, hw, htable, hcopy, hcount⟩

/-- A walk that is committed leaves what it has kept and what it has not come to. -/
theorem toList_commit {visited deleted : Nat}
    (hf : (committing visited deleted).Fits kept seen s.files) :
    ∃ rest, s.table.toList = seen ++ rest ∧ s.commit.table.toList = kept ++ rest := by
  obtain ⟨w, rest, hw, htable, hcopy, -⟩ := hf
  refine ⟨rest, htable, ?_⟩
  show s.working.toList = kept ++ rest
  rw [Store.working_eq hw, hcopy]

/-- Committing a walk is what changes the committed entries. -/
theorem table_step {failure : Option EngineFault} (hf : op.Fits kept seen s.files)
    (h : op.step failure s = some (op', s')) :
    s'.table = s.table ∨
      ∃ rest, s.table.toList = seen ++ rest ∧ s'.table.toList = kept ++ rest := by
  cases step_cases h with
  | commitNothing | commit => exact .inr (toList_commit hf)
  | _ => exact .inl rfl

/-- A visitor's answer commits nothing. -/
theorem table_answer (v : Verdict) (op : WalkOp) (s : Store) :
    (op.answer v s).2.table = s.table := by
  cases he : op.offered? with
  | none => rw [answer_of_not_offered he]
  | some e =>
    obtain ⟨rest, visited, deleted, rfl⟩ := offered?_eq_some_iff.1 he
    cases v <;> rfl

/-- The entry that a walk offers comes after those that it has seen. -/
theorem toList_of_offered {e : Entry} (hf : op.Fits kept seen f) (he : op.offered? = some e) :
    ∃ rest, f.table.toList = seen ++ e :: rest := by
  obtain ⟨rest, visited, deleted, rfl⟩ := offered?_eq_some_iff.1 he
  obtain ⟨w, -, htable, -⟩ := hf
  exact ⟨rest, htable⟩

/-- A walk that offers an entry holds the lock. -/
theorem holds_of_offered {e : Entry} (he : op.offered? = some e) : op.holds = true := by
  obtain ⟨rest, visited, deleted, rfl⟩ := offered?_eq_some_iff.1 he
  rfl

/-- A walk that holds the lock has a working copy. -/
theorem writer_ne_none (hf : op.Fits kept seen f) (hh : op.holds = true) : f.writer ≠ none := by
  cases op with
  | walking rest visited deleted => obtain ⟨w, hw, -⟩ := hf; simp [hw]
  | committing visited deleted => obtain ⟨w, rest, hw, -⟩ := hf; simp [hw]
  | _ => cases hh

/-- A step of somebody else does not touch what a walk has done. -/
theorem fits_of_turn {before after : Bool} (hf : op.Fits kept seen f)
    (ht : f.Turn before after g) (hb : op.holds = true → before = false) :
    op.Fits kept seen g := by
  by_cases hh : op.holds = true
  · rwa [ht.eq_of_locked (hb hh) (writer_ne_none hf hh)]
  · cases op <;> first | exact hf | exact absurd rfl hh

end WalkOp

/-! ### Recounts -/

namespace RecountOp

/-- A recount changes no entry, and what it has counted is the number of committed entries. -/
def Fits (f : Files) : RecountOp → Prop
  | recounting | unlocking _ => f.writer = some f.table
  | storing actual => f.writer = some f.table ∧ actual = f.table.size
  | entering | locking | done _ => True

variable {s s' : Store} {f g : Files} {op op' : RecountOp}

/-- What a recount has made of the files is told by how far it has come, after every step. -/
theorem fits_step (hf : op.Fits s.files) (h : op.step s = some (op', s')) : op'.Fits s'.files := by
  cases step_cases h with
  | lock => rfl
  | recount =>
    refine ⟨hf, ?_⟩
    show s.working.size = s.table.size
    rw [Store.working_eq hf]
    rfl
  | store => exact hf.1
  | refuse | enter | unlock => trivial

/-- A recount changes no committed entry. -/
theorem table_step (h : op.step s = some (op', s')) : s'.table = s.table := by
  cases step_cases h <;> rfl

/-- A recount that holds the lock has a working copy. -/
theorem writer_ne_none (hf : op.Fits f) (hh : op.holds = true) : f.writer ≠ none := by
  cases op <;> simp_all [holds, Fits]

/-- A step of somebody else does not touch what a recount has done. -/
theorem fits_of_turn {before after : Bool} (hf : op.Fits f) (ht : f.Turn before after g)
    (hb : op.holds = true → before = false) : op.Fits g := by
  by_cases hh : op.holds = true
  · rwa [ht.eq_of_locked (hb hh) (writer_ne_none hf hh)]
  · cases op <;> first | exact hf | exact absurd rfl hh

end RecountOp

end Outbox
