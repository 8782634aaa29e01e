import Outbox.Store.Put
import Outbox.Store.Recount
import Outbox.Store.Removal
import Outbox.Store.Walk

namespace Outbox

/-!
# What a step of an operation can do

* `PutOp.Step`, `RemovalOp.Step`, `WalkOp.Step`, `RecountOp.Step` — what a step can make of an
  operation and of the store, case by case.
* `PutOp.step_cases`, … — every step is of this kind.
* `WalkOp.offered?_eq_some_iff` — which walks offer an entry.
* `PutOp.eq_done`, … — which operations have a result.
-/

/-! ### Puts -/

namespace PutOp

/-- What a step can make of a put and of the store. -/
inductive Step (failure : Option EngineFault) (s : Store) : PutOp → PutOp → Store → Prop
  | refuse {key value : Bytes} (closed : s.closed = true) :
      Step failure s (entering key value) (done (.error .closed)) s
  | enter {key value : Bytes} (isOpen : s.closed = false) :
      Step failure s (entering key value) (locking key value) s
  | lock {key value : Bytes} (free : s.writer = none) :
      Step failure s (locking key value) (writing key value) { s with writer := some s.table }
  | reject {key value : Bytes} {fault : EngineFault}
      (bad : refusal? key value s.mapSize = some fault) :
      Step failure s (writing key value) (done (.error (.engine fault))) s.abort
  | write {key value : Bytes} (good : refusal? key value s.mapSize = none) :
      Step failure s (writing key value) (counting (!s.working.contains key))
        { s with writer := some (s.working.insert key value) }
  | countNew : Step failure s (counting true) (committing true) s.bump
  | countOld : Step failure s (counting false) (committing false) s
  | commit {isNew : Bool} (works : failure = none) :
      Step failure s (committing isNew) tallying s.commit
  | fail {isNew : Bool} {fault : EngineFault} (fails : failure = some fault) :
      Step failure s (committing isNew) (retracting isNew fault) s.abort
  | tally : Step failure s tallying (done (.ok ())) { s with puts := s.puts + 1 }
  | retractNew {fault : EngineFault} :
      Step failure s (retracting true fault) (failing fault) s.retract
  | retractOld {fault : EngineFault} : Step failure s (retracting false fault) (failing fault) s
  | tallyFailure {fault : EngineFault} :
      Step failure s (failing fault) (done (.error (.engine fault)))
        { s with failedCommits := s.failedCommits + 1 }

theorem step_cases {failure : Option EngineFault} {s s' : Store} {op op' : PutOp}
    (h : op.step failure s = some (op', s')) : Step failure s op op' s' := by
  cases op with
  | entering key value =>
    simp only [step] at h
    split at h
    · next hclosed => cases h; exact .refuse hclosed
    · next hopen => cases h; exact .enter (by simpa using hopen)
  | locking key value =>
    simp only [step, Option.map_eq_some_iff, Prod.mk.injEq] at h
    obtain ⟨t, ht, rfl, rfl⟩ := h
    obtain ⟨hfree, rfl⟩ := Store.lock_eq_some_iff.1 ht
    exact .lock hfree
  | writing key value =>
    simp only [step] at h
    split at h
    · next fault hbad => cases h; exact .reject hbad
    · next hgood => cases h; exact .write hgood
  | counting isNew =>
    cases isNew with
    | true => cases h; exact .countNew
    | false => cases h; exact .countOld
  | committing isNew =>
    cases failure with
    | none => cases h; exact .commit rfl
    | some fault => cases h; exact .fail rfl
  | tallying => cases h; exact .tally
  | retracting isNew fault =>
    cases isNew with
    | true => cases h; exact .retractNew
    | false => cases h; exact .retractOld
  | failing fault => cases h; exact .tallyFailure
  | done result => cases h

/-- What has a result is done. -/
theorem eq_done {op : PutOp} {r : Except StoreFault Unit} (h : op.result? = some r) :
    op = done r := by
  cases op with
  | done result => cases h; rfl
  | _ => cases h

end PutOp

/-! ### Removals -/

namespace RemovalOp

/-- What a step can make of a removal and of the store. -/
inductive Step (failure : Option EngineFault) (s : Store) : RemovalOp → RemovalOp → Store → Prop
  | refuse {keys : List Bytes} (closed : s.closed = true) :
      Step failure s (entering keys) (done (.error .closed)) s
  | pass (isOpen : s.closed = false) : Step failure s (entering []) (done (.ok 0)) s
  | enter {keys : List Bytes} (isOpen : s.closed = false) (nonempty : keys ≠ []) :
      Step failure s (entering keys) (locking keys) s
  | lock {keys : List Bytes} (free : s.writer = none) :
      Step failure s (locking keys) (erasing keys) { s with writer := some s.table }
  | erase {keys : List Bytes} :
      Step failure s (erasing keys) (committing (eraseKeys keys s.working).2.1)
        { s with writer := some (eraseKeys keys s.working).1 }
  | fail {removed : Nat} {fault : EngineFault} (fails : failure = some fault) :
      Step failure s (committing removed) (done (.error (.engine fault))) s.failCommit
  | commitNothing (works : failure = none) :
      Step failure s (committing 0) (done (.ok 0)) s.commit
  | commit {removed : Nat} (works : failure = none) (nonzero : removed ≠ 0) :
      Step failure s (committing removed) (releasing removed) s.commit
  | release {removed : Nat} :
      Step failure s (releasing removed) (tallying removed) (s.release removed)
  | tally {removed : Nat} :
      Step failure s (tallying removed) (done (.ok removed))
        { s with deletes := s.deletes + removed }

theorem step_cases {failure : Option EngineFault} {s s' : Store} {op op' : RemovalOp} {j : Journal}
    (h : op.step failure s = some (op', s', j)) : Step failure s op op' s' := by
  cases op with
  | entering keys =>
    simp only [step] at h
    split at h
    · next hclosed => cases h; exact .refuse hclosed
    · next hopen =>
      have hopen : s.closed = false := by simpa using hopen
      split at h
      · next hnil =>
        cases h
        obtain rfl := List.isEmpty_iff.1 hnil
        exact .pass hopen
      · next hsome =>
        cases h
        exact .enter hopen (by simpa using hsome)
  | locking keys =>
    simp only [step, Option.map_eq_some_iff, Prod.mk.injEq] at h
    obtain ⟨t, ht, rfl, rfl, -⟩ := h
    obtain ⟨hfree, rfl⟩ := Store.lock_eq_some_iff.1 ht
    exact .lock hfree
  | erasing keys => cases h; exact .erase
  | committing removed =>
    cases failure with
    | some fault => cases h; exact .fail rfl
    | none =>
      cases removed with
      | zero => cases h; exact .commitNothing rfl
      | succ n => cases h; exact .commit rfl (Nat.succ_ne_zero n)
  | releasing removed => cases h; exact .release
  | tallying removed => cases h; exact .tally
  | done result => cases h

/-- Erasing keys is reported of the keys that are none. -/
theorem exists_of_mem_eraseKeys {keys : List Bytes} {t : Table} {x : Note}
    (hx : x ∈ (eraseKeys keys t).2.2) :
    ∃ key, x = .incident (.keyNotDeleted key .badValueSize) := by
  induction keys generalizing t with
  | nil => cases hx
  | cons key keys ih =>
    unfold eraseKeys at hx
    split at hx
    · rcases List.mem_cons.1 hx with rfl | hx
      · exact ⟨key, rfl⟩
      · exact ih hx
    · split at hx
      · exact ih hx
      · exact ih hx

/-- A step of a removal reports nothing else. -/
theorem exists_of_mem_step {failure : Option EngineFault} {s s' : Store} {op op' : RemovalOp}
    {j : Journal} (h : op.step failure s = some (op', s', j)) {x : Note} (hx : x ∈ j) :
    ∃ key, x = .incident (.keyNotDeleted key .badValueSize) := by
  cases op with
  | entering keys =>
    simp only [step] at h
    split at h
    · cases h; cases hx
    · split at h <;> cases h <;> cases hx
  | locking keys =>
    obtain ⟨_, -, h⟩ := Option.map_eq_some_iff.1 h
    cases h
    cases hx
  | erasing keys => cases h; exact exists_of_mem_eraseKeys hx
  | committing removed =>
    simp only [step] at h
    split at h <;> cases h <;> cases hx
  | releasing removed => cases h; cases hx
  | tallying removed => cases h; cases hx
  | done r => cases h

/-- What has a result is done. -/
theorem eq_done {op : RemovalOp} {r : Except StoreFault Nat} (h : op.result? = some r) :
    op = done r := by
  cases op with
  | done result => cases h; rfl
  | _ => cases h

end RemovalOp

/-! ### Walks -/

namespace WalkOp

/-- What a step can make of a walk and of the store. -/
inductive Step (failure : Option EngineFault) (s : Store) : WalkOp → WalkOp → Store → Prop
  | refuse (closed : s.closed = true) : Step failure s entering (done (.error .closed)) s
  | enter (isOpen : s.closed = false) : Step failure s entering locking s
  | lock (free : s.writer = none) :
      Step failure s locking (walking s.table.toList 0 0) { s with writer := some s.table }
  | finish {visited deleted : Nat} :
      Step failure s (walking [] visited deleted) (committing visited deleted) s
  | fail {visited deleted : Nat} {fault : EngineFault} (fails : failure = some fault) :
      Step failure s (committing visited deleted) (done (.error (.engine fault))) s.failCommit
  | commitNothing {visited : Nat} (works : failure = none) :
      Step failure s (committing visited 0) (done (.ok ⟨visited, 0, true⟩)) s.commit
  | commit {visited deleted : Nat} (works : failure = none) (nonzero : deleted ≠ 0) :
      Step failure s (committing visited deleted) (releasing visited deleted) s.commit
  | release {visited deleted : Nat} :
      Step failure s (releasing visited deleted) (tallying visited deleted) (s.release deleted)
  | tally {visited deleted : Nat} :
      Step failure s (tallying visited deleted) (done (.ok ⟨visited, deleted, true⟩))
        { s with deletes := s.deletes + deleted }

theorem step_cases {failure : Option EngineFault} {s s' : Store} {op op' : WalkOp}
    (h : op.step failure s = some (op', s')) : Step failure s op op' s' := by
  cases op with
  | entering =>
    cases h
    cases hclosed : s.closed with
    | true => exact .refuse hclosed
    | false => exact .enter hclosed
  | locking =>
    simp only [step, Option.map_eq_some_iff, Prod.mk.injEq] at h
    obtain ⟨t, ht, rfl, rfl⟩ := h
    obtain ⟨hfree, rfl⟩ := Store.lock_eq_some_iff.1 ht
    exact .lock hfree
  | walking rest visited deleted =>
    cases rest with
    | nil => cases h; exact .finish
    | cons e rest => cases h
  | committing visited deleted =>
    cases failure with
    | some fault => cases h; exact .fail rfl
    | none =>
      cases deleted with
      | zero => cases h; exact .commitNothing rfl
      | succ n => cases h; exact .commit rfl (Nat.succ_ne_zero n)
  | releasing visited deleted => cases h; exact .release
  | tallying visited deleted => cases h; exact .tally
  | done result => cases h

/-- What has a result is done. -/
theorem eq_done {op : WalkOp} {r : Except StoreFault WalkSummary} (h : op.result? = some r) :
    op = done r := by
  cases op with
  | done result => cases h; rfl
  | _ => cases h

/-- An entry is offered by a walk that stands before it. -/
theorem offered?_eq_some_iff {op : WalkOp} {e : Entry} :
    op.offered? = some e ↔ ∃ rest visited deleted, op = walking (e :: rest) visited deleted := by
  constructor
  · intro h
    cases op with
    | walking rest visited deleted =>
      cases rest with
      | nil => cases h
      | cons x rest => cases h; exact ⟨rest, visited, deleted, rfl⟩
    | _ => cases h
  · rintro ⟨rest, visited, deleted, rfl⟩
    rfl

/-- A walk that offers nothing is left alone by an answer. -/
theorem answer_of_not_offered {op : WalkOp} (h : op.offered? = none) (v : Verdict) (s : Store) :
    op.answer v s = (op, s) := by
  cases op with
  | walking rest visited deleted =>
    cases rest with
    | nil => rfl
    | cons e rest => cases h
  | _ => rfl

end WalkOp

/-! ### Recounts -/

namespace RecountOp

/-- What a step can make of a recount and of the store. -/
inductive Step (s : Store) : RecountOp → RecountOp → Store → Prop
  | refuse (closed : s.closed = true) : Step s entering (done (.error .closed)) s
  | enter (isOpen : s.closed = false) : Step s entering locking s
  | lock (free : s.writer = none) :
      Step s locking recounting { s with writer := some s.table }
  | recount : Step s recounting (storing s.working.size) s
  | store {actual : Nat} : Step s (storing actual) (unlocking actual) (s.recounted actual)
  | unlock {actual : Nat} : Step s (unlocking actual) (done (.ok actual)) s.abort

theorem step_cases {s s' : Store} {op op' : RecountOp} (h : op.step s = some (op', s')) :
    Step s op op' s' := by
  cases op with
  | entering =>
    cases h
    cases hclosed : s.closed with
    | true => exact .refuse hclosed
    | false => exact .enter hclosed
  | locking =>
    simp only [step, Option.map_eq_some_iff, Prod.mk.injEq] at h
    obtain ⟨t, ht, rfl, rfl⟩ := h
    obtain ⟨hfree, rfl⟩ := Store.lock_eq_some_iff.1 ht
    exact .lock hfree
  | recounting => cases h; exact .recount
  | storing actual => cases h; exact .store
  | unlocking actual => cases h; exact .unlock
  | done result => cases h

/-- What has a result is done. -/
theorem eq_done {op : RecountOp} {r : Except StoreFault Nat} (h : op.result? = some r) :
    op = done r := by
  cases op with
  | done result => cases h; rfl
  | _ => cases h

end RecountOp

end Outbox
