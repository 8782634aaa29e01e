import Outbox.Proofs.Lists
import Outbox.Proofs.Store.WorkingCopy

namespace Outbox

/-!
# Whole operations

What an operation does to a store that nobody else works with:

* `Store.putUnder`, `Store.removeUnder`, `Store.walkUnder` — a whole put, removal or walk whose
  commit may fail; without a failure they are `Store.put`, `Store.remove` and `Store.walk`.
* `putUnder_done`, `removeUnder_done`, `walkUnder_done`, … — the result and the store afterwards,
  case by case.
* `RemovalOp.removed_eq` — a removal counts the different keys that have a value.
* `Tour` — what a visitor makes of entries in order; `visitAll_eq` says that a walk carries it out.
-/

/-! ### Puts -/

namespace Store

/-- A whole put; `failure` says why its commit would fail. -/
def putUnder (failure : Option EngineFault) (s : Store) (key value : Bytes) :
    Option (Except StoreFault Unit) × Store :=
  let (op, s) := iterate (fun (op, s) => PutOp.step failure op s) 8 (.entering key value, s)
  (op.result?, s)

/-- Without a failure this is a put. -/
theorem putUnder_none (s : Store) (key value : Bytes) :
    s.putUnder none key value = s.put key value := rfl

variable {s : Store} {failure : Option EngineFault} {fault : EngineFault}

section

variable {key value : Bytes}

/-- A closed store refuses a put. -/
theorem putUnder_closed (hc : s.closed = true) :
    s.putUnder failure key value = (some (.error .closed), s) := by
  simp [putUnder, iterate, PutOp.step, hc, PutOp.result?]

/-- An entry that cannot be written is refused. -/
theorem putUnder_refused (hc : s.closed = false) (hw : s.writer = none)
    (hr : PutOp.refusal? key value s.mapSize = some fault) :
    s.putUnder failure key value = (some (.error (.engine fault)), s) := by
  obtain ⟨table, writer, counter, puts, deletes, failedCommits, closed, mapSize⟩ := s
  obtain rfl : writer = none := hw
  obtain rfl : closed = false := hc
  have hr : PutOp.refusal? key value mapSize = some fault := hr
  simp [putUnder, iterate, PutOp.step, lock, hr, PutOp.result?, abort]

/-- A put that cannot be committed takes back what it has counted. -/
theorem putUnder_failed (hc : s.closed = false) (hw : s.writer = none)
    (hr : PutOp.refusal? key value s.mapSize = none) :
    s.putUnder (some fault) key value =
      (some (.error (.engine fault)), { s with failedCommits := s.failedCommits + 1 }) := by
  obtain ⟨table, writer, counter, puts, deletes, failedCommits, closed, mapSize⟩ := s
  obtain rfl : writer = none := hw
  obtain rfl : closed = false := hc
  have hr : PutOp.refusal? key value mapSize = none := hr
  by_cases hk : table.contains key = true
  · simp [putUnder, iterate, PutOp.step, lock, hr, PutOp.result?, abort, working, hk]
  · simp [putUnder, iterate, PutOp.step, lock, hr, PutOp.result?, abort, bump, retract, working, hk]

/-- A put that nothing hinders sets its key, and counts it if it is new. -/
theorem putUnder_done (hc : s.closed = false) (hw : s.writer = none)
    (hr : PutOp.refusal? key value s.mapSize = none) :
    s.putUnder none key value = (some (.ok ()), { s with
      table := s.table.insert key value
      counter := if s.table.contains key then s.counter else s.counter + 1
      puts := s.puts + 1 }) := by
  obtain ⟨table, writer, counter, puts, deletes, failedCommits, closed, mapSize⟩ := s
  obtain rfl : writer = none := hw
  obtain rfl : closed = false := hc
  have hr : PutOp.refusal? key value mapSize = none := hr
  by_cases hk : table.contains key = true
  · simp [putUnder, iterate, PutOp.step, lock, hr, PutOp.result?, commit, working, hk]
  · simp [putUnder, iterate, PutOp.step, lock, hr, PutOp.result?, bump, commit, working, hk]

end

/-! ### Removals -/

/-- A whole removal; `failure` says why its commit would fail. -/
def removeUnder (failure : Option EngineFault) (s : Store) (keys : List Bytes) :
    Option (Except StoreFault Nat) × Store :=
  let (op, s, _) := iterate
    (fun (op, s, journal) =>
      (RemovalOp.step failure op s).map fun (op, s, more) => (op, s, journal ++ more))
    6 (.entering keys, s, ([] : Journal))
  (op.result?, s)

/-- Without a failure this is a removal. -/
theorem removeUnder_none (s : Store) (keys : List Bytes) :
    s.removeUnder none keys = ((s.remove keys).1, (s.remove keys).2.1) := rfl

section

variable {keys : List Bytes}

/-- A closed store refuses a removal. -/
theorem removeUnder_closed (hc : s.closed = true) :
    s.removeUnder failure keys = (some (.error .closed), s) := by
  simp [removeUnder, iterate, RemovalOp.step, hc, RemovalOp.result?]

/-- Without a key there is no transaction. -/
theorem removeUnder_nil (hc : s.closed = false) :
    s.removeUnder failure [] = (some (.ok 0), s) := by
  simp [removeUnder, iterate, RemovalOp.step, hc, RemovalOp.result?]

/-- A removal that cannot be committed leaves the table as it is. -/
theorem removeUnder_failed (hc : s.closed = false) (hw : s.writer = none) (hk : keys ≠ []) :
    s.removeUnder (some fault) keys =
      (some (.error (.engine fault)), { s with failedCommits := s.failedCommits + 1 }) := by
  obtain ⟨table, writer, counter, puts, deletes, failedCommits, closed, mapSize⟩ := s
  obtain rfl : writer = none := hw
  obtain rfl : closed = false := hc
  simp [removeUnder, iterate, RemovalOp.step, lock, hk, RemovalOp.result?, failCommit, abort]

/-- A removal that nothing hinders erases its keys, and takes those that were there off the
    counter. -/
theorem removeUnder_done (hc : s.closed = false) (hw : s.writer = none) (hk : keys ≠ []) :
    s.removeUnder none keys = (some (.ok (RemovalOp.eraseKeys keys s.table).2.1),
      { s.release (RemovalOp.eraseKeys keys s.table).2.1 with
        table := (RemovalOp.eraseKeys keys s.table).1
        deletes := s.deletes + (RemovalOp.eraseKeys keys s.table).2.1 }) := by
  obtain ⟨table, writer, counter, puts, deletes, failedCommits, closed, mapSize⟩ := s
  obtain rfl : writer = none := hw
  obtain rfl : closed = false := hc
  -- where nothing is removed, the counters are not touched
  by_cases hn : (RemovalOp.eraseKeys keys table).2.1 = 0
  · simp [removeUnder, iterate, RemovalOp.step, lock, hk, RemovalOp.result?, commit, working, hn]
  · simp [removeUnder, iterate, RemovalOp.step, lock, hk, RemovalOp.result?, commit, working, hn,
      release, count]

end

end Store

namespace RemovalOp

/-- A listed key has no value any more, and the others have theirs. -/
theorem get?_eraseKeys {t : Table} (hnamed : ∀ e ∈ t.toList, e.key ≠ []) (keys : List Bytes)
    (k : Bytes) : (eraseKeys keys t).1.get? k = if k ∈ keys then none else t.get? k := by
  refine Option.ext fun v => ?_
  rw [Table.get?_eq_some_iff, mem_eraseKeys_iff]
  split
  · next hk =>
    -- the empty key would stay, but no entry has it
    simp only [reduceCtorEq, iff_false]
    rintro ⟨hin, hkey⟩
    exact hnamed _ hin (hkey hk)
  · next hk =>
    rw [Table.get?_eq_some_iff]
    exact ⟨fun h => h.1, fun h => ⟨h, fun hin => absurd hin hk⟩⟩

/-- A removal counts the different ones of its keys that have a value. -/
theorem removed_eq {t : Table} (hnamed : ∀ e ∈ t.toList, e.key ≠ []) (keys : List Bytes) :
    (eraseKeys keys t).2.1 = (keys.eraseDups.filter fun k => (t.get? k).isSome).length := by
  set present := keys.eraseDups.filter fun k => (t.get? k).isSome with hdef
  have hnd : present.Nodup := (nodup_eraseDups keys).filter _
  have hin : ∀ k ∈ present, t.contains k = true := by
    intro k hk
    rw [Table.contains_eq_isSome]
    exact (List.mem_filter.1 hk).2
  -- both ways of erasing leave the same entries
  have hsame : (eraseKeys keys t).1 = Table.eraseAll present t := by
    refine Table.ext_get? fun k => ?_
    rw [get?_eraseKeys hnamed, Table.get?_eraseAll, hdef]
    by_cases hk : k ∈ keys
    · cases hv : t.get? k <;> simp [hk, hv]
    · simp [hk]
  have hsize := size_eraseKeys keys t
  have hsize' := Table.size_eraseAll hnd hin
  rw [hsame] at hsize
  omega

end RemovalOp

/-! ### Walks -/

/-- How a visitor's tour of some entries ends. -/
inductive Tour.Ending where
  /-- After the last entry. -/
  | finished
  | stopped
  | aborted
  | died
  deriving DecidableEq

/-- What a visitor makes of entries in order. -/
structure Tour (σ : Type) where
  /-- How many entries it is asked about. -/
  visited : Nat
  /-- The keys of the entries that it deletes. -/
  deleted : List Bytes
  ending : Tour.Ending
  /-- What has become of the visitor. -/
  visitor : σ

namespace Tour

variable {σ : Type}

/-- The tour that begins with another entry. -/
def after (deleted : List Bytes) (t : Tour σ) : Tour σ :=
  { t with visited := t.visited + 1, deleted := deleted ++ t.deleted }

/-- The tour of a visitor that begins in a state. -/
def ofVisitor (visit : σ → Entry → Option Verdict × σ) : List Entry → σ → Tour σ
  | [], a => ⟨0, [], .finished, a⟩
  | e :: rest, a =>
    match visit a e with
    | (some .delete, a) => (ofVisitor visit rest a).after [e.key]
    | (some .keep, a) => (ofVisitor visit rest a).after []
    | (some .stop, a) => ⟨1, [], .stopped, a⟩
    | (some .abort, a) => ⟨1, [], .aborted, a⟩
    | (none, a) => ⟨1, [], .died, a⟩

/-- Whether what was deleted is committed. -/
def Ending.commits : Ending → Bool
  | finished | stopped => true
  | aborted | died => false

/-- The keys that are deleted are keys of the entries, in their order. -/
theorem deleted_sublist (visit : σ → Entry → Option Verdict × σ) (es : List Entry) (a : σ) :
    (ofVisitor visit es a).deleted.Sublist (es.map Entry.key) := by
  induction es generalizing a with
  | nil => exact List.Sublist.refl []
  | cons e rest ih =>
    unfold ofVisitor
    split
    · exact (ih _).cons_cons e.key
    · exact (ih _).cons e.key
    · exact List.nil_sublist _
    · exact List.nil_sublist _
    · exact List.nil_sublist _

/-- The deletions of a tour are as many entries less. -/
theorem size_eraseAll (visit : σ → Entry → Option Verdict × σ) (t : Table) (a : σ) :
    (Table.eraseAll (ofVisitor visit t.toList a).deleted t).size +
      (ofVisitor visit t.toList a).deleted.length = t.size := by
  have hsub := deleted_sublist visit t.toList a
  refine Table.size_eraseAll (hsub.nodup t.nodup_keys) fun k hk => ?_
  obtain ⟨e, he, rfl⟩ := List.mem_map.1 (hsub.subset hk)
  exact Table.contains_iff.2 ⟨e, he, rfl⟩

end Tour

namespace WalkOp

/-- What a walk has come to when a tour ends. -/
def ofEnding (visited deleted : Nat) : Tour.Ending → Option WalkOp
  | .finished => some (walking [] visited deleted)
  | .stopped => some (committing visited deleted)
  | .aborted => some (done (.ok ⟨visited, deleted, false⟩))
  | .died => none

variable {σ : Type} {visit : σ → Entry → Option Verdict × σ}

/-- A walk carries the visitor's tour out in the working copy, and drops that copy where the tour is
    not committed. -/
theorem visitAll_eq {s : Store} {w : Table} (hw : s.writer = some w) (rest : List Entry) (a : σ)
    (visited deleted : Nat) :
    visitAll visit rest a (walking rest visited deleted) s =
      (ofEnding (visited + (Tour.ofVisitor visit rest a).visited)
          (deleted + (Tour.ofVisitor visit rest a).deleted.length)
          (Tour.ofVisitor visit rest a).ending,
        (Tour.ofVisitor visit rest a).visitor,
        { s with writer := if (Tour.ofVisitor visit rest a).ending.commits = true
          then some (Table.eraseAll (Tour.ofVisitor visit rest a).deleted w) else none }) := by
  -- the working copy shrinks along the entries that are still to come
  induction rest generalizing a s w visited deleted with
  | nil =>
    simp only [visitAll, Tour.ofVisitor, Tour.Ending.commits, if_true, Table.eraseAll_nil, ← hw]
    rfl
  | cons e rest ih =>
    rcases hv : visit a e with ⟨_ | _ | _ | _ | _, b⟩
    · simp [visitAll, Tour.ofVisitor, hv, ofEnding, Tour.Ending.commits, Store.abort]
    · -- the entry goes, and the tour goes on in the copy without it
      have hw' : ({ s with writer := some (w.erase e.key) } : Store).writer =
          some (w.erase e.key) := rfl
      simp only [visitAll, hv, answer, Store.working_eq hw, true_or, if_true]
      rw [ih hw']
      simp [Tour.ofVisitor, hv, Tour.after, Nat.add_assoc, Nat.add_comm 1]
    · simp only [visitAll, hv, answer, or_true, if_true]
      rw [ih hw]
      simp [Tour.ofVisitor, hv, Tour.after, Nat.add_assoc, Nat.add_comm 1]
    · simp [visitAll, Tour.ofVisitor, hv, ofEnding, Tour.Ending.commits, answer, ← hw]
    · simp [visitAll, Tour.ofVisitor, hv, ofEnding, Tour.Ending.commits, answer, Store.abort]

end WalkOp

namespace Store

/-- A whole walk; `failure` says why its commit would fail. -/
def walkUnder {σ : Type} (failure : Option EngineFault) (s : Store)
    (visit : σ → Entry → Option Verdict × σ) (a : σ) :
    Option (Except StoreFault WalkSummary) × σ × Store :=
  let step := fun (op, s) => WalkOp.step failure op s
  let (op, s) := iterate step 2 (WalkOp.entering, s)
  match op with
  | .walking rest _ _ =>
    match WalkOp.visitAll visit rest a op s with
    | (none, a, s) => (none, a, s)
    | (some op, a, s) =>
      let (op, s) := iterate step 4 (op, s)
      (op.result?, a, s)
  | op => (op.result?, a, s)

/-- Without a failure this is a walk. -/
theorem walkUnder_none {σ : Type} (s : Store) (visit : σ → Entry → Option Verdict × σ) (a : σ) :
    s.walkUnder none visit a = s.walk visit a := rfl

section

variable {s : Store} {failure : Option EngineFault} {fault : EngineFault} {σ : Type}
  {visit : σ → Entry → Option Verdict × σ} {a : σ} {t : Tour σ}

/-- A closed store refuses a walk. -/
theorem walkUnder_closed (hc : s.closed = true) :
    s.walkUnder failure visit a = (some (.error .closed), a, s) := by
  simp [walkUnder, iterate, WalkOp.step, hc, WalkOp.result?]

/-- A walk that takes the lock makes the visitor's tour of the committed entries. -/
theorem walkUnder_eq (hc : s.closed = false) (hw : s.writer = none)
    (ht : Tour.ofVisitor visit s.table.toList a = t) :
    s.walkUnder failure visit a =
      match WalkOp.ofEnding t.visited t.deleted.length t.ending with
      | none => (none, t.visitor, s)
      | some op =>
        let (op, s) := iterate (fun (op, s) => WalkOp.step failure op s) 4 (op, { s with
          writer := if t.ending.commits = true
            then some (Table.eraseAll t.deleted s.table) else none })
        (op.result?, t.visitor, s) := by
  obtain ⟨table, writer, counter, puts, deletes, failedCommits, closed, mapSize⟩ := s
  obtain rfl : writer = none := hw
  obtain rfl : closed = false := hc
  subst ht
  have hstart : iterate (fun (op, s) => WalkOp.step failure op s) 2
      (.entering, ⟨table, none, counter, puts, deletes, failedCommits, false, mapSize⟩) =
      (.walking table.toList 0 0,
        ⟨table, some table, counter, puts, deletes, failedCommits, false, mapSize⟩) := rfl
  simp only [walkUnder, hstart]
  rw [WalkOp.visitAll_eq rfl]
  simp only [Nat.zero_add]
  cases (Tour.ofVisitor visit table.toList a).ending with
  | died => rfl
  | _ => rfl

/-- A walk whose visitor dies leaves everything as it is. -/
theorem walkUnder_died (hc : s.closed = false) (hw : s.writer = none)
    (ht : Tour.ofVisitor visit s.table.toList a = t) (he : t.ending = .died) :
    s.walkUnder failure visit a = (none, t.visitor, s) := by
  rw [walkUnder_eq hc hw ht, he]
  rfl

/-- A walk that is aborted deletes nothing. -/
theorem walkUnder_aborted (hc : s.closed = false) (hw : s.writer = none)
    (ht : Tour.ofVisitor visit s.table.toList a = t) (he : t.ending = .aborted) :
    s.walkUnder failure visit a =
      (some (.ok ⟨t.visited, t.deleted.length, false⟩), t.visitor, s) := by
  rw [walkUnder_eq hc hw ht, he]
  simp [WalkOp.ofEnding, iterate, WalkOp.step, WalkOp.result?, Tour.Ending.commits, ← hw]

/-- A walk that cannot be committed leaves the table as it is. -/
theorem walkUnder_failed (hc : s.closed = false) (hw : s.writer = none)
    (ht : Tour.ofVisitor visit s.table.toList a = t) (he : t.ending.commits = true) :
    s.walkUnder (some fault) visit a = (some (.error (.engine fault)), t.visitor,
      { s with failedCommits := s.failedCommits + 1 }) := by
  rw [walkUnder_eq hc hw ht]
  cases hend : t.ending with
  | finished | stopped =>
    simp [WalkOp.ofEnding, iterate, WalkOp.step, WalkOp.result?, failCommit, abort, ← hw]
  | aborted | died => rw [hend] at he; cases he

/-- A walk that nothing hinders deletes what its visitor has said. -/
theorem walkUnder_done (hc : s.closed = false) (hw : s.writer = none)
    (ht : Tour.ofVisitor visit s.table.toList a = t) (he : t.ending.commits = true) :
    s.walkUnder none visit a = (some (.ok ⟨t.visited, t.deleted.length, true⟩), t.visitor,
      { s.release t.deleted.length with
        table := Table.eraseAll t.deleted s.table
        deletes := s.deletes + t.deleted.length }) := by
  rw [walkUnder_eq hc hw ht]
  -- where nothing is deleted, the counters are not touched
  cases hend : t.ending with
  | finished | stopped =>
    by_cases hn : t.deleted.length = 0
    · simp [WalkOp.ofEnding, iterate, WalkOp.step, WalkOp.result?, Tour.Ending.commits, commit, hn,
        ← hw]
    · simp [WalkOp.ofEnding, iterate, WalkOp.step, WalkOp.result?, Tour.Ending.commits, commit, hn,
        release, count, ← hw]
  | aborted | died => rw [hend] at he; cases he

/-- A recount gives the number of entries. -/
theorem recount_done (hc : s.closed = false) (hw : s.writer = none) :
    s.recount = (some (.ok s.table.size), s.recounted s.table.size) := by
  obtain ⟨table, writer, counter, puts, deletes, failedCommits, closed, mapSize⟩ := s
  obtain rfl : writer = none := hw
  obtain rfl : closed = false := hc
  rfl

/-- A closed store refuses a recount. -/
theorem recount_closed (hc : s.closed = true) : s.recount = (some (.error .closed), s) := by
  simp [recount, iterate, RecountOp.step, hc, RecountOp.result?]

end

end Store

end Outbox
