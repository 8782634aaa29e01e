import Outbox.Store.Basic

namespace Outbox

/-!
# Locked walks

* `Verdict` — what is to become of a visited entry and of the walk.
* `WalkOp` — how far a walk over the entries under the lock has come.
* `WalkOp.step`, `WalkOp.answer` — its next step, and what a visitor's answer makes of it.
* `Store.walk` — a whole walk with a visitor, where nothing comes between its steps.

A walk that is aborted, or whose visitor dies, leaves no trace.
-/

/-- What is to become of a visited entry and of the walk. -/
inductive Verdict where
  /-- The entry is deleted. -/
  | delete
  /-- The entry stays. -/
  | keep
  /-- The entry stays and the walk ends; what it deleted is committed. -/
  | stop
  /-- The walk ends and everything stays. -/
  | abort
  deriving DecidableEq, Repr

/-- What a walk did. -/
structure WalkSummary where
  visited : Nat
  deleted : Nat
  committed : Bool
  deriving DecidableEq, Repr

/-- How far a walk has come. -/
inductive WalkOp where
  /-- About to see whether the store is open. -/
  | entering
  /-- About to take the lock. -/
  | locking
  /-- Before the entries of `rest`, the first of which the visitor is asked about. -/
  | walking (rest : List Entry) (visited deleted : Nat)
  /-- About to commit. -/
  | committing (visited deleted : Nat)
  /-- About to lower the count. -/
  | releasing (visited deleted : Nat)
  /-- About to raise the deletes. -/
  | tallying (visited deleted : Nat)
  | done (result : Except StoreFault WalkSummary)

namespace WalkOp

/-- The next step, except for an answer; `failure` says why a commit would fail. -/
def step (failure : Option EngineFault) : WalkOp → Store → Option (WalkOp × Store)
  | entering, s => some (if s.closed then done (.error .closed) else locking, s)
  | locking, s => s.lock.map fun s => (walking s.table.toList 0 0, s)
  | walking [] visited deleted, s => some (committing visited deleted, s)
  | walking (_ :: _) _ _, _ => none
  | committing visited deleted, s =>
    match failure with
    | some fault => some (done (.error (.engine fault)), s.failCommit)
    | none =>
      some (if deleted = 0 then done (.ok ⟨visited, 0, true⟩) else releasing visited deleted,
        s.commit)
  | releasing visited deleted, s =>
    some (tallying visited deleted, s.release deleted)
  | tallying visited deleted, s =>
    some (done (.ok ⟨visited, deleted, true⟩), { s with deletes := s.deletes + deleted })
  | done _, _ => none

/-- The entry that the visitor is asked about. -/
def offered? : WalkOp → Option Entry
  | walking (e :: _) _ _ => some e
  | _ => none

/-- What the visitor's answer makes of a walk. -/
def answer (v : Verdict) : WalkOp → Store → WalkOp × Store
  | walking (e :: rest) visited deleted, s =>
    match v with
    | .delete =>
      (walking rest (visited + 1) (deleted + 1), { s with writer := some (s.working.erase e.key) })
    | .keep => (walking rest (visited + 1) deleted, s)
    | .stop => (committing (visited + 1) deleted, s)
    | .abort => (done (.ok ⟨visited + 1, deleted, false⟩), s.abort)
  | op, s => (op, s)

/-- The result of a walk that is done. -/
def result? : WalkOp → Option (Except StoreFault WalkSummary)
  | done r => some r
  | _ => none

/-- Asks a visitor about entries in order, until it ends the walk or dies. -/
def visitAll {σ : Type} (visit : σ → Entry → Option Verdict × σ) :
    (rest : List Entry) → σ → WalkOp → Store → Option WalkOp × σ × Store
  | [], a, op, s => (some op, a, s)
  | e :: rest, a, op, s =>
    match visit a e with
    | (none, a) => (none, a, s.abort)
    | (some v, a) =>
      let (op, s) := op.answer v s
      if v = .delete ∨ v = .keep then visitAll visit rest a op s else (some op, a, s)

end WalkOp

/-- Walks over the entries and asks a visitor about each; the visitor dies where it gives no
    answer, and the walk has then no result. -/
def Store.walk {σ : Type} (s : Store) (visit : σ → Entry → Option Verdict × σ) (a : σ) :
    Option (Except StoreFault WalkSummary) × σ × Store :=
  let step := fun (op, s) => WalkOp.step none op s
  let (op, s) := Store.iterate step 2 (WalkOp.entering, s)
  match op with
  | .walking rest _ _ =>
    match WalkOp.visitAll visit rest a op s with
    | (none, a, s) => (none, a, s)
    | (some op, a, s) =>
      let (op, s) := Store.iterate step 4 (op, s)
      (op.result?, a, s)
  | op => (op.result?, a, s)

end Outbox
