import Outbox.Proofs.Store.Whole

namespace Outbox

/-!
# Registers

What a store is to the one process that works with it: an ordered map with counters, which is
opened, closed and opened again.

* `StoreCall`, `StoreEvent`, `StoreReply` — what is asked of a store, what happens to it, and what
  comes back.
* `Register` — a map from keys to values with counters, and whether it is open.
* `Register.Serves`, `Register.Step`, `Register.Runs` — what a register replies, and what it
  becomes.
* `Register.Runs.unique` — nothing else is left open.
* `Register.Runs.tally_eq` — the counters can be told from the replies.
-/

variable {σ : Type}

/-! ### What happens to a store -/

/-- What is asked of an open store. A `failure` says why the commit of the operation fails. -/
inductive StoreCall (σ : Type) where
  | put (key value : Bytes) (failure : Option EngineFault)
  | scan (limit : Nat)
  | remove (keys : List Bytes) (failure : Option EngineFault)
  /-- A walk with a visitor, which dies where it gives no verdict. -/
  | walk (visit : σ → Entry → Option Verdict × σ) (visitor : σ) (failure : Option EngineFault)
  | recount
  | count
  | stats
  | close

/-- What happens to a store. -/
inductive StoreEvent (σ : Type) where
  | call (c : StoreCall σ)
  /-- The store is dropped without being closed, or after it. -/
  | drop
  /-- The process dies in a walk that has been given some verdicts. -/
  | crash (verdicts : List Verdict)
  | reopen

/-- What comes back. -/
inductive StoreReply (σ : Type) where
  | put (r : Option (Except StoreFault Unit))
  | entries (r : Except StoreFault (List Entry))
  | removed (r : Option (Except StoreFault Nat))
  /-- With what has become of the visitor. -/
  | walked (r : Option (Except StoreFault WalkSummary)) (visitor : σ)
  | recounted (r : Option (Except StoreFault Nat))
  | count (n : Nat)
  | stats (s : StoreStats)
  | closed
  /-- No store is open. -/
  | absent
  /-- The store is not open any more. -/
  | gone
  /-- The store is open and has some entries. -/
  | opened (count : Nat)
  | unopened (f : Failure)

namespace StoreCall

/-- What a call replies that fails; some calls do not fail. -/
def failed (fault : StoreFault) : StoreCall σ → Option (StoreReply σ)
  | put _ _ _ => some (.put (some (.error fault)))
  | scan _ => some (.entries (.error fault))
  | remove _ _ => some (.removed (some (.error fault)))
  | walk _ visitor _ => some (.walked (some (.error fault)) visitor)
  | recount => some (.recounted (some (.error fault)))
  | count | stats | close => none

end StoreCall

/-! ### Registers -/

/-- Whether a register can be worked with. -/
inductive Register.Phase where
  | working
  | closed
  /-- Nobody has it open. -/
  | away
  deriving DecidableEq

/-- A map from keys to values, with counters that are reset when it is opened. -/
structure Register where
  value? : Bytes → Option Bytes
  /-- No value may be longer than this. -/
  room : Nat
  /-- How many puts have succeeded. -/
  puts : Nat
  /-- How many entries have been removed. -/
  deletes : Nat
  /-- How many transactions could not be committed. -/
  failures : Nat
  phase : Register.Phase

namespace Register

/-- A register that has just been opened. -/
def opened (value? : Bytes → Option Bytes) (room : Nat) : Register :=
  ⟨value?, room, 0, 0, 0, .working⟩

/-- The register after an entry is put. -/
def put (r : Register) (key value : Bytes) : Register :=
  { r with value? := fun k => if k = key then some value else r.value? k, puts := r.puts + 1 }

/-- The register after the entries of some keys are removed, which are so many. -/
def remove (r : Register) (keys : List Bytes) (removed : Nat) : Register :=
  { r with
    value? := fun k => if k ∈ keys then none else r.value? k
    deletes := r.deletes + removed }

/-- The register after a transaction that could not be committed. -/
def fail (r : Register) : Register := { r with failures := r.failures + 1 }

/-- The entries of a register in the order of their keys. -/
structure Lists (r : Register) (es : List Entry) : Prop where
  sorted : es.Pairwise fun a b => a.key < b.key
  value?_eq_some_iff : ∀ {key value}, r.value? key = some value ↔ (⟨key, value⟩ : Entry) ∈ es

/-- What an open register with some entries replies to a call, and what it becomes. A key has at
    least one byte and at most 511. -/
inductive Serves (r : Register) (es : List Entry) : StoreCall σ → StoreReply σ → Register → Prop
  | put {key value : Bytes} (named : key ≠ []) (short : key.length ≤ 511)
      (fits : value.length ≤ r.room) :
      Serves r es (.put key value none) (.put (some (.ok ()))) (r.put key value)
  | putBadKey {key value : Bytes} {failure : Option EngineFault}
      (bad : key = [] ∨ 511 < key.length) :
      Serves r es (.put key value failure) (.put (some (.error (.engine .badValueSize)))) r
  | putTooLarge {key value : Bytes} {failure : Option EngineFault} (named : key ≠ [])
      (short : key.length ≤ 511) (large : r.room < value.length) :
      Serves r es (.put key value failure) (.put (some (.error (.engine .mapFull)))) r
  | putFailed {key value : Bytes} {fault : EngineFault} (named : key ≠ [])
      (short : key.length ≤ 511) (fits : value.length ≤ r.room) :
      Serves r es (.put key value (some fault)) (.put (some (.error (.engine fault)))) r.fail
  | scan {limit : Nat} : Serves r es (.scan limit) (.entries (.ok (es.take limit))) r
  /-- Without a key there is nothing to be committed. -/
  | removeNothing {failure : Option EngineFault} :
      Serves r es (.remove [] failure) (.removed (some (.ok 0))) r
  | remove {keys : List Bytes} {removed : Nat} (nonempty : keys ≠ [])
      (exact : removed = (keys.eraseDups.filter fun k => (r.value? k).isSome).length) :
      Serves r es (.remove keys none) (.removed (some (.ok removed))) (r.remove keys removed)
  | removeFailed {keys : List Bytes} {fault : EngineFault} (nonempty : keys ≠ []) :
      Serves r es (.remove keys (some fault)) (.removed (some (.error (.engine fault)))) r.fail
  | walk {visit : σ → Entry → Option Verdict × σ} {visitor : σ} {t : Tour σ}
      (tour : Tour.ofVisitor visit es visitor = t) (ends : t.ending.commits = true) :
      Serves r es (.walk visit visitor none)
        (.walked (some (.ok ⟨t.visited, t.deleted.length, true⟩)) t.visitor)
        (r.remove t.deleted t.deleted.length)
  | walkAborted {visit : σ → Entry → Option Verdict × σ} {visitor : σ}
      {failure : Option EngineFault} {t : Tour σ} (tour : Tour.ofVisitor visit es visitor = t)
      (ends : t.ending = .aborted) :
      Serves r es (.walk visit visitor failure)
        (.walked (some (.ok ⟨t.visited, t.deleted.length, false⟩)) t.visitor) r
  /-- The visitor's death is all that comes back. -/
  | walkDied {visit : σ → Entry → Option Verdict × σ} {visitor : σ}
      {failure : Option EngineFault} {t : Tour σ} (tour : Tour.ofVisitor visit es visitor = t)
      (ends : t.ending = .died) :
      Serves r es (.walk visit visitor failure) (.walked none t.visitor) r
  | walkFailed {visit : σ → Entry → Option Verdict × σ} {visitor : σ} {fault : EngineFault}
      {t : Tour σ} (tour : Tour.ofVisitor visit es visitor = t) (ends : t.ending.commits = true) :
      Serves r es (.walk visit visitor (some fault))
        (.walked (some (.error (.engine fault))) t.visitor) r.fail
  | recount : Serves r es .recount (.recounted (some (.ok es.length))) r
  | count : Serves r es .count (.count es.length) r
  | stats :
      Serves r es .stats
        (.stats ⟨.ofNat es.length, .ofNat r.puts, .ofNat r.deletes, .ofNat r.failures⟩) r
  | close : Serves r es .close .closed { r with phase := .closed }

/-- What comes back when something happens to a register, and what it becomes. -/
inductive Step (r : Register) : StoreEvent σ → StoreReply σ → Register → Prop
  | serve {es : List Entry} {call : StoreCall σ} {reply : StoreReply σ} {r' : Register}
      (working : r.phase = .working) (lists : r.Lists es) (serves : r.Serves es call reply r') :
      Step r (.call call) reply r'
  /-- What can fail does so as long as the register is closed. -/
  | refuse {call : StoreCall σ} {reply : StoreReply σ} (closed : r.phase = .closed)
      (fails : call.failed .closed = some reply)
      (wording : StoreFault.closed.message = "Store is closed") : Step r (.call call) reply r
  | look {es : List Entry} {call : StoreCall σ} {reply : StoreReply σ} {r' : Register}
      (closed : r.phase = .closed) (lists : r.Lists es) (looks : call.failed .closed = none)
      (serves : r.Serves es call reply r') : Step r (.call call) reply r'
  | miss {call : StoreCall σ} (away : r.phase = .away) : Step r (.call call) .absent r
  | drop : Step r .drop .gone { r with phase := .away }
  | crash {verdicts : List Verdict} : Step r (.crash verdicts) .gone { r with phase := .away }
  | reopen {es : List Entry} (lists : r.Lists es) :
      Step r .reopen (.opened es.length) (opened r.value? r.room)

/-- What comes back when one thing happens after another. -/
inductive Runs : Register → List (StoreEvent σ) → List (StoreReply σ) → Register → Prop
  | nil {r : Register} : Runs r [] [] r
  | cons {r r' r'' : Register} {event : StoreEvent σ} {reply : StoreReply σ}
      {events : List (StoreEvent σ)} {replies : List (StoreReply σ)}
      (first : r.Step event reply r') (rest : Runs r' events replies r'') :
      Runs r (event :: events) (reply :: replies) r''

/-! ### What a register leaves open -/

variable {r r₁ r₂ : Register} {es es' : List Entry}

theorem Lists.unique (h : r.Lists es) (h' : r.Lists es') : es = es' := by
  refine Table.eq_of_mem_iff h.sorted h'.sorted fun e => ?_
  exact h.value?_eq_some_iff.symm.trans h'.value?_eq_some_iff

/-- The conditions of two answers to one call exclude each other. -/
theorem Serves.unique {call : StoreCall σ} {a b : StoreReply σ} (h : r.Serves es call a r₁)
    (h' : r.Serves es call b r₂) : a = b ∧ r₁ = r₂ := by
  cases h <;> cases h' <;> grind [Tour.Ending.commits]

theorem Step.unique {event : StoreEvent σ} {a b : StoreReply σ} (h : r.Step event a r₁)
    (h' : r.Step event b r₂) : a = b ∧ r₁ = r₂ := by
  -- a register is in one phase only, and has one list of entries
  cases h with
  | serve working lists serves =>
    cases h' with
    | serve _ lists' serves' =>
      obtain rfl := lists.unique lists'
      exact serves.unique serves'
    | refuse closed => simp [working] at closed
    | look closed => simp [working] at closed
    | miss away => simp [working] at away
  | refuse closed fails =>
    cases h' with
    | serve working => simp [closed] at working
    | refuse _ fails' => exact ⟨Option.some.inj (fails.symm.trans fails'), rfl⟩
    | look _ _ looks => simp [fails] at looks
    | miss away => simp [closed] at away
  | look closed lists looks serves =>
    cases h' with
    | serve working => simp [closed] at working
    | refuse _ fails => simp [looks] at fails
    | look _ lists' _ serves' =>
      obtain rfl := lists.unique lists'
      exact serves.unique serves'
    | miss away => simp [closed] at away
  | miss away =>
    cases h' with
    | serve working => simp [away] at working
    | refuse closed => simp [away] at closed
    | look closed => simp [away] at closed
    | miss _ => exact ⟨rfl, rfl⟩
  | drop => cases h'; exact ⟨rfl, rfl⟩
  | crash => cases h'; exact ⟨rfl, rfl⟩
  | reopen lists =>
    cases h' with
    | reopen lists' =>
      obtain rfl := lists.unique lists'
      exact ⟨rfl, rfl⟩

/-- The replies of a register follow from what happens to it. -/
theorem Runs.unique {events : List (StoreEvent σ)} {as bs : List (StoreReply σ)}
    (h : Runs r events as r₁) (h' : Runs r events bs r₂) : as = bs ∧ r₁ = r₂ := by
  induction h generalizing bs r₂ with
  | nil => cases h'; exact ⟨rfl, rfl⟩
  | cons first rest ih =>
    cases h' with
    | cons first' rest' =>
      obtain ⟨rfl, rfl⟩ := first.unique first'
      obtain ⟨rfl, rfl⟩ := ih rest'
      exact ⟨rfl, rfl⟩

/-! ### Its counters -/

/-- The puts that have succeeded and the entries that have been removed since a register was opened
    last, after another reply. -/
def tally : Nat × Nat → StoreReply σ → Nat × Nat
  | (puts, deletes), .put (some (.ok ())) => (puts + 1, deletes)
  | (puts, deletes), .removed (some (.ok removed)) => (puts, deletes + removed)
  | (puts, deletes), .walked (some (.ok ⟨_, deleted, true⟩)) _ => (puts, deletes + deleted)
  | _, .opened _ => (0, 0)
  | counts, _ => counts

theorem Step.tally_eq {event : StoreEvent σ} {reply : StoreReply σ} (h : r.Step event reply r₁) :
    (r₁.puts, r₁.deletes) = tally (r.puts, r.deletes) reply := by
  cases h with
  | serve _ _ serves => cases serves <;> rfl
  | @refuse call _ _ fails => cases call <;> cases fails <;> rfl
  | look _ _ _ serves => cases serves <;> rfl
  | miss | drop | crash | reopen => rfl

/-- The counters tell how many puts have succeeded and how many entries have been removed. -/
theorem Runs.tally_eq {events : List (StoreEvent σ)} {replies : List (StoreReply σ)}
    (h : Runs r events replies r₁) :
    (r₁.puts, r₁.deletes) = replies.foldl tally (r.puts, r.deletes) := by
  induction h with
  | nil => rfl
  | cons first rest ih => rw [ih, first.tally_eq, List.foldl_cons]

end Register

end Outbox
