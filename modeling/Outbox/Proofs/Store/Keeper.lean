import Outbox.Proofs.Disk
import Outbox.Proofs.Store.Register

namespace Outbox

/-!
# A store is a register

One process works with a store: it calls its operations, drops the store, dies in the middle of a
walk, and opens the store again.

* `Keeper` — the disk and the open store on it; `Keeper.run` lets things happen to the store with
  the operations of `Store` and `Disk`.
* `Store.Shows`, `Keeper.Shows` — which register a store stands for.
* `Store.Shows.step`, `Keeper.Shows.step` — whatever happens to the store happens to the register.
* `Keeper.runs_as_register` — whatever happens, the replies are those of a register.
-/

variable {σ : Type}

/-! ### What happens to a store -/

/-- Carries a call out. -/
def StoreCall.perform : StoreCall σ → Store → StoreReply σ × Store
  | put key value failure, s =>
    let (r, s) := s.putUnder failure key value
    (.put r, s)
  | scan limit, s => (.entries (s.scan limit), s)
  | remove keys failure, s =>
    let (r, s) := s.removeUnder failure keys
    (.removed r, s)
  | walk visit visitor failure, s =>
    let (r, visitor, s) := s.walkUnder failure visit visitor
    (.walked r visitor, s)
  | recount, s =>
    let (r, s) := s.recount
    (.recounted r, s)
  | count, s => (.count s.count, s)
  | stats, s => (.stats s.stats, s)
  | close, s => (.closed, s.close)

/-- A store in the middle of a walk that has been given some verdicts. -/
def Store.midWalk (s : Store) (verdicts : List Verdict) : Store :=
  let (op, s) := iterate (fun (op, s) => WalkOp.step none op s) 2 (WalkOp.entering, s)
  (verdicts.foldl (fun (op, s) v => WalkOp.answer v op s) (op, s)).2

/-- A disk, where the store lives on it, and the store while it is open. -/
structure Keeper where
  disk : Disk
  home : Home
  store? : Option Store

namespace Keeper

/-- Lets something happen to the store of a configuration. What is committed is on the disk. -/
def step (c : StoreConfig) (k : Keeper) : StoreEvent σ → StoreReply σ × Keeper
  | .call call =>
    match k.store? with
    | none => (.absent, k)
    | some s =>
      let (reply, s) := call.perform s
      (reply, ⟨k.disk.save k.home s.table, k.home, some s⟩)
  | .drop => (.gone, { k with store? := none })
  | .crash verdicts =>
    match k.store? with
    | none => (.gone, k)
    | some s => (.gone, ⟨k.disk.save k.home (s.midWalk verdicts).table, k.home, none⟩)
  | .reopen =>
    match k.disk.openStore c with
    | (disk, .ok (home, s)) => (.opened s.count, ⟨disk, home, some s⟩)
    | (disk, .error f) => (.unopened f, ⟨disk, k.home, none⟩)

/-- Lets one thing happen after another, and gives the replies. -/
def run (c : StoreConfig) (k : Keeper) : List (StoreEvent σ) → List (StoreReply σ) × Keeper
  | [] => ([], k)
  | event :: events =>
    let (reply, k) := k.step c event
    let (replies, k) := run c k events
    (reply :: replies, k)

end Keeper

/-! ### What a store stands for -/

/-- An open store stands for a register. -/
structure Store.Shows (s : Store) (r : Register) : Prop where
  value : ∀ key, s.table.get? key = r.value? key
  named : ∀ e ∈ s.table.toList, e.key ≠ []
  /-- Nobody holds the lock. -/
  free : s.writer = none
  counter : s.counter = s.table.size
  puts : s.puts = r.puts
  deletes : s.deletes = r.deletes
  failures : s.failedCommits = r.failures
  room : s.mapSize = r.room
  phase : r.phase = if s.closed then .closed else .working

/-- What is on the disk, and the store while it is open, stand for a register. -/
inductive Keeper.Shows (c : StoreConfig) (r : Register) : Keeper → Prop
  | present {disk : Disk} {home : Home} {s : Store} (files : disk.Holds c home r.room s.table)
      (shows : s.Shows r) : Shows c r ⟨disk, home, some s⟩
  | away {disk : Disk} {home : Home} {t : Table} (files : disk.Holds c home r.room t)
      (value : ∀ key, t.get? key = r.value? key) (named : ∀ e ∈ t.toList, e.key ≠ [])
      (phase : r.phase = .away) : Shows c r ⟨disk, home, none⟩

/-- The entries of a table with the values of a register are those of the register. -/
theorem Table.lists {t : Table} {r : Register} (h : ∀ key, t.get? key = r.value? key) :
    r.Lists t.toList :=
  ⟨t.sorted, fun {key _} => by rw [← h key, Table.get?_eq_some_iff]⟩

/-! ### Calls of an open store -/

namespace Store.Shows

variable {s : Store} {r : Register}

theorem count (h : s.Shows r) : s.count = s.table.size :=
  count_of_eq h.counter

/-- A failed commit is counted, and that is all. -/
theorem fail (h : s.Shows r) :
    ({ s with failedCommits := s.failedCommits + 1 } : Store).Shows r.fail :=
  ⟨h.value, h.named, h.free, h.counter, h.puts, h.deletes, congrArg (· + 1) h.failures, h.room,
    h.phase⟩

theorem put (h : s.Shows r) {key value : Bytes} (hk : key ≠ []) :
    ({ s with
      table := s.table.insert key value
      counter := if s.table.contains key then s.counter else s.counter + 1
      puts := s.puts + 1 } : Store).Shows (r.put key value) where
  value k := by
    show (s.table.insert key value).get? k = if k = key then some value else r.value? k
    rw [Table.get?_insert, h.value]
    simp only [eq_comm]
  named e he := by
    rcases Table.mem_insert_iff.1 he with rfl | ⟨he, -⟩
    · exact hk
    · exact h.named e he
  free := h.free
  counter := by
    show (if s.table.contains key then s.counter else s.counter + 1) =
      ((s.table.insert key value).size : Int)
    rw [Table.size_insert, h.counter]
    split <;> rfl
  puts := congrArg (· + 1) h.puts
  deletes := h.deletes
  failures := h.failures
  room := h.room
  phase := h.phase

/-- The entries of some keys are gone, and there are so many less. -/
theorem remove (h : s.Shows r) {keys : List Bytes} {t : Table} {removed : Nat}
    (hvalue : ∀ k, t.get? k = if k ∈ keys then none else s.table.get? k)
    (hsize : t.size + removed = s.table.size) :
    ({ s.release removed with
      table := t
      deletes := s.deletes + removed } : Store).Shows (r.remove keys removed) where
  value k := by
    show t.get? k = if k ∈ keys then none else r.value? k
    rw [hvalue, h.value]
  named e he := by
    -- what is left was there before
    have hleft := hvalue e.key
    rw [Table.get?_eq_some_iff.2 he] at hleft
    split at hleft
    · cases hleft
    · exact h.named e (Table.get?_eq_some_iff.1 hleft.symm)
  free := h.free
  counter := by
    have hcount := h.count
    have hcounter := counter_release (s := s) (n := removed) (by omega)
    have hbefore := h.counter
    show (s.release removed).counter = t.size
    omega
  puts := h.puts
  deletes := congrArg (· + removed) h.deletes
  failures := h.failures
  room := h.room
  phase := h.phase

/-- What a call replies, and what it makes of the store, is what an open register has for it. -/
def Answers (s : Store) (r : Register) (call : StoreCall σ) : Prop :=
  ∃ r', r.Serves s.table.toList call (call.perform s).1 r' ∧ (call.perform s).2.Shows r' ∧
    r'.room = r.room

theorem answers_put (h : s.Shows r) (hopen : s.closed = false) (key value : Bytes)
    (failure : Option EngineFault) :
    Answers s r (.put key value failure : StoreCall σ) := by
  unfold Answers
  simp only [StoreCall.perform]
  by_cases hbad : key = [] ∨ 511 < key.length
  · have hr : PutOp.refusal? key value s.mapSize = some .badValueSize := if_pos hbad
    rw [putUnder_refused hopen h.free hr]
    exact ⟨r, .putBadKey hbad, h, rfl⟩
  obtain ⟨hnamed, hshort⟩ := not_or.1 hbad
  have hshort : key.length ≤ 511 := Nat.not_lt.1 hshort
  by_cases hlarge : r.room < value.length
  · have hr : PutOp.refusal? key value s.mapSize = some .mapFull :=
      (if_neg hbad).trans (if_pos (h.room.symm ▸ hlarge))
    rw [putUnder_refused hopen h.free hr]
    exact ⟨r, .putTooLarge hnamed hshort hlarge, h, rfl⟩
  have hfits : value.length ≤ r.room := Nat.not_lt.1 hlarge
  have hr : PutOp.refusal? key value s.mapSize = none :=
    (if_neg hbad).trans (if_neg (h.room.symm ▸ hlarge))
  cases failure with
  | none =>
    rw [putUnder_done hopen h.free hr]
    exact ⟨_, .put hnamed hshort hfits, h.put hnamed, rfl⟩
  | some fault =>
    rw [putUnder_failed hopen h.free hr]
    exact ⟨_, .putFailed hnamed hshort hfits, h.fail, rfl⟩

theorem answers_remove (h : s.Shows r) (hopen : s.closed = false) (keys : List Bytes)
    (failure : Option EngineFault) :
    Answers s r (.remove keys failure : StoreCall σ) := by
  unfold Answers
  simp only [StoreCall.perform]
  by_cases hk : keys = []
  · subst hk
    rw [removeUnder_nil hopen]
    exact ⟨r, .removeNothing, h, rfl⟩
  cases failure with
  | some fault =>
    rw [removeUnder_failed hopen h.free hk]
    exact ⟨_, .removeFailed hk, h.fail, rfl⟩
  | none =>
    rw [removeUnder_done hopen h.free hk]
    have hremoved := RemovalOp.removed_eq h.named keys
    simp only [h.value] at hremoved
    exact ⟨_, .remove hk hremoved, h.remove (RemovalOp.get?_eraseKeys h.named keys)
      (RemovalOp.size_eraseKeys keys s.table), rfl⟩

theorem answers_walk (h : s.Shows r) (hopen : s.closed = false)
    (visit : σ → Entry → Option Verdict × σ) (visitor : σ) (failure : Option EngineFault) :
    Answers s r (.walk visit visitor failure) := by
  unfold Answers
  simp only [StoreCall.perform]
  -- the visitor makes the same tour of the committed entries as of those of the register
  have hsize := Tour.size_eraseAll visit s.table visitor
  generalize ht : Tour.ofVisitor visit s.table.toList visitor = t at hsize
  cases hends : t.ending with
  | died =>
    rw [walkUnder_died hopen h.free ht hends]
    exact ⟨r, .walkDied ht hends, h, rfl⟩
  | aborted =>
    rw [walkUnder_aborted hopen h.free ht hends]
    exact ⟨r, .walkAborted ht hends, h, rfl⟩
  | finished | stopped =>
    have hcommits : t.ending.commits = true := by rw [hends]; rfl
    cases failure with
    | some fault =>
      rw [walkUnder_failed hopen h.free ht hcommits]
      exact ⟨_, .walkFailed ht hcommits, h.fail, rfl⟩
    | none =>
      rw [walkUnder_done hopen h.free ht hcommits]
      exact ⟨_, .walk ht hcommits, h.remove (Table.get?_eraseAll t.deleted s.table) hsize, rfl⟩

/-- A closed store can be looked at as an open one can. -/
theorem answers_look (h : s.Shows r) {call : StoreCall σ} (hlook : call.failed .closed = none) :
    Answers s r call := by
  cases call with
  | count =>
    refine ⟨r, ?_, h, rfl⟩
    simp only [StoreCall.perform, h.count]
    exact .count
  | stats =>
    refine ⟨r, ?_, h, rfl⟩
    simp only [StoreCall.perform, stats, h.count, h.puts, h.deletes, h.failures]
    exact .stats
  | close =>
    exact ⟨_, .close, ⟨h.value, h.named, h.free, h.counter, h.puts, h.deletes, h.failures, h.room,
      rfl⟩, rfl⟩
  | _ => cases hlook

/-- An open store answers every call as its register does. -/
theorem answers (h : s.Shows r) (hopen : s.closed = false) (call : StoreCall σ) :
    Answers s r call := by
  cases call with
  | put key value failure => exact h.answers_put hopen key value failure
  | scan limit =>
    have hscan : s.scan limit = .ok (s.table.toList.take limit) := by simp [scan, hopen]
    refine ⟨r, ?_, h, rfl⟩
    simp only [StoreCall.perform, hscan]
    exact .scan
  | remove keys failure => exact h.answers_remove hopen keys failure
  | walk visit visitor failure => exact h.answers_walk hopen visit visitor failure
  | recount =>
    -- the counter is overwritten with what it has been
    have hsame : s.recounted s.table.size = s := by rw [recounted, ← h.counter]
    unfold Answers
    simp only [StoreCall.perform, recount_done hopen h.free, hsame]
    exact ⟨r, .recount, h, rfl⟩
  | count | stats | close => exact h.answers_look rfl

/-- A closed store fails where it can. -/
theorem perform_of_closed (hclosed : s.closed = true) {call : StoreCall σ} {reply : StoreReply σ}
    (hfails : call.failed .closed = some reply) : call.perform s = (reply, s) := by
  cases call with
  | put key value failure => cases hfails; simp only [StoreCall.perform, putUnder_closed hclosed]
  | scan limit => cases hfails; simp [StoreCall.perform, scan, hclosed]
  | remove keys failure => cases hfails; simp only [StoreCall.perform, removeUnder_closed hclosed]
  | walk visit visitor failure =>
    cases hfails
    simp only [StoreCall.perform, walkUnder_closed hclosed]
  | recount => cases hfails; simp only [StoreCall.perform, recount_closed hclosed]
  | count | stats | close => cases hfails

/-- A call of a store is one of the register, whether it is open or closed. -/
theorem step (h : s.Shows r) (call : StoreCall σ) :
    ∃ r', r.Step (.call call) (call.perform s).1 r' ∧ (call.perform s).2.Shows r' ∧
      r'.room = r.room := by
  cases hclosed : s.closed with
  | false =>
    have hphase : r.phase = .working := by simpa [hclosed] using h.phase
    obtain ⟨r', hserves, hshows, hroom⟩ := h.answers hclosed call
    exact ⟨r', .serve hphase (Table.lists h.value) hserves, hshows, hroom⟩
  | true =>
    have hphase : r.phase = .closed := by simpa [hclosed] using h.phase
    cases hfails : call.failed .closed with
    | some reply =>
      rw [perform_of_closed hclosed hfails]
      exact ⟨r, .refuse hphase hfails rfl, h, rfl⟩
    | none =>
      obtain ⟨r', hserves, hshows, hroom⟩ := h.answers_look hfails
      exact ⟨r', .look hphase (Table.lists h.value) hfails hserves, hshows, hroom⟩

end Store.Shows

/-! ### Everything that happens to a store -/

/-- Nothing that a walk has done is committed before it ends. -/
theorem Store.table_midWalk (s : Store) (verdicts : List Verdict) :
    (s.midWalk verdicts).table = s.table := by
  -- verdicts change the working copy alone, and so does the start of a walk
  have hwalk : ∀ (op : WalkOp) (s : Store),
      (verdicts.foldl (fun (op, s) v => WalkOp.answer v op s) (op, s)).2.table = s.table := by
    induction verdicts with
    | nil => exact fun _ _ => rfl
    | cons v verdicts ih =>
      intro op s
      rw [List.foldl_cons, ih, WalkOp.table_answer]
  have hstart : (iterate (fun (op, s) => WalkOp.step none op s) 2 (WalkOp.entering, s)).2.table =
      s.table := by
    cases hclosed : s.closed with
    | true => simp [iterate, WalkOp.step, hclosed]
    | false => cases hwriter : s.writer <;> simp [iterate, WalkOp.step, lock, hclosed, hwriter]
  exact (hwalk _ _).trans hstart

namespace Keeper.Shows

variable {c : StoreConfig} {r : Register} {k : Keeper}

/-- What is on the disk is found when the store is opened, and all counters begin anew. -/
theorem reopen {disk : Disk} {home : Home} {store? : Option Store} {t : Table}
    (files : disk.Holds c home r.room t) (value : ∀ key, t.get? key = r.value? key)
    (named : ∀ e ∈ t.toList, e.key ≠ []) :
    ∃ r', r.Step (.reopen : StoreEvent σ) (Keeper.step c ⟨disk, home, store?⟩ .reopen).1 r' ∧
      Keeper.Shows c r' (Keeper.step c ⟨disk, home, store?⟩ (.reopen : StoreEvent σ)).2 := by
  obtain ⟨disk', hopen⟩ := files.reopen
  obtain ⟨hfiles, -⟩ := Disk.holds_of_openStore hopen
  refine ⟨.opened r.value? r.room, ?_, ?_⟩
  · simp only [Keeper.step, hopen]
    exact .reopen (Table.lists value)
  · simp only [Keeper.step, hopen]
    exact .present hfiles ⟨value, named, rfl, rfl, rfl, rfl, rfl, rfl, rfl⟩

/-- Whatever happens to a store happens to the register that it stands for. -/
theorem step (h : Keeper.Shows c r k) (event : StoreEvent σ) :
    ∃ r', r.Step event (k.step c event).1 r' ∧ Keeper.Shows c r' (k.step c event).2 := by
  cases h with
  | @present disk home s files shows =>
    cases event with
    | call call =>
      -- what the call has committed is saved in the files, which stay otherwise as they are
      obtain ⟨r', hstep, hshows, hroom⟩ := shows.step call
      refine ⟨r', hstep, .present ?_ hshows⟩
      rw [hroom]
      exact files.save _
    | drop =>
      exact ⟨{ r with phase := .away }, .drop, .away files shows.value shows.named rfl⟩
    | crash verdicts =>
      refine ⟨{ r with phase := .away }, .crash, ?_⟩
      simp only [Keeper.step, Store.table_midWalk]
      exact .away (files.save s.table) shows.value shows.named rfl
    | reopen => exact reopen files shows.value shows.named
  | @away disk home t files value named phase =>
    cases event with
    | call call => exact ⟨r, .miss phase, .away files value named phase⟩
    | drop => exact ⟨{ r with phase := .away }, .drop, .away files value named rfl⟩
    | crash verdicts => exact ⟨{ r with phase := .away }, .crash, .away files value named rfl⟩
    | reopen => exact reopen files value named

/-- The replies to all that happens are those of the register. -/
theorem run (h : Keeper.Shows c r k) (events : List (StoreEvent σ)) :
    ∃ r', r.Runs events (k.run c events).1 r' ∧ Keeper.Shows c r' (k.run c events).2 := by
  induction events generalizing r k with
  | nil => exact ⟨r, .nil, h⟩
  | cons event events ih =>
    obtain ⟨r', hstep, hshows⟩ := h.step event
    obtain ⟨r'', hruns, hend⟩ := ih hshows
    exact ⟨r'', .cons hstep hruns, hend⟩

end Keeper.Shows

/-- Whatever happens to a store after it has been opened, its replies are those of a register that
    had the store's entries in the beginning, and its counters tell what has come back since it was
    opened last. The engine has written no entry without a key. -/
theorem Keeper.runs_as_register {c : StoreConfig} {disk disk' : Disk} {home : Home} {s : Store}
    (hopen : disk.openStore c = (disk', .ok (home, s)))
    (hnamed : ∀ e ∈ s.table.toList, e.key ≠ []) (events : List (StoreEvent σ)) :
    ∃ r, (Register.opened s.table.get? s.mapSize).Runs events
        (Keeper.run c ⟨disk', home, some s⟩ events).1 r ∧
      Keeper.Shows c r (Keeper.run c ⟨disk', home, some s⟩ events).2 ∧
      (r.puts, r.deletes) =
        (Keeper.run c ⟨disk', home, some s⟩ events).1.foldl Register.tally (0, 0) := by
  obtain ⟨hfiles, hs⟩ := Disk.holds_of_openStore hopen
  have hshows : s.Shows (.opened s.table.get? s.mapSize) := by
    rw [hs]
    exact ⟨fun _ => rfl, hnamed, rfl, rfl, rfl, rfl, rfl, rfl, rfl⟩
  obtain ⟨r, hruns, hend⟩ := (Keeper.Shows.present hfiles hshows).run events
  exact ⟨r, hruns, hend, hruns.tally_eq⟩

/-- A path of one name. -/
theorem Path.ofString_name : Path.ofString "d" = ["d"] := by
  decide +kernel

/-- In a new directory a store is opened and an entry put; the process dies in a walk that has
    deleted the entry, and the entry is there when the store is opened again. -/
theorem Keeper.runs_as_register_of_crash : ∃ disk home s,
    Disk.empty.openStore (.atPath "d") = (disk, .ok (home, s)) ∧
      (∀ e ∈ s.table.toList, e.key ≠ []) ∧
      ∃ r, (Register.opened s.table.get? s.mapSize).Runs
        ([.call (.put [1] [2] none), .crash [.delete], .reopen, .call (.scan 8)] :
          List (StoreEvent Unit))
        [.put (some (.ok ())), .gone, .opened 1, .entries (.ok [⟨[1], [2]⟩])] r := by
  have hpath : Path.ofString (StoreConfig.atPath "d").dataDir = ["d"] := Path.ofString_name
  have hnul : (StoreConfig.atPath "d").dataDir.toList.contains '\x00' = false := by decide +kernel
  have hname : (StoreConfig.atPath "d").name.toList.contains '\x00' = false := by decide +kernel
  have hopen : Disk.empty.openStore (.atPath "d") =
      (⟨[(["d", "data.mdb"], .data ⟨[("events", .empty)], 1073741824⟩),
          (["d", "lock.mdb"], .file []), (["d"], .directory)]⟩,
        .ok (⟨["d"], "events"⟩, .ofTable .empty 1073741824)) := by
    simp only [Disk.openStore, Disk.createAll, hpath, hnul, hname]
    rfl
  have hnamed : ∀ e ∈ (Store.ofTable .empty 1073741824).table.toList, e.key ≠ [] := by
    intro e he
    cases he
  obtain ⟨r, hruns, -⟩ := Keeper.runs_as_register hopen hnamed
    ([.call (.put [1] [2] none), .crash [.delete], .reopen, .call (.scan 8)] :
      List (StoreEvent Unit))
  refine ⟨_, _, _, hopen, hnamed, r, ?_⟩
  convert hruns using 1
  simp only [Keeper.run, Keeper.step, Disk.openStore, Disk.createAll, hpath, hnul, hname]
  rfl

end Outbox
