import Outbox.Proofs.Life.Moves
import Outbox.Proofs.Store.Counting

namespace Outbox

/-!
# The counter throughout the life of a store

A store that is open once, and whose counter is overwritten while nobody has a subtraction to make:

* `Job.storeOp?` — the operation on the store that an actor has under way.
* `StoreOp.Works` — a step of an actor is one of its operation, or does nothing to the counter and
  the entries; `Job.Stride.works` says that every step is of this kind.
* `Life.solo` — what may happen to a store that is open once, and for which one thread forwards at a
  time.
* `Life.keepsApart`, `Life.apart` — what may happen to it so that no overwriting comes between.
* `Life.Reached.counter_eq_sum` — the counter of such a store is the number of committed entries and
  what the actors are ahead by, so that it never understates the entries.
* `Life.Reached.apart_of_landsPuts` — where every put is committed, nothing comes between.

Among removals and recounts of one thread nothing comes between. It is a put whose commit has failed
that may still have its counting to take back when another thread recounts.
-/

/-! ### Operations of actors -/

/-- The operation of a task. -/
def CommitTask.storeOp? : CommitTask → Option StoreOp
  | putting op _ => some (.put op)
  | _ => none

/-- The operation of a pass. -/
def Pass.storeOp? : Pass → Option StoreOp
  | removing op _ _ _ => some (.removal op)
  | walking op _ _ _ | offering op _ _ _ => some (.walk op)
  | recounting op => some (.recount op)
  | _ => none

/-- The operation on the store that an actor has under way. -/
def Job.storeOp? : Job → Option StoreOp
  | forwarding w _ => w.pass?.bind Pass.storeOp?
  | sending _ sub => sub.task.bind CommitTask.storeOp?
  | stopping _ _ => none

namespace StoreOp

/-- By how much an actor has put the counter ahead of the committed entries. -/
def lead (op : Option StoreOp) : Nat := op.elim 0 ahead

/-- What an actor can make of its operation and of the store. -/
inductive Works (s s' : Store) : Option StoreOp → Option StoreOp → Prop
  | goesOn {op op' : StoreOp} (h : op.Step s op' s') : Works s s' (some op) (some op')
  | rests {op op' : Option StoreOp} (same : lead op' = lead op) (counter : s'.counter = s.counter)
      (table : s'.table = s.table) : Works s s' op op'

variable {s s' : Store} {op op' : Option StoreOp}

/-- The counter stays ahead of the entries by what all actors have put it ahead; nobody else has
    done so while it is overwritten. -/
theorem Works.counter_eq (h : Works s s' op op') (hf : ∀ o, op = some o → o.Fits s.files)
    {rest : Nat} (heq : s.counter = ↑(s.table.size + (lead op + rest)))
    (hover : ∀ o, op = some o → o.overwrites = true → rest = 0) :
    s'.counter = ↑(s'.table.size + (lead op' + rest)) := by
  cases h with
  | rests same counter table =>
    rw [table, counter, same]
    exact heq
  | goesOn h => exact h.counter_eq (hf _ rfl) heq (hover _ rfl)

/-- A counter that does not fall short of the entries does not come to do so. -/
theorem Works.size_le (h : Works s s' op op') (hf : ∀ o, op = some o → o.Fits s.files)
    (hle : ↑(s.table.size + lead op) ≤ s.counter) : ↑(s'.table.size + lead op') ≤ s'.counter := by
  cases h with
  | rests same counter table =>
    rw [table, counter, same]
    exact hle
  | goesOn h => exact h.size_le (hf _ rfl) hle

/-- A walk that offers an entry has committed nothing yet. -/
theorem ahead_of_offered {op : WalkOp} {x : Entry} (hx : op.offered? = some x) :
    (walk op).ahead = 0 := by
  obtain ⟨rest, visited, deleted, rfl⟩ := WalkOp.offered?_eq_some_iff.1 hx
  rfl

end StoreOp

open StoreOp

/-- An operation that is about to begin is ahead by nothing, whatever its faults are. -/
theorem Faults.ahead_eq_zero (f : Faults) (key value : Bytes) (keys : List Bytes) :
    (StoreOp.put (f.put key value)).ahead = 0 ∧ (StoreOp.removal (f.remove keys)).ahead = 0 ∧
      (StoreOp.walk f.walk).ahead = 0 := by
  unfold Faults.put Faults.remove Faults.walk
  refine ⟨?_, ?_, ?_⟩
  · split <;> rfl
  · split
    · rfl
    · split <;> rfl
  · split <;> rfl

namespace Pass

variable {s : Forwarder.Settings} {h : Hub} {p p' : Pass} {store : Store} {a : Account} {f : Files}

/-- A pass that has scanned has no operation under way. -/
theorem storeOp?_scanned (c : Cipher) (style : SinkStyle) (xs : List Entry) :
    (scanned c style xs).1.storeOp? = none := by
  unfold scanned
  split
  · rfl
  · dsimp only
    split <;> rfl

/-- A pass that is over is ahead by nothing. -/
theorem lead_of_isOver (hover : p.isOver = true) : lead p.storeOp? = 0 := by
  cases p with
  | ended r => rfl
  | died => rfl
  | _ => cases hover

/-- A step of a pass is one of its operation, or does nothing to the counter and the entries. -/
theorem Step.works (hp : Step s h p p' store) : Works h.store store p.storeOp? p'.storeOp? := by
  cases hp with
  | scanFails batch => exact .rests rfl rfl rfl
  | scan batch hs =>
    refine .rests ?_ rfl rfl
    rw [storeOp?_scanned]
    rfl
  | walk single => exact .rests (h.faults.ahead_eq_zero [] [] []).2.2 rfl rfl
  | @clear keys => exact .rests (h.faults.ahead_eq_zero [] [] keys).2.1 rfl rfl
  | remove ho => exact .goesOn (.removal ho)
  | removed hr =>
    obtain rfl := RemovalOp.eq_done hr
    exact .rests rfl rfl rfl
  | stop hx hflag => exact .goesOn (.visit hx .stop)
  | offer hx hflag ho => exact .rests rfl rfl rfl
  | drop hx hflag ho => exact .goesOn (.visit hx .delete)
  | walkOn hx ho => exact .goesOn (.walk ho)
  | walked hr hover =>
    obtain rfl := WalkOp.eq_done hr
    obtain rfl | ⟨r, rfl⟩ := hover <;> exact .rests rfl rfl rfl
  | recount => exact .rests rfl rfl rfl
  | recountOn ho => exact .goesOn (.recount ho)
  | recounted hr => exact .rests rfl rfl rfl

/-- So is an answer of the sink. -/
theorem Reply.works {r : SinkAnswer} {events : List Event} {store' : Store}
    (hp : Reply store r events p p' store') (hf : p.Fits s a f) :
    Works store store' p.storeOp? p'.storeOp? := by
  cases hp with
  | take =>
    obtain ⟨seen, x, hx, -⟩ := hf
    exact .goesOn (.visit hx .delete)
  | restore =>
    obtain ⟨seen, x, hx, -⟩ := hf
    exact .goesOn (.visit hx .abort)
  | fall =>
    obtain ⟨seen, x, hx, -⟩ := hf
    exact .rests (ahead_of_offered hx).symm rfl rfl
  | _ => exact .rests rfl rfl rfl

/-- What a pass has made of the working copy, its operation has. -/
theorem Fits.storeOp (hf : p.Fits s a f) {op : StoreOp} (ho : p.storeOp? = some op) :
    op.Fits f := by
  cases p with
  | removing op expected delivered dropped =>
    cases ho
    obtain ⟨-, -, keys, -, hf⟩ := hf
    exact ⟨keys, hf⟩
  | walking op delivered dropped refused => cases ho; exact ⟨_, _, hf.1⟩
  | offering op event delivered dropped =>
    cases ho
    obtain ⟨seen, x, -, hf, -⟩ := hf
    exact ⟨_, _, hf⟩
  | recounting op => cases ho; exact hf
  | _ => cases ho

end Pass

/-- A step of a commit task is one of its put, or does nothing to the counter and the entries. -/
theorem CommitTask.Step.works {h : Hub} {t t' : CommitTask} {store : Store}
    (ht : Step h t t' store) : Works h.store store t.storeOp? t'.storeOp? := by
  cases ht with
  | @start key value bytes => exact .rests (h.faults.ahead_eq_zero key value []).1 rfl rfl
  | put ho => exact .goesOn (.put ho)
  | _ => exact .rests rfl rfl rfl

/-- A step of a put whose commit does not fail leaves nothing to be subtracted. -/
theorem PutOp.owed_eq_zero {op op' : PutOp} {s s' : Store} (h : op.step none s = some (op', s')) :
    (StoreOp.put op').owed = 0 := by
  cases step_cases h with
  | fail fails => cases fails
  | _ => rfl

/-- A step of a commit task leaves nothing to be subtracted, where the commits of puts work. -/
theorem CommitTask.Step.owed_eq_zero {h : Hub} {t t' : CommitTask} {store : Store}
    (ht : Step h t t' store) (hl : h.faults.landing = none) : t'.storeOp?.elim 0 owed = 0 := by
  cases ht with
  | @start key value bytes =>
    have hahead := (h.faults.ahead_eq_zero key value []).1
    exact Nat.le_zero.1 (hahead ▸ owed_le_ahead)
  | put ho =>
    rw [hl] at ho
    exact PutOp.owed_eq_zero ho
  | _ => rfl

namespace Scenario.Work

variable {h : Hub} {w w' : Work} {store : Store}

/-- A step of a thread that forwards is one of its operation, or does nothing to the counter and the
    entries. -/
theorem Step.works (hw : Step h w w' store) :
    Works h.store store (w.pass?.bind Pass.storeOp?) (w'.pass?.bind Pass.storeOp?) := by
  cases hw with
  | goesOn hs hp hp' hstep =>
    rw [hp, hp']
    exact hstep.works
  | turns hs hover fresh same =>
    have hbefore : lead (w.pass?.bind Pass.storeOp?) = 0 := by
      cases hp : w.pass? with
      | none => rfl
      | some p => exact Pass.lead_of_isOver (hover p hp)
    have hafter : lead (w'.pass?.bind Pass.storeOp?) = 0 := by
      cases hp : w'.pass? with
      | none => rfl
      | some p =>
        rw [fresh p hp]
        rfl
    rw [same]
    exact .rests (hafter.trans hbefore.symm) rfl rfl

/-- So is an answer of the sink to it. -/
theorem Reply.works {r : SinkAnswer} {events : List Event} {store' : Store} {a : Account}
    {f : Files} (hw : Reply r events store w w' store') (hf : w.Fits a f) :
    Works store store' (w.pass?.bind Pass.storeOp?) (w'.pass?.bind Pass.storeOp?) := by
  obtain ⟨hs, hp, hp', hreply⟩ := hw
  rw [hp, hp']
  exact hreply.works (hf _ hp)

end Scenario.Work

namespace Job

variable {ended died : Bool} {past : Nat} {s s' : Session} {how : Act} {j j' : Job}
  {news history : List Occurrence} {f : Files}

/-- What an actor has made of the working copy, its operation has. -/
theorem Fits.storeOp (hf : j.Fits f history) {op : StoreOp} (ho : j.storeOp? = some op) :
    op.Fits f := by
  cases j with
  | forwarding w a =>
    obtain ⟨p, hp, ho⟩ := Option.bind_eq_some_iff.1 ho
    exact (hf.1 p hp).storeOp ho
  | sending e sub =>
    obtain ⟨t, ht, ho⟩ := Option.bind_eq_some_iff.1 ho
    obtain ⟨key, value, -, hfits⟩ := Submission.Fits.task hf t ht
    cases t with
    | putting op bytes => cases ho; exact ⟨key, value, hfits.1⟩
    | _ => cases ho
  | stopping graceful stop => cases ho

/-- An actor holds the lock when its operation does. -/
theorem holds_of_storeOp {op : StoreOp} (ho : j.storeOp? = some op) : j.holds = op.holds := by
  cases j with
  | forwarding w a =>
    obtain ⟨p, hp, ho⟩ := Option.bind_eq_some_iff.1 ho
    refine (Scenario.Work.holds_of_pass hp).trans ?_
    cases p <;> cases ho <;> rfl
  | sending e sub =>
    obtain ⟨t, ht, ho⟩ := Option.bind_eq_some_iff.1 ho
    refine (Submission.holds_of_task ht).trans ?_
    cases t <;> cases ho
    rfl
  | stopping graceful stop => cases ho

/-- A step of an actor is one of its operation, or does nothing to the counter and the entries. -/
theorem Stride.works (h : Stride ended died past s how j j' s' news)
    (hf : j.Fits s.hub.store.files history) :
    Works s.hub.store s'.hub.store j.storeOp? j'.storeOp? := by
  cases h with
  | loop hstep => exact (Scenario.Work.loop_step_cases hstep).works
  | pass hstep => exact (Pass.step_cases hstep).works
  | answer hc => exact (Scenario.Work.answer_cases hc _ _).works hf.1
  | @call now e sub sub' h hs =>
    obtain ⟨hcall, hstore⟩ := Submission.stepCall_cases hs
    have hlead : lead (sub'.task.bind CommitTask.storeOp?) =
        lead (sub.task.bind CommitTask.storeOp?) := by
      cases hcall with
      | @submit e key value deadline hc hentry =>
        rw [(Submission.Fits.call hf e (.inr (.inr hc))).2]
        rfl
      | _ => rfl
    exact .rests hlead (congrArg Store.counter hstore) (congrArg Store.table hstore)
  | @task e sub sub' h hs =>
    obtain ⟨ht, hstep⟩ := Submission.stepTask_cases hs
    show Works _ _ (sub.task.bind _) _
    rw [ht]
    exact hstep.works
  | @drop e sub =>
    refine .rests ?_ rfl rfl
    show lead (sub.drop.task.bind _) = lead (sub.task.bind _)
    rw [Submission.task_drop]
  | stop hs =>
    exact .rests rfl (Stop.turn_of_step hs).steady.2.2 (congrArg Files.table (stop_cases hs).1)

end Job

/-! ### Lives -/

namespace Job

/-- By how much an actor has put the counter ahead of the committed entries. -/
def ahead (j : Job) : Nat := lead j.storeOp?

/-- What an actor is about to subtract from the counter. -/
def subtracts (j : Job) : Nat := j.storeOp?.elim 0 owed

/-- Whether an actor is about to overwrite the counter. -/
def overwrites (j : Job) : Bool := j.storeOp?.any StoreOp.overwrites

/-- What is about to be subtracted is part of what an actor is ahead by. -/
theorem subtracts_le_ahead {j : Job} : j.subtracts ≤ j.ahead := by
  unfold subtracts ahead
  cases j.storeOp? with
  | none => exact Nat.le_refl _
  | some op => exact owed_le_ahead

/-- Who is about to overwrite the counter has nothing to subtract. -/
theorem subtracts_of_overwrites {j : Job} (h : j.overwrites = true) : j.subtracts = 0 := by
  obtain ⟨op, ho, hover⟩ := (Option.any_eq_true _ _).1 h
  have hahead : j.ahead = 0 := by
    unfold ahead
    rw [ho]
    exact (StoreOp.holds_of_overwrites hover).2
  exact Nat.le_zero.1 (hahead ▸ subtracts_le_ahead)

/-- Who does not hold the lock has put the counter ahead by what is still to be subtracted. -/
theorem ahead_eq_subtracts {j : Job} (h : j.holds = false) : j.ahead = j.subtracts := by
  unfold ahead subtracts
  cases ho : j.storeOp? with
  | none => rfl
  | some op =>
    rw [holds_of_storeOp ho] at h
    exact StoreOp.ahead_eq_owed h

/-- Only a thread that forwards overwrites the counter. -/
theorem isForwarding_of_overwrites {j : Job} (h : j.overwrites = true) : j.isForwarding = true := by
  obtain ⟨op, ho, hover⟩ := (Option.any_eq_true _ _).1 h
  cases j with
  | forwarding w a =>
    obtain ⟨p, hp, ho⟩ := Option.bind_eq_some_iff.1 ho
    -- a pass that is over has no operation
    have hlive : p.isOver = false := by
      cases p with
      | ended r => cases ho
      | died => cases ho
      | _ => rfl
    exact isForwarding_of_live (Scenario.Work.hasEnded_of_pass hp hlive)
  | sending e sub =>
    obtain ⟨t, ht, ho⟩ := Option.bind_eq_some_iff.1 ho
    cases t with
    | putting op bytes => cases ho; cases hover
    | _ => cases ho
  | stopping graceful stop => cases ho

/-- A thread that has ended has nothing to subtract. -/
theorem subtracts_of_ended {w : Scenario.Work} {a : Account}
    (h : (forwarding w a).isForwarding = false) : (forwarding w a).subtracts = 0 := by
  cases w with
  | pass c p =>
    cases p with
    | ended r => rfl
    | died => rfl
    | _ => cases h
  | loop f =>
    obtain ⟨settings, nextPass, idle, phase⟩ := f
    cases phase with
    | stopped => rfl
    | died => rfl
    | _ => cases h

/-- Where the commits of puts work, who does not forward comes to have nothing to subtract. -/
theorem Stride.subtracts_eq_zero (h : Stride ended died past s how j j' s' news)
    (hl : s.hub.faults.landing = none) (hj : j.isForwarding = false → j.subtracts = 0)
    (hidle : j'.isForwarding = false) : j'.subtracts = 0 := by
  cases h with
  | loop hf => exact subtracts_of_ended hidle
  | pass hp => exact subtracts_of_ended hidle
  | answer hc => exact subtracts_of_ended hidle
  | @call now e sub sub' h hs =>
    cases (Submission.stepCall_cases hs).1 with
    | submit hc hentry => rfl
    | _ => exact hj rfl
  | @task e sub sub' h hs =>
    obtain ⟨ht, hstep⟩ := Submission.stepTask_cases hs
    exact hstep.owed_eq_zero hl
  | @drop e sub =>
    show (sub.drop.task.bind _).elim 0 owed = 0
    rw [Submission.task_drop]
    exact hj rfl
  | stop hs => rfl

/-- A thread that forwards after a step did so before it. -/
theorem Stride.isForwarding (h : Stride ended died past s how j j' s' news)
    (hj : j'.isForwarding = true) : j.isForwarding = true := by
  cases h with
  | loop hf => exact isForwarding_of_live (Forwarder.hasEnded_of_step hf)
  | @pass now c p p' a h hp =>
    cases p with
    | ended r => cases hp
    | died => cases hp
    | _ => exact isForwarding_of_live rfl
  | answer hc => exact isForwarding_of_live (Scenario.Work.hasEnded_of_call hc)
  | _ => exact hj

end Job

/-- Whether a move leaves the commits of puts working. -/
def Move.landsPuts : Move → Prop
  | opens _ _ faults _ | spoils _ faults => faults.landing = none
  | _ => True

namespace Life

/-- What may happen to a store that is open once, and for which one thread forwards at a time. -/
def solo (l : Life) : Move → Prop
  | .opens _ _ _ _ => l.sessions.length = 0
  | .forwards _ _ _ => ∀ a ∈ l.actors, a.job.isForwarding = false
  | _ => True

instance (l : Life) : (m : Move) → Decidable (solo l m)
  | .opens _ _ _ _ => inferInstanceAs (Decidable (l.sessions.length = 0))
  | .forwards _ _ _ => inferInstanceAs (Decidable (∀ a ∈ l.actors, a.job.isForwarding = false))
  | .sends _ _ _ _ | .stops _ _ | .acts _ _ | .raises _ | .spoils _ _ | .crashes =>
    inferInstanceAs (Decidable True)

/-- An actor overwrites the counter while nobody has a subtraction to make. -/
def keepsApart (l : Life) : Move → Prop
  | .acts i _ =>
    l.actors[i]?.any (fun a => a.job.overwrites) = true → ∀ a ∈ l.actors, a.job.subtracts = 0
  | _ => True

instance (l : Life) : (m : Move) → Decidable (keepsApart l m)
  | .acts i _ =>
    inferInstanceAs (Decidable (l.actors[i]?.any (fun a => a.job.overwrites) = true →
      ∀ a ∈ l.actors, a.job.subtracts = 0))
  | .opens _ _ _ _ | .sends _ _ _ _ | .forwards _ _ _ | .stops _ _ | .raises _ | .spoils _ _
  | .crashes => inferInstanceAs (Decidable True)

/-- What may happen to such a store so that no overwriting comes between a failed commit, or a
    removal, and its subtraction. -/
def apart (l : Life) (m : Move) : Prop := solo l m ∧ keepsApart l m

instance (l : Life) (m : Move) : Decidable (apart l m) :=
  inferInstanceAs (Decidable (solo l m ∧ keepsApart l m))

variable {allowed : Life → Move → Prop} {t : Table} {l l' : Life} {i k n : Nat} {a b : Actor}
  {s : Session}

/-- At most one session is open. -/
theorem Reached.one_session (h : Reached solo t l) : l.sessions.length ≤ 1 := by
  induction h with
  | new => exact Nat.zero_le _
  | @move l l' m before ok hm ih =>
    cases moved_of_move hm with
    | opens queue style faults mapSize =>
      have hnone : l.sessions.length = 0 := ok
      simp [hnone]
    | enlists => exact ih
    | crashes => exact Nat.zero_le _
    | _ => simpa using ih

/-- The session that is open is the first one. -/
theorem Reached.session_eq_zero (h : Reached solo t l) (hs : l.sessions[n]? = some s) : n = 0 := by
  have hlt := (List.getElem?_eq_some_iff.1 hs).1
  have hle := h.one_session
  omega

/-- While one thread forwards, no other one does. -/
theorem Reached.isForwarding_eq_false (h : Reached solo t l) (hik : i ≠ k)
    (hi : l.actors[i]? = some a) (hk : l.actors[k]? = some b) (ha : a.job.isForwarding = true) :
    b.job.isForwarding = false := by
  obtain ⟨n, j⟩ := a
  obtain ⟨n', j'⟩ := b
  obtain ⟨s, hs⟩ := h.session_of_actor hi
  obtain ⟨s', hs'⟩ := h.session_of_actor hk
  obtain rfl : n = 0 := h.session_eq_zero hs
  obtain rfl : n' = 0 := h.session_eq_zero hs'
  refine h.only_one (fun hstep => hstep.isForwarding) (fun ok hnew hlive => ?_) hik hi hk ha
  cases hnew with
  | forwards n s loops => exact fun a ha _ => ok a ha
  | _ => cases hlive

/-- Where no overwriting comes between, the store is open once, and one thread forwards at a
    time. -/
theorem Reached.toSolo (h : Reached apart t l) : Reached solo t l :=
  h.mono fun _ _ ok => ok.1

/-- While an actor overwrites the counter, nobody is ahead: those that are about to commit need the
    lock, and the others have made their subtractions. -/
theorem Reached.sum_ahead_eq_zero (h : Reached allowed t l) (ha : l.actors[i]? = some a)
    {op : StoreOp} (ho : a.job.storeOp? = some op) (hover : op.overwrites = true)
    (hnone : ∀ b ∈ l.actors, b.job.subtracts = 0) :
    (l.actors.map fun a => a.job.ahead).sum = 0 := by
  obtain ⟨hholds, hahead⟩ := StoreOp.holds_of_overwrites hover
  rw [← Job.holds_of_storeOp ho] at hholds
  rw [List.sum_eq_zero_iff_forall_eq_nat]
  intro x hx
  obtain ⟨b, hb, rfl⟩ := List.mem_map.1 hx
  obtain ⟨k, hk⟩ := List.mem_iff_getElem?.1 hb
  by_cases hki : k = i
  · subst hki
    cases hk.symm.trans ha
    unfold Job.ahead
    rw [ho]
    exact hahead
  · have hfree : b.job.holds = false := by
      by_contra hlock
      exact hki (h.sound.exclusive hk ha (by simpa using hlock) hholds)
    rw [Job.ahead_eq_subtracts hfree]
    exact hnone b hb

/-- A step of an actor leaves the counter ahead by what the actors have put it ahead. -/
theorem Reached.counter_eq_sum_of_stride {how : Act} {s' : Session} {j : Job}
    {news : List Occurrence} (h : Reached allowed t l) (ha : l.actors[i]? = some a)
    (hstep : Job.Stride (l.hasEnded a.session) (l.hasDied a.session) l.history.length
      (s.over l.files) how a.job j s' news) (hapart : l.keepsApart (.acts i how))
    (hcounter : s.hub.store.counter =
      ↑(l.files.table.size + (l.actors.map fun a => a.job.ahead).sum)) :
    s'.hub.store.counter = ↑(s'.hub.store.table.size +
      ((l.actors.set i { a with job := j }).map fun a => a.job.ahead).sum) := by
  have hfits := h.sound.fits ha
  have hle := le_sum_map (fun b : Actor => b.job.ahead) (List.mem_of_getElem? ha)
  have hsum := sum_map_set (fun b : Actor => b.job.ahead) { a with job := j } ha
  -- by what the others are ahead
  obtain ⟨rest, hrest⟩ := Nat.exists_eq_add_of_le hle
  have hnone : ∀ op, a.job.storeOp? = some op → op.overwrites = true → rest = 0 := by
    intro op ho hover
    have hany : l.actors[i]?.any (fun a => a.job.overwrites) = true := by
      rw [ha]
      show a.job.storeOp?.any StoreOp.overwrites = true
      rw [ho]
      exact hover
    have := h.sum_ahead_eq_zero ha ho hover (hapart hany)
    omega
  have hbefore : (s.over l.files).hub.store.counter =
      ↑((s.over l.files).hub.store.table.size + (lead a.job.storeOp? + rest)) := by
    show s.hub.store.counter = ↑(l.files.table.size + (a.job.ahead + rest))
    omega
  have hafter : s'.hub.store.counter = ↑(s'.hub.store.table.size + (j.ahead + rest)) :=
    (hstep.works hfits).counter_eq (fun o ho => hfits.storeOp ho) hbefore hnone
  dsimp only at hsum hle hrest
  omega

/-- The counter is ahead of the committed entries by what the actors have put it ahead. -/
theorem Reached.counter_eq_sum (h : Reached apart t l) (hs : l.sessions[n]? = some s) :
    s.hub.store.counter = ↑(l.files.table.size + (l.actors.map fun a => a.job.ahead).sum) := by
  induction h generalizing n s with
  | new => cases hs
  | @move l l' m before ok hm ih =>
    cases moved_of_move hm with
    | opens queue style faults mapSize =>
      have hnone : l.sessions = [] := List.eq_nil_of_length_eq_zero ok.1
      -- nobody works with a store that is not open
      have hnobody : l.actors = [] := by
        refine List.eq_nil_iff_forall_not_mem.2 fun a ha => ?_
        obtain ⟨i, hi⟩ := List.mem_iff_getElem?.1 ha
        obtain ⟨s, hs⟩ := before.session_of_actor hi
        rw [hnone] at hs
        cases hs
      rcases getElem?_concat_cases hs with hs | ⟨-, rfl⟩
      · rw [hnone] at hs
        cases hs
      · show (l.files.table.size : Int) = ↑(l.files.table.size + (l.actors.map _).sum)
        rw [hnobody]
        rfl
    | @enlists m k j news hj hn =>
      have hahead : j.ahead = 0 := by
        cases hj with
        | forwards n s loops => cases loops <;> rfl
        | _ => rfl
      show _ = ((_ + ((l.actors ++ [(⟨k, j⟩ : Actor)]).map fun a => a.job.ahead).sum : Nat) : Int)
      rw [List.map_append, List.sum_append, List.map_singleton, List.sum_singleton, hahead]
      exact ih hs
    | @acts i how a r s' j news ha hr hstep =>
      rcases getElem?_set_cases hs with ⟨rfl, rfl⟩ | ⟨hne, hs⟩
      · exact before.counter_eq_sum_of_stride ha hstep ok.2 (ih hr)
      · exact absurd ((before.toSolo.session_eq_zero hs).trans
          (before.toSolo.session_eq_zero hr).symm) hne
    | @raises k r hr =>
      rcases getElem?_set_cases hs with ⟨rfl, rfl⟩ | ⟨-, hs⟩
      · exact ih (s := r) hr
      · exact ih hs
    | @spoils k r faults hr =>
      rcases getElem?_set_cases hs with ⟨rfl, rfl⟩ | ⟨-, hs⟩
      · exact ih (s := r) hr
      · exact ih hs
    | crashes => cases hs

/-- The count is the number of committed entries and what the actors are ahead by. -/
theorem Reached.count_eq_sum (h : Reached apart t l) (hs : l.sessions[n]? = some s) :
    s.hub.store.count = l.files.table.size + (l.actors.map fun a => a.job.ahead).sum :=
  Store.count_of_eq (h.counter_eq_sum hs)

/-- The counter never understates the committed entries. -/
theorem Reached.size_le_count (h : Reached apart t l) (hs : l.sessions[n]? = some s) :
    l.files.table.size ≤ s.hub.store.count := by
  rw [h.count_eq_sum hs]
  exact Nat.le_add_right _ _

/-! ### Runs in which puts are committed -/

/-- Commits of puts work, and who does not forward has nothing to subtract. -/
structure PutsLand (l : Life) : Prop where
  faults : ∀ s ∈ l.sessions, s.hub.faults.landing = none
  subtracts : ∀ a ∈ l.actors, a.job.isForwarding = false → a.job.subtracts = 0

/-- A move that leaves the commits of puts working keeps this up. -/
theorem PutsLand.moved {m : Move} (hl : l.PutsLand) (hm : m.landsPuts) (h : Moved l m l') :
    l'.PutsLand := by
  cases h with
  | opens queue style faults mapSize =>
    refine ⟨fun s hs => ?_, hl.subtracts⟩
    rcases List.mem_append.1 hs with hs | hs
    · exact hl.faults s hs
    · obtain rfl := List.mem_singleton.1 hs
      exact hm
  | enlists hj =>
    refine ⟨hl.faults, fun a ha hidle => ?_⟩
    rcases List.mem_append.1 ha with ha | ha
    · exact hl.subtracts a ha hidle
    · obtain rfl := List.mem_singleton.1 ha
      cases hj with
      | forwards n s loops => cases loops <;> rfl
      | _ => rfl
  | @acts i how a s s' j news ha hs hstep =>
    have hlanding := hl.faults s (List.mem_of_getElem? hs)
    refine ⟨fun r hr => ?_, fun b hb hidle => ?_⟩
    · rcases List.mem_or_eq_of_mem_set hr with hr | rfl
      · exact hl.faults r hr
      · rw [hstep.faults_eq]
        exact hlanding
    · rcases List.mem_or_eq_of_mem_set hb with hb | rfl
      · exact hl.subtracts b hb hidle
      -- only a put whose commit fails comes to owe a subtraction
      · exact hstep.subtracts_eq_zero hlanding (hl.subtracts a (List.mem_of_getElem? ha)) hidle
  | @raises n s hs =>
    refine ⟨fun r hr => ?_, hl.subtracts⟩
    rcases List.mem_or_eq_of_mem_set hr with hr | rfl
    · exact hl.faults r hr
    · exact hl.faults s (List.mem_of_getElem? hs)
  | spoils faults hs =>
    refine ⟨fun r hr => ?_, hl.subtracts⟩
    rcases List.mem_or_eq_of_mem_set hr with hr | rfl
    · exact hl.faults r hr
    · exact hm
  | crashes =>
    exact ⟨fun s hs => absurd hs List.not_mem_nil, fun a ha => absurd ha List.not_mem_nil⟩

/-- Where no move makes the commits of puts fail, this holds throughout. -/
theorem Reached.putsLand (h : Reached (fun l m => solo l m ∧ m.landsPuts) t l) : l.PutsLand := by
  induction h with
  | new => exact ⟨fun s hs => absurd hs List.not_mem_nil, fun a ha => absurd ha List.not_mem_nil⟩
  | move before ok hm ih => exact ih.moved ok.2 (moved_of_move hm)

/-- Where no put's commit fails, nobody has a subtraction to make when the one thread that forwards
    overwrites the counter. -/
theorem Reached.apart_of_landsPuts (h : Reached (fun l m => solo l m ∧ m.landsPuts) t l) :
    Reached apart t l := by
  induction h with
  | new => exact .new
  | @move l l' m before ok hm ih =>
    refine ih.move ⟨ok.1, ?_⟩ hm
    cases m with
    | acts i how =>
      intro hover b hb
      obtain ⟨a, ha, hover⟩ := (Option.any_eq_true _ _).1 hover
      obtain ⟨k, hk⟩ := List.mem_iff_getElem?.1 hb
      by_cases hki : i = k
      · subst hki
        obtain rfl := Option.some.inj (ha.symm.trans hk)
        exact Job.subtracts_of_overwrites hover
      · exact before.putsLand.subtracts b hb
          (ih.toSolo.isForwarding_eq_false hki ha hk (Job.isForwarding_of_overwrites hover))
    | _ => trivial

/-! ### Steps of one actor -/

/-- The counter does not fall short of the entries and of what an actor has put it ahead. -/
def Covered (l : Life) (i : Nat) : Prop :=
  ∀ a s, l.actors[i]? = some a → l.sessions[a.session]? = some s →
    ↑(l.files.table.size + a.job.ahead) ≤ s.hub.store.counter

/-- The actor's own steps keep this up, also where it overwrites the counter. -/
theorem Covered.act {how : Act} (hl : l.Covered i) (hr : Reached allowed t l)
    (hm : l.move (.acts i how) = some l') : l'.Covered i := by
  cases moved_of_move hm with
  | enlists hj => cases hj
  | @acts _ _ a s s' j news ha hs hstep =>
    intro b r hb hr'
    have hlt := (List.getElem?_eq_some_iff.1 ha).1
    have hlt' := (List.getElem?_eq_some_iff.1 hs).1
    obtain rfl := Option.some.inj ((List.getElem?_set_self hlt).symm.trans hb)
    obtain rfl := Option.some.inj ((List.getElem?_set_self hlt').symm.trans hr')
    have hfits := hr.sound.fits ha
    exact (hstep.works hfits).size_le (fun o ho => hfits.storeOp ho) (hl a s ha hs)

end Life

end Outbox
