import Outbox.Proofs.Forwarder.Work
import Outbox.Proofs.Submission
import Outbox.Queue

namespace Outbox

/-!
# The life of a store

Everything that may happen to the files of a store, one step at a time and in any order:

* `Session` — an open store with what its threads share.
* `Job`, `Actor` — a thread that forwards, a producer's call with its task, or the end of a queue.
* `Life` — the files, the sessions, the actors, and what has occurred.
* `Job.act` — an actor's next step, with what occurs.
* `Move`, `Life.move` — a store is opened, an actor begins or takes a step, the flag is raised, the
  store begins to misbehave, or everything crashes.
* `Life.Reached` — what can come of some entries by moves that are allowed.
* `Life.run`, `Life.after` — one allowed move after another.

Sessions and actors are numbered. Time may pass as it likes between the steps.
-/

/-- An open store with what its threads share, and what its queue knows of itself. -/
structure Session where
  hub : Hub
  queue : Queue

/-- What an actor does. -/
inductive Job where
  | forwarding (work : Scenario.Work) (account : Account)
  | sending (event : Event) (submission : Submission)
  | stopping (graceful : Bool) (stop : Stop)

/-- Somebody who works with a store. -/
structure Actor where
  session : Nat
  job : Job

/-- A kind of step. -/
inductive Act where
  /-- The actor itself goes on, at a time. -/
  | step (now : Nat)
  /-- The task of a call goes on. -/
  | task
  /-- A call is given up. -/
  | drop
  /-- The sink answers. -/
  | answer (r : SinkAnswer)

namespace Job

/-- What a pass removes. -/
def removals (c : Cipher) (before after : Table) : List Occurrence :=
  (before.toList.filter fun x => x ∉ after.toList).map (.removed c)

/-- What a producer is told. -/
def confirmation (event : Event) (s : Submission) : List Occurrence :=
  match s.call with
  | .returned (.ok ()) => [.confirmed event]
  | _ => []

/-- What the sink accepts. -/
def acceptance (r : SinkAnswer) (c : Cipher) (a : Account) (events : List Event) :
    List Occurrence :=
  if r = .accepted then [.accepted c (a.waiting.take events.length) events] else []

/-- What a pass removes was there, and is not any more. -/
theorem exists_of_mem_removals {c : Cipher} {before after : Table} {o : Occurrence}
    (ho : o ∈ removals c before after) :
    ∃ x ∈ before.toList, x ∉ after.toList ∧ o = .removed c x := by
  obtain ⟨x, hx, rfl⟩ := List.mem_map.1 ho
  rw [List.mem_filter, decide_eq_true_eq] at hx
  exact ⟨x, hx.1, hx.2, rfl⟩

/-- A producer is told something when its call has returned without an error. -/
theorem of_mem_confirmation {event : Event} {s : Submission} {o : Occurrence}
    (ho : o ∈ confirmation event s) : s.call = .returned (.ok ()) ∧ o = .confirmed event := by
  unfold confirmation at ho
  split at ho
  · next hc => exact ⟨hc, List.mem_singleton.1 ho⟩
  · cases ho

/-- What the sink accepts has been waiting for it. -/
theorem of_mem_acceptance {r : SinkAnswer} {c : Cipher} {a : Account} {events : List Event}
    {o : Occurrence} (ho : o ∈ acceptance r c a events) :
    r = .accepted ∧ o = .accepted c (a.waiting.take events.length) events := by
  unfold acceptance at ho
  split at ho
  · next hr => exact ⟨hr, List.mem_singleton.1 ho⟩
  · cases ho

/-- The next step of a kind, with what occurs. So much has occurred before; `ended` and `died` say
    how it stands with the forwarder that the end of a queue waits for. -/
def act (ended died : Bool) (past : Nat) (s : Session) :
    Act → Job → Option (Job × Session × List Occurrence)
  | .step now, forwarding w a =>
    (w.step now s.hub).map fun (w', h) =>
      (forwarding w' (w.account s.hub past a), { s with hub := h },
        removals w.settings.cipher s.hub.store.table h.store.table)
  | .answer r, forwarding w a =>
    w.call?.map fun events =>
      let (w', h) := w.answer r s.hub
      (forwarding w' (Pass.answered r events a), { s with hub := h },
        acceptance r w.settings.cipher a events)
  | .step now, sending e sub =>
    (sub.stepCall now s.hub).map fun (sub, h) =>
      (sending e sub, { s with hub := h }, confirmation e sub)
  | .task, sending e sub =>
    (sub.stepTask s.hub).map fun (sub', h) =>
      (sending e sub', { s with hub := h },
        ((Submission.landing e sub sub').map (.committed e)).toList)
  | .drop, sending e sub => some (sending e sub.drop, s, [])
  | .step now, stopping graceful stop =>
    (stop.step graceful ended died now s.queue s.hub).map fun (stop, queue, hub) =>
      (stopping graceful stop, ⟨hub, queue⟩, [])
  | _, _ => none

/-- Whether an actor forwards and has not ended. -/
def isForwarding : Job → Bool
  | forwarding w _ => !w.hasEnded
  | _ => false

/-- A thread that has not ended forwards. -/
theorem isForwarding_of_live {w : Scenario.Work} {a : Account} (h : w.hasEnded = false) :
    (forwarding w a).isForwarding = true := by
  show (!w.hasEnded) = true
  rw [h]
  rfl

/-- Whether an actor has been killed while forwarding. -/
def hasDied : Job → Bool
  | forwarding w _ => w.hasDied
  | _ => false

end Job

/-- The files of a store, who works with them, and what has occurred, the oldest first. -/
structure Life where
  files : Files
  sessions : List Session
  actors : List Actor
  history : List Occurrence

/-- What may happen. -/
inductive Move where
  /-- A store is opened; a size of values and the faults come with it. -/
  | opens (queue : Queue) (style : SinkStyle) (faults : Faults) (mapSize : Nat)
  /-- A producer begins to send an event. -/
  | sends (session : Nat) (p : Producer) (nonce : Nonce) (event : Event)
  /-- A thread begins to forward, for one pass or in a loop. -/
  | forwards (session : Nat) (s : Forwarder.Settings) (loops : Bool)
  /-- A queue begins to end. -/
  | stops (session : Nat) (graceful : Bool)
  /-- An actor takes a step. -/
  | acts (actor : Nat) (act : Act)
  /-- The flag is raised. -/
  | raises (session : Nat)
  /-- The store begins to misbehave, or ceases to. -/
  | spoils (session : Nat) (faults : Faults)
  /-- All who work with the store are gone. -/
  | crashes

namespace Life

/-- Files with some entries, and nobody who works with them. -/
def new (t : Table) : Life := ⟨⟨t, none⟩, [], [], []⟩

/-- A session with the files as they are. -/
def session? (l : Life) (n : Nat) : Option Session :=
  l.sessions[n]?.map fun s => { s with hub := { s.hub with store := s.hub.store.over l.files } }

/-- A session that has just been opened. -/
def opened (f : Files) (queue : Queue) (style : SinkStyle) (faults : Faults) (mapSize : Nat) :
    Session :=
  ⟨⟨.ofTable f.table mapSize, faults, style, false, .empty, .idle, []⟩, queue⟩

/-- Whether no thread of a session forwards any more. -/
def hasEnded (l : Life) (n : Nat) : Bool :=
  l.actors.all fun a => a.session != n || !a.job.isForwarding

/-- Whether a thread of a session has been killed. -/
def hasDied (l : Life) (n : Nat) : Bool :=
  l.actors.any fun a => a.session == n && a.job.hasDied

/-- Somebody more works with the files. -/
def enlist (l : Life) (n : Nat) (j : Job) : Option Life :=
  if n < l.sessions.length then some { l with actors := l.actors ++ [⟨n, j⟩] } else none

/-- An actor takes a step. -/
def act (l : Life) (i : Nat) (act : Act) : Option Life := do
  let a ← l.actors[i]?
  let s ← l.session? a.session
  let (job, s, news) ←
    a.job.act (l.hasEnded a.session) (l.hasDied a.session) l.history.length s act
  return ⟨s.hub.store.files, l.sessions.set a.session s, l.actors.set i { a with job },
    l.history ++ news⟩

/-- The life after something happens, unless it cannot. -/
def move (l : Life) : Move → Option Life
  | .opens queue style faults mapSize =>
    some { l with sessions := l.sessions ++ [opened l.files queue style faults mapSize] }
  | .sends n p nonce e =>
    (l.enlist n (.sending e (.ofEvent p nonce e))).map fun l =>
      { l with history := l.history ++ [.sent e] }
  | .forwards n s loops =>
    l.enlist n (.forwarding (if loops then .loop (.create s) else .pass s .starting) (.opened 0))
  | .stops n graceful => l.enlist n (.stopping graceful .entering)
  | .acts i act => l.act i act
  | .raises n =>
    l.sessions[n]?.map fun s =>
      { l with sessions := l.sessions.set n { s with hub := s.hub.raise } }
  | .spoils n faults =>
    l.sessions[n]?.map fun s =>
      { l with sessions := l.sessions.set n { s with hub := { s.hub with faults } } }
  | .crashes => some ⟨⟨l.files.table, none⟩, [], [], l.history⟩

/-- What can come of some entries by moves that are allowed. -/
inductive Reached (allowed : Life → Move → Prop) (t : Table) : Life → Prop
  | new : Reached allowed t (.new t)
  | move {l l' : Life} {m : Move} (before : Reached allowed t l) (ok : allowed l m)
      (h : l.move m = some l') : Reached allowed t l'

/-- Any move. -/
def anyMove (_ : Life) (_ : Move) : Prop := True

instance (l : Life) (m : Move) : Decidable (anyMove l m) := inferInstanceAs (Decidable True)

/-- What may happen where less is allowed may happen where more is. -/
theorem Reached.mono {allowed more : Life → Move → Prop} {t : Table} {l : Life}
    (hle : ∀ l m, allowed l m → more l m) (hr : Reached allowed t l) : Reached more t l := by
  induction hr with
  | new => exact .new
  | move before ok hm ih => exact ih.move (hle _ _ ok) hm

variable {allowed : Life → Move → Prop} [∀ l m, Decidable (allowed l m)]

/-- One move after another, as long as they are allowed. -/
def run (allowed : Life → Move → Prop) [∀ l m, Decidable (allowed l m)] (l : Life) :
    List Move → Option Life
  | [] => some l
  | m :: ms => if allowed l m then (l.move m).bind fun l => run allowed l ms else none

/-- What a run comes to can come of its start. -/
theorem Reached.run {t : Table} {l l' : Life} {ms : List Move} (hl : Reached allowed t l)
    (h : l.run allowed ms = some l') : Reached allowed t l' := by
  induction ms generalizing l with
  | nil => cases h; exact hl
  | cons m ms ih =>
    unfold Life.run at h
    split at h
    · next ok =>
      obtain ⟨l₁, hm, h⟩ := Option.bind_eq_some_iff.1 h
      exact ih (hl.move ok hm) h
    · cases h

/-- What a run comes to, if it can be made. -/
def after (allowed : Life → Move → Prop) [∀ l m, Decidable (allowed l m)] (t : Table)
    (ms : List Move) : Life :=
  ((new t).run allowed ms).getD (new t)

theorem Reached.after {t : Table} {ms : List Move}
    (h : ((Life.new t).run allowed ms).isSome = true) :
    Reached allowed t (Life.after allowed t ms) := by
  obtain ⟨l, hl⟩ := Option.isSome_iff_exists.1 h
  unfold Life.after
  rw [hl]
  exact Reached.new.run hl

/-- A producer without a key sends an event, and is told that it is committed. -/
def submitting (actor : Nat) (e : Event) : List Move :=
  .sends 0 ⟨.plaintext, 0⟩ (.ofNat 0) e ::
    (List.replicate 3 (.acts actor (.step 0)) ++ List.replicate 11 (.acts actor .task) ++
      [.acts actor (.step 0)])

end Life

end Outbox
