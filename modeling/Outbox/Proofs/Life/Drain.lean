import Outbox.Proofs.Life.Moves
import Outbox.Proofs.Life.Once

namespace Outbox

/-!
# No commit after the drain

A call counts itself as running before it reads the flag, and a shutdown raises the flag before it
reads how many are running:

* `Submission.running` — how often a call and its task count as running.
* `Job.hasRaised`, `Job.willClose` — how far a shutdown has come.
* `Life.Drained` — the flag is up, and no call of a session has a put to make any more.
* `Life.Reached.drained_of_idle`, `Life.Drained.run` — this is so once the flag is up and nothing is
  running, and from then on.
* `Call.Barred` — a call that has seen the flag up, or is going to.
* `Submission.TurnedAway` — such a call has no task, and returns soon.
* `Life.TurnsAway`, `Life.turnsAway_of_up` — who begins to send when the flag is up makes such a
  call.
* `Life.no_put_after_drain` — the guarantee that a shutdown relies on.
-/

/-! ### Who is counted -/

/-- Whether a task counts as running. -/
def CommitTask.runs : CommitTask → Bool
  | starting _ _ | putting _ _ | waking | leaving _ => true
  | ringing _ | ended _ => false

/-- Whether a task has found the store closed. -/
def CommitTask.foundClosed : CommitTask → Bool
  | putting (.done (.error .closed)) _ => true
  | leaving e | ringing e | ended e => e = .refused (.transaction .closed)
  | _ => false

/-- Whether a call counts as running, apart from its task. -/
def Call.runs : Call → Bool
  | checking _ | sealing _ | leaving _ => true
  | _ => false

/-- Whether the end of a queue has raised the flag. -/
def Stop.hasRaised : Stop → Bool
  | waking | settling _ _ | joining _ | closing => true
  | _ => false

/-- Whether the end of a queue, by a shutdown or not, is going to close the store. -/
def Stop.willClose (graceful : Bool) : Stop → Bool
  | entering | done => false
  | closing => true
  | _ => graceful

namespace Submission

/-- How often a call and its task count as running. -/
def running (s : Submission) : Nat :=
  s.call.runs.toNat + (s.task.elim false CommitTask.runs).toNat

/-- Whether the task of a call has found the store closed. -/
def foundClosed (s : Submission) : Bool := s.task.elim false CommitTask.foundClosed

/-- No put of a call is under way or to come; its task has ended in a way that is `fine`. -/
def AtRest (fine : CommitEnd → Prop) (s : Submission) : Prop :=
  (∀ e, s.call ≠ .sealing e) ∧
    ∀ t, s.task = some t → ∃ e, (t = .ringing e ∨ t = .ended e) ∧ fine e

variable {now : Nat} {s s' : Submission} {h h' : Hub} {fine : CommitEnd → Prop}

/-- A call is counted before it reads the flag, until it has handed its task in or has failed. -/
theorem CallTurn.running {x : Nat} (hs : CallTurn now s h s' h')
    (hx : x + s.running ≤ h.commits.running) : x + s'.running ≤ h'.commits.running := by
  obtain ⟨producer, nonce, call, task⟩ := s
  cases hs with
  | enter hc | bar hc | pass hc | unfit hc | ring hc | learn hc | wait hc | giveUp hc =>
    obtain rfl : call = _ := hc
    simp only [Submission.running, Call.runs, Commits.enter, Commits.ring, Hub.incident,
      Hub.report, Bool.toNat_true, Bool.toNat_false] at hx ⊢
    omega
  | submit hc =>
    obtain rfl : call = _ := hc
    simp only [Submission.running, Call.runs, Option.elim, CommitTask.runs, Bool.toNat_true,
      Bool.toNat_false] at hx ⊢
    omega
  | leave hc hn =>
    obtain rfl : call = _ := hc
    rcases hn with rfl | rfl <;>
      simp only [Submission.running, Call.runs, Commits.leave, Bool.toNat_true,
        Bool.toNat_false] at hx ⊢ <;> omega

/-- A task is counted until it has put its entry and woken the forwarder. -/
theorem running_of_turn {t t' : CommitTask} {x : Nat} (hs : s.task = some t) (ht : t.Turn h t' h')
    (hx : x + s.running ≤ h.commits.running) :
    x + ({ s with task := some t' } : Submission).running ≤ h'.commits.running := by
  unfold running at hx ⊢
  rw [hs] at hx
  cases ht with
  | leave hn =>
    rcases hn with rfl | rfl <;>
      simp only [Option.elim, CommitTask.runs, Commits.leave, Bool.toNat_true,
        Bool.toNat_false] at hx ⊢ <;> omega
  | _ => exact hx

/-- Giving a call up leaves its task as much running as before. -/
theorem running_drop (s : Submission) : s.drop.running = s.running := by
  obtain ⟨producer, nonce, call, task⟩ := s
  cases call <;> rfl

/-- What does not run is at rest. -/
theorem atRest_of_running (hs : s.running = 0)
    (hfine : ∀ e, s.task = some (.ringing e) ∨ s.task = some (.ended e) → fine e) :
    s.AtRest fine := by
  unfold running at hs
  constructor
  · intro e hc
    rw [hc] at hs
    simp [Call.runs] at hs
  · intro t ht
    rw [ht] at hs
    cases t with
    | ringing e => exact ⟨e, .inl rfl, hfine e (.inl ht)⟩
    | ended e => exact ⟨e, .inr rfl, hfine e (.inr ht)⟩
    | _ => simp [CommitTask.runs] at hs

/-- A task that finds the store closed does so in a session whose store is closed. -/
theorem foundClosed_of_turn {t t' : CommitTask} (ht : t.Turn h t' h')
    (hbefore : t.foundClosed = true → h.store.closed = true) (hf : t'.foundClosed = true) :
    h.store.closed = true := by
  cases ht with
  | @start key value =>
    revert hf
    unfold Faults.put
    split <;> exact nofun
  | put ho =>
    cases PutOp.step_cases ho with
    | refuse closed => exact closed
    | _ => cases hf
  | @refuse fault bytes =>
    have hfault : CommitEnd.refused (.transaction fault) = .refused (.transaction .closed) :=
      of_decide_eq_true hf
    cases hfault
    exact hbefore rfl
  | leave hn =>
    rcases hn with rfl | rfl
    · exact hbefore hf
    · exact hbefore hf
  | ring => exact hbefore hf
  | _ => cases hf

/-- A call that has found the queue closed has found it so before its last step. -/
theorem CallTurn.foundClosed (hs : CallTurn now s h s' h') (hf : s'.foundClosed = true) :
    s.foundClosed = true := by
  cases hs with
  | submit hc => cases hf
  | _ => exact hf

/-- While the flag is up, a call at rest submits no task. -/
theorem CallTurn.atRest (hs : CallTurn now s h s' h') (up : h.flag = true) (hr : s.AtRest fine) :
    s'.AtRest fine := by
  cases hs with
  | pass hc down =>
    rw [up] at down
    cases down
  | submit hc => exact absurd hc (hr.1 _)
  | leave hc hn =>
    refine ⟨fun e => ?_, hr.2⟩
    rcases hn with rfl | rfl <;> exact nofun
  | _ => exact ⟨fun _ => nofun, hr.2⟩

/-- A task at rest stays at rest, with its steps. -/
theorem atRest_of_turn {t t' : CommitTask} (hs : s.task = some t) (ht : t.Turn h t' h')
    (hr : s.AtRest fine) : ({ s with task := some t' } : Submission).AtRest fine := by
  obtain ⟨e, he, hfine⟩ := hr.2 t hs
  refine ⟨hr.1, fun t'' ht'' => ?_⟩
  cases ht''
  rcases he with rfl | rfl
  · cases ht
    exact ⟨e, .inr rfl, hfine⟩
  · cases ht

/-- A call at rest stays so when it is given up. -/
theorem atRest_drop (hr : s.AtRest fine) : s.drop.AtRest fine := by
  unfold drop
  split
  · exact ⟨fun _ => nofun, hr.2⟩
  · exact hr

end Submission

/-! ### What actors have to do with it -/

namespace Job

/-- How often an actor counts as running. -/
def running : Job → Nat
  | sending _ sub => sub.running
  | _ => 0

/-- Whether an actor is the end of a queue that has raised the flag. -/
def hasRaised : Job → Bool
  | stopping _ stop => stop.hasRaised
  | _ => false

/-- How often an actor is going to close the store. -/
def willClose : Job → Nat
  | stopping graceful stop => (stop.willClose graceful).toNat
  | _ => 0

/-- Whether an actor has found the store closed. -/
def foundClosed : Job → Bool
  | sending _ sub => sub.foundClosed
  | _ => false

/-- No put of an actor is under way or to come. -/
def AtRest (fine : CommitEnd → Prop) : Job → Prop
  | sending _ sub => sub.AtRest fine
  | _ => True

variable {ended died : Bool} {past : Nat} {s s' : Session} {how : Act} {j j' : Job}
  {news : List Occurrence} {fine : CommitEnd → Prop}

/-- While the flag is up, an actor at rest stays at rest. -/
theorem Stride.atRest (h : Stride ended died past s how j j' s' news) (up : s.hub.flag = true)
    (hr : j.AtRest fine) : j'.AtRest fine := by
  cases h with
  | call hs => exact (Submission.callTurn_of_step hs).atRest up hr
  | task hs =>
    obtain ⟨t, t', ht, rfl, hturn⟩ := Submission.turn_of_stepTask hs
    exact Submission.atRest_of_turn ht hturn hr
  | drop => exact Submission.atRest_drop hr
  | _ => trivial

end Job

namespace Life

/-- Who has raised the flag finds it up. -/
theorem stable_hasRaised : Stable fun s j => j.hasRaised = true → s.hub.flag = true where
  begins hj hr := by
    cases hj <;> cases hr
  own hstep hj hr := by
    cases hstep with
    | stop hs =>
      have hs := Stop.turn_of_step hs
      have hflag := hs.steady.2.1
      cases hs with
      | raise => rfl
      | forget => cases hr
      | begin => cases hr
      | close => cases hr
      | _ => exact hflag (hj rfl)
    | _ => cases hr
  other hstep hj hr := hstep.onward.flag (hj hr)
  raise _ _ := rfl
  spoil _ hj := hj

/-- Who has found the store closed does not find it open again. -/
theorem stable_foundClosed :
    Stable fun s j => j.foundClosed = true → s.hub.store.closed = true where
  begins hj hr := by
    cases hj <;> cases hr
  own hstep hj hr := by
    refine hstep.onward.closed ?_
    cases hstep with
    | call hs => exact hj ((Submission.callTurn_of_step hs).foundClosed hr)
    | task hs =>
      obtain ⟨t, t', ht, rfl, hturn⟩ := Submission.turn_of_stepTask hs
      refine Submission.foundClosed_of_turn hturn (fun hf => hj ?_) hr
      show Option.elim _ false CommitTask.foundClosed = true
      rw [ht]
      exact hf
    | @drop e sub =>
      refine hj ?_
      have hr : sub.drop.foundClosed = true := hr
      unfold Submission.foundClosed at hr
      rwa [Submission.task_drop] at hr
    | _ => cases hr
  other hstep hj hr := hstep.onward.closed (hj hr)
  raise hj := hj
  spoil _ hj := hj

/-- Nobody runs without being counted. -/
theorem tallying_running : Tallying Job.running fun s x => x ≤ s.hub.commits.running where
  opens _ _ _ _ _ := Nat.le_refl _
  step {_ _ _ s _ _ _ _ _ _ x} hstep hx := by
    have hsame : ∀ {h : Hub}, h.commits = s.hub.commits → x ≤ s.hub.commits.running →
        x ≤ h.commits.running := by
      intro h heq hx
      rwa [heq]
    cases hstep with
    | loop hf => exact hsame (Forwarder.step_cases hf).commits_eq hx
    | pass hp => exact hsame (Pass.step_still hp).commits hx
    | answer hc => exact hsame (Scenario.Work.answer_still _ _ _).commits hx
    | call hs => exact (Submission.callTurn_of_step hs).running hx
    | task hs =>
      obtain ⟨t, t', ht, rfl, hturn⟩ := Submission.turn_of_stepTask hs
      exact Submission.running_of_turn ht hturn hx
    | @drop e sub =>
      show x + sub.drop.running ≤ _
      rw [Submission.running_drop]
      exact hx
    | stop hs => exact hsame (Stop.turn_of_step hs).steady.1 hx
  raise hx := hx
  spoil _ hx := hx

/-- A shutdown that is going to close the store has closed the queue, and no other one has. -/
theorem willClose_of_turn {graceful ended : Bool} {now x : Nat} {q q' : Queue} {h h' : Hub}
    {stop stop' : Stop} (hs : stop.Turn graceful ended now q h stop' q' h')
    (hx : x + (stop.willClose graceful).toNat + h.store.closed.toNat ≤ q.closed.toNat) :
    x + (stop'.willClose graceful).toNat + h'.store.closed.toNat ≤ q'.closed.toNat := by
  cases hs with
  | begin hq =>
    rw [hq] at hx
    simp only [Stop.willClose, Bool.toNat_false] at hx ⊢
    omega
  | wake => cases graceful <;> exact hx
  | join => cases graceful <;> exact hx
  | close hc =>
    have hle := Bool.toNat_le (h.faults.close h.store).2.closed
    subst hc
    simp only [Stop.willClose, Bool.toNat_true, Bool.toNat_false] at hx ⊢
    show _ + (h.faults.close h.store).2.closed.toNat ≤ _
    omega
  | _ => exact hx

/-- One shutdown closes the store of a session, and only when it is over. -/
theorem tallying_willClose :
    Tallying Job.willClose fun s x => x + s.hub.store.closed.toNat ≤ s.queue.closed.toNat where
  opens _ _ _ _ _ := Nat.zero_le _
  step {_ _ _ s _ g _ _ _ _ x} hstep hx := by
    have hsame : ∀ {h : Hub}, (s.over g).hub.Keeps h →
        x + s.hub.store.closed.toNat ≤ s.queue.closed.toNat →
        x + h.store.closed.toNat ≤ s.queue.closed.toNat := by
      intro h keeps hx
      rwa [keeps.closed]
    cases hstep with
    | loop hf => exact hsame (Forwarder.step_keeps hf) hx
    | pass hp => exact hsame (Pass.step_keeps hp) hx
    | answer hc => exact hsame (Scenario.Work.answer_keeps _ _ _) hx
    | call hs => exact hsame (Submission.stepCall_keeps hs) hx
    | task hs => exact hsame (Submission.stepTask_keeps hs) hx
    | drop => exact hx
    | stop hs => exact willClose_of_turn (Stop.turn_of_step hs) hx
  raise hx := hx
  spoil _ hx := hx

variable {allowed : Life → Move → Prop} {t : Table} {l l' : Life} {m : Move} {n i : Nat}
  {fine : CommitEnd → Prop}

/-! ### The drain -/

/-- The flag of a session is up, and no put of its calls is under way or to come. -/
structure Drained (l : Life) (n : Nat) (fine : CommitEnd → Prop) : Prop where
  up : ∃ s, l.sessions[n]? = some s ∧ s.hub.flag = true
  rest : ∀ {i : Nat} {j : Job}, l.actors[i]? = some ⟨n, j⟩ → j.AtRest fine

/-- When the flag is up and nothing is running, a session is drained; a call that has found the
    store closed has done so because it was. -/
theorem Reached.drained_of_idle {s : Session} (h : Reached allowed t l)
    (hs : l.sessions[n]? = some s) (up : s.hub.flag = true) (hidle : s.hub.commits.running = 0) :
    l.Drained n fun e => e = .refused (.transaction .closed) → s.hub.store.closed = true := by
  refine ⟨⟨s, hs, up⟩, fun {i j} ha => ?_⟩
  have htotal := h.tallied tallying_running (fun hj => by cases hj <;> rfl) hs
  have hle : j.running ≤ l.total n Job.running := le_total ha
  cases j with
  | sending e sub =>
    refine Submission.atRest_of_running (?_ : sub.running = 0) fun ending hend hclosed => ?_
    · have hsub : Job.running (.sending e sub) = sub.running := rfl
      omega
    · obtain ⟨s', hs', hfound⟩ := h.each stable_foundClosed ha
      obtain rfl : s = s' := Option.some.inj (hs.symm.trans hs')
      refine hfound ?_
      show Option.elim sub.task false CommitTask.foundClosed = true
      rw [hclosed] at hend
      rcases hend with hend | hend <;> rw [hend] <;> rfl
  | _ => trivial

/-- A queue that is drained in one way is drained in every way that follows. -/
theorem Drained.mono {fine' : CommitEnd → Prop} (hl : l.Drained n fine)
    (h : ∀ e, fine e → fine' e) : l.Drained n fine' := by
  refine ⟨hl.up, fun {i j} ha => ?_⟩
  have hr := hl.rest ha
  cases j with
  | sending e sub =>
    refine ⟨hr.1, fun task ht => ?_⟩
    obtain ⟨ending, hend, hfine⟩ := hr.2 task ht
    exact ⟨ending, hend, h _ hfine⟩
  | _ => trivial

/-- A session that is drained stays so. -/
theorem Drained.moved (hl : l.Drained n fine) (h : Moved l m l') (hc : m.isCrash = false) :
    l'.Drained n fine := by
  obtain ⟨s, hs, up⟩ := hl.up
  obtain ⟨s₁, hs₁, honward⟩ := h.onward hc hs
  refine ⟨⟨s₁, hs₁, honward.flag up⟩, fun {i j} ha' => ?_⟩
  obtain ⟨-, ⟨⟨k, job⟩, ha, rfl⟩ | ⟨-, hj, -⟩⟩ := h.known_or_new ha'
  · obtain ⟨b, s', hb, hs', hbefalls⟩ := h.befalls hc ha hs
    obtain rfl := Option.some.inj (ha'.symm.trans hb)
    cases hbefalls with
    | acts hstep => exact hstep.atRest up (hl.rest ha)
    | _ => exact hl.rest ha
  · cases hj with
    | sends => exact ⟨fun _ => nofun, nofun⟩
    | _ => trivial

/-- A drained queue stays drained until everything crashes. -/
theorem Drained.run [∀ l m, Decidable (allowed l m)] {ms : List Move} (hl : l.Drained n fine)
    (h : l.run (lasting allowed) ms = some l') : l'.Drained n fine :=
  run_keeps (P := fun l => l.Drained n fine) hl h fun hl ok hm => hl.moved (moved_of_move hm) ok.2

/-- A shutdown that sees that nothing is running has read so just before. -/
theorem idle_of_turn {ended : Bool} {now deadline : Nat} {q q' : Queue} {h h' : Hub} {stop : Stop}
    (hs : stop.Turn true ended now q h (.settling .idle deadline) q' h') :
    stop.hasRaised = true ∧ stop.willClose true = true ∧ h.commits.running = 0 := by
  generalize hnext : Stop.settling .idle deadline = next at hs
  cases hs with
  | wait hw =>
    cases hnext
    refine ⟨rfl, rfl, ?_⟩
    rename_i wait
    cases wait with
    | checking rings =>
      simp only [IdleWait.step, Option.some.injEq] at hw
      split at hw
      · assumption
      · cases hw
    | parked rings =>
      simp only [IdleWait.step] at hw
      split at hw
      · cases hw
      · split at hw <;> cases hw
    | _ => cases hw
  | _ => cases hnext

/-- When a shutdown has seen that nothing is running, the session is drained, and nobody has found
    the store closed. -/
theorem Reached.drained_of_settled {deadline : Nat} (h : Reached allowed t l)
    (ha : l.actors[i]? = some ⟨n, .stopping true (.settling .idle deadline)⟩) :
    l.Drained n (· ≠ .refused (.transaction .closed)) := by
  induction h generalizing i deadline with
  | new => cases ha
  | @move l l' m before ok hm ih =>
    have hmoved := moved_of_move hm
    obtain ⟨hc, ⟨⟨k, job⟩, s, s', hb, hs, -, hbefalls⟩ | ⟨-, hj, -⟩⟩ :=
      hmoved.befallen_or_new ha before.session_of_actor
    · cases hbefalls with
      | acts hstep =>
        cases hstep with
        | @stop now _ stop _ queue h hstop =>
          obtain ⟨hraised, hclose, hidle⟩ := idle_of_turn (Stop.turn_of_step hstop)
          -- it has raised the flag, and the store is open until it closes it
          obtain ⟨s₁, hs₁, hflag⟩ := before.each stable_hasRaised hb
          obtain rfl := Option.some.inj (hs.symm.trans hs₁)
          have hopen : l.total k Job.willClose + s.hub.store.closed.toNat ≤ s.queue.closed.toNat :=
            before.tallied tallying_willClose (fun hj => by cases hj <;> rfl) hs
          have hle : (stop.willClose true).toNat ≤ l.total k Job.willClose :=
            le_total (f := Job.willClose) hb
          have hqueue := Bool.toNat_le s.queue.closed
          rw [hclose, Bool.toNat_true] at hle
          have hdrained := before.drained_of_idle hs (hflag hraised) hidle
          refine (hdrained.mono fun e hfine he => ?_).moved hmoved hc
          rw [hfine he, Bool.toNat_true] at hopen
          omega
      | _ => exact (ih hb).moved hmoved hc
    · generalize hlate : Job.stopping true (.settling .idle deadline) = j at hj
      cases hj <;> cases hlate

/-! ### Calls that begin when the flag is up -/

end Life

/-- Whether a call has come as far as it can without having read a flag that is down. -/
def Call.Barred : Call → Prop
  | entering _ | checking _ => True
  | leaving e | ringing e => e = .queueUnavailable
  | returned r => r = .error .queueUnavailable
  | sealing _ | waiting _ _ | dropped => False

/-- How many steps a call that is turned away has still to take at most. -/
def Call.ahead : Call → Nat
  | entering _ => 4
  | checking _ => 3
  | leaving _ => 2
  | ringing _ => 1
  | _ => 0

namespace Submission

variable {now : Nat} {s s' : Submission} {h h' : Hub}

/-- While the flag is up, a call is turned away. -/
theorem CallTurn.barred (hs : CallTurn now s h s' h') (up : h.flag = true) (hb : s.call.Barred) :
    s'.call.Barred ∧ s'.task = s.task ∧ s'.call.ahead + 1 ≤ s.call.ahead := by
  cases hs with
  | enter hc =>
    rw [hc]
    exact ⟨trivial, rfl, Nat.le_refl _⟩
  | bar hc =>
    rw [hc]
    exact ⟨rfl, rfl, Nat.le_refl _⟩
  | pass hc down =>
    rw [up] at down
    cases down
  | leave hc hn =>
    rw [hc] at hb ⊢
    rcases hn with rfl | rfl
    · exact ⟨hb, rfl, Nat.le_refl _⟩
    · exact ⟨congrArg Except.error hb, rfl, Nat.le_succ 1⟩
  | ring hc =>
    rw [hc] at hb ⊢
    exact ⟨congrArg Except.error hb, rfl, Nat.le_refl _⟩
  | unfit hc | submit hc | learn hc | wait hc | giveUp hc =>
    rw [hc] at hb
    exact hb.elim

/-- A call that is turned away never waits. -/
theorem stepCall_of_barred (hb : s.call.Barred) (now : Nat) (h : Hub) :
    s.call = .returned (.error .queueUnavailable) ∨
      0 < s.call.ahead ∧ (s.stepCall now h).isSome = true := by
  obtain ⟨producer, nonce, call, task⟩ := s
  cases call with
  | entering e => exact .inr ⟨Nat.succ_pos _, rfl⟩
  | checking e => exact .inr ⟨Nat.succ_pos _, rfl⟩
  | leaving e => exact .inr ⟨Nat.succ_pos _, rfl⟩
  | ringing e => exact .inr ⟨Nat.succ_pos _, rfl⟩
  | returned r => exact .inl (congrArg Call.returned hb)
  | _ => exact hb.elim

/-- A call that is turned away and has taken some steps: it has no task and no more than four steps
    in all. -/
structure TurnedAway (taken : Nat) (s : Submission) : Prop where
  task : s.task = none
  barred : s.call.Barred
  steps : taken + s.call.ahead ≤ 4

/-- While the flag is up, a call that is turned away stays so with its own steps. -/
theorem TurnedAway.call {taken : Nat} (hs : s.TurnedAway taken) (up : h.flag = true)
    (hturn : CallTurn now s h s' h') : s'.TurnedAway (taken + 1) := by
  obtain ⟨hb, htask, hahead⟩ := hturn.barred up hs.barred
  have hsteps := hs.steps
  exact ⟨htask.trans hs.task, hb, by omega⟩

/-- A call that cannot wait cannot be given up. -/
theorem drop_of_barred (hb : s.call.Barred) : s.drop = s := by
  unfold drop
  split
  · next hc =>
    rw [hc] at hb
    exact hb.elim
  · rfl

end Submission

namespace Life

variable {allowed : Life → Move → Prop} [∀ l m, Decidable (allowed l m)] {t : Table}
  {l l' : Life} {m : Move} {n i : Nat} {ms : List Move}

/-- Whatever happens to a call that is turned away, it remains one. -/
theorem Befalls.turnedAway {a a' : Actor} {s s' : Session} {taken : Nat} {e' : Event}
    {sub' : Submission} (h : Befalls l i a s m a' s') (up : s.hub.flag = true)
    (ha : l.actors[i]? = some a) (ha' : a'.job = .sending e' sub')
    (hbefore : ∀ {e sub}, a.job = .sending e sub → sub.TurnedAway taken) :
    sub'.TurnedAway (taken + (l.goesOn i (fun _ => true) m).toNat) := by
  obtain ⟨k, job⟩ := a
  -- unless the call itself goes on, it stays as it is
  have hstay : ∀ {sub : Submission}, sub.TurnedAway taken → l.goesOn i (fun _ => true) m = false →
      sub.TurnedAway (taken + (l.goesOn i (fun _ => true) m).toNat) := by
    intro sub hsub hadvances
    rw [hadvances]
    exact hsub
  cases h with
  | acts hstep =>
    dsimp only at ha'
    subst ha'
    cases hstep with
    | call hcall =>
      rw [goesOn_self ha]
      exact (hbefore rfl).call (h := (s.over l.files).hub) up (Submission.callTurn_of_step hcall)
    | task htask =>
      -- there is no task that could go on
      obtain ⟨task, -, hsome, -⟩ := Submission.turn_of_stepTask htask
      rw [(hbefore rfl).task] at hsome
      cases hsome
    | @drop _ sub =>
      have hsub := hbefore rfl
      rw [Submission.drop_of_barred hsub.barred]
      exact hstay hsub rfl
  | spared hne => exact hstay (hbefore ha') (goesOn_of_ne hne)
  | other hk =>
    exact hstay (hbefore ha') (goesOn_of_ne fun how heq => hk (by cases heq; rfl))
  | raised => exact hstay (hbefore ha') rfl
  | spoiled faults => exact hstay (hbefore ha') rfl

/-- A call that begins in a session whose flag is up is turned away. -/
theorem turnedAway_of_run {s : Session} (hrun : l.run (lasting allowed) ms = some l')
    (hs : l.sessions[n]? = some s) (up : s.hub.flag = true) :
    (∃ s', l'.sessions[n]? = some s' ∧ s'.hub.flag = true) ∧
      (∀ i, l'.actors.length ≤ i → l.tally i (fun _ => true) ms = 0) ∧
      ∀ {i e sub}, l.actors.length ≤ i → l'.actors[i]? = some ⟨n, .sending e sub⟩ →
        sub.TurnedAway (l.tally i (fun _ => true) ms) := by
  induction ms using List.reverseRecOn generalizing l' with
  | nil =>
    cases hrun
    refine ⟨⟨s, hs, up⟩, fun i _ => rfl, fun {i e sub} hi ha => ?_⟩
    have := (List.getElem?_eq_some_iff.1 ha).1
    omega
  | append_singleton ms m ih =>
    obtain ⟨l₁, hrun₁, ok, hm⟩ := run_concat.1 hrun
    have hmoved := moved_of_move hm
    obtain ⟨⟨s₁, hs₁, up₁⟩, hnone, haway⟩ := ih hrun₁
    obtain ⟨s', hs', honward⟩ := hmoved.onward ok.2 hs₁
    have hlength := hmoved.length_le ok.2
    have hfirst : ∀ i, l₁.actors.length ≤ i → l.tally i (fun _ => true) (ms ++ [m]) = 0 := by
      intro i hi
      rw [tally_concat _ hrun₁, hnone i hi, goesOn_of_length_le hi]
      rfl
    refine ⟨⟨s', hs', honward.flag up₁⟩, fun i hi => hfirst i (by omega),
      fun {i e sub} hi ha' => ?_⟩
    obtain ⟨-, ⟨⟨k, job⟩, ha, rfl⟩ | ⟨rfl, hj, -⟩⟩ := hmoved.known_or_new ha'
    · obtain ⟨b, s₂, hb, -, hbefalls⟩ := hmoved.befalls ok.2 ha hs₁
      obtain rfl := Option.some.inj (ha'.symm.trans hb)
      rw [tally_concat _ hrun₁]
      refine hbefalls.turnedAway up₁ ha rfl fun {e₁ sub₁} hjob => haway hi (e := e₁) ?_
      rw [ha, ← hjob]
    · rw [hfirst _ (Nat.le_refl _)]
      generalize hnew : Job.sending e sub = j at hj
      cases hj <;> cases hnew
      exact ⟨rfl, trivial, Nat.le_refl _⟩

/-- A call without a task leaves the store as it is. -/
theorem store_of_act {e : Event} {sub : Submission} {how : Act}
    (ha : l.actors[i]? = some ⟨n, .sending e sub⟩) (hnone : sub.task = none)
    (h : l.act i how = some l') :
    (l'.session? n).map (·.hub.store) = (l.session? n).map (·.hub.store) := by
  have hmoved : Moved l (.acts i how) l' := moved_of_move h
  cases hmoved with
  | enlists hj => cases hj
  | @acts _ _ b s s' j news hb hs hstep =>
    obtain rfl := Option.some.inj (ha.symm.trans hb)
    have hn : n < l.sessions.length := (List.getElem?_eq_some_iff.1 hs).1
    have hsame : s'.hub.store = (s.over l.files).hub.store := by
      cases hstep with
      | call hcall => exact (Submission.callTurn_of_step hcall).quiet.2.2.1
      | task htask =>
        obtain ⟨task, -, hsome, -⟩ := Submission.turn_of_stepTask htask
        rw [hnone] at hsome
        cases hsome
      | drop => rfl
    unfold session?
    rw [hs]
    show Option.map _ (Option.map _ (l.sessions.set n s')[n]?) = some (s.over l.files).hub.store
    rw [List.getElem?_set_self hn, ← hsame]
    rfl

/-- Whoever begins to send in a session from now on is turned away: the call has no task and does
    nothing to the store; it is never kept waiting, and after four steps at most it has returned
    that the queue is unavailable. -/
def TurnsAway (l : Life) (n : Nat) : Prop :=
  ∀ (ms : List Move) (l' : Life), l.run (lasting anyMove) ms = some l' →
    ∀ (i : Nat) (e : Event) (sub : Submission), l.actors.length ≤ i →
      l'.actors[i]? = some ⟨n, .sending e sub⟩ →
      sub.task = none ∧
      (∀ how l₁, l'.act i how = some l₁ →
        (l₁.session? n).map (·.hub.store) = (l'.session? n).map (·.hub.store)) ∧
      (sub.call = .returned (.error .queueUnavailable) ∨
        l.tally i (fun _ => true) ms < 4 ∧ ∀ now, (l'.act i (.step now)).isSome = true)

/-- A session whose flag is up turns away whoever begins to send. -/
theorem turnsAway_of_up {s : Session} (hs : l.sessions[n]? = some s) (up : s.hub.flag = true) :
    l.TurnsAway n := by
  intro ms l' hrun i e sub hi ha
  obtain ⟨⟨s', hs', -⟩, -, haway⟩ := turnedAway_of_run hrun hs up
  obtain ⟨hnone, hb, hle⟩ := haway hi ha
  refine ⟨hnone, fun how l₁ hact => store_of_act ha hnone hact, ?_⟩
  rcases Submission.stepCall_of_barred hb 0 s'.hub with hreturned | ⟨hahead, -⟩
  · exact .inl hreturned
  · refine .inr ⟨by omega, fun now => ?_⟩
    rcases Submission.stepCall_of_barred hb now (s'.over l'.files).hub with hr | ⟨-, hstep⟩
    · rw [hr] at hahead
      cases hahead
    · obtain ⟨x, hx⟩ := Option.isSome_iff_exists.1 hstep
      have hsession : l'.session? n = some (s'.over l'.files) := congrArg _ hs'
      simp [act, ha, hsession, Job.act, hx]

/-- Whatever has happened to a store, and whatever happens then unless everything crashes:

    * once the flag of a session is up and nothing is running, no put of its calls is under way, and
      none ever begins;
    * once a shutdown has seen that nothing is running, this is so, and no commit has been turned
      away or will be because the store is closed;
    * a call that begins when the flag is up never has a task and does nothing to the store; it is
      never kept waiting, and after four steps at most it has returned that the queue is
      unavailable. -/
theorem no_put_after_drain (h : Reached anyMove t l) (hrun : l.run (lasting anyMove) ms = some l')
    (n : Nat) :
    ((∃ s, l.session? n = some s ∧ s.hub.flag = true ∧ s.hub.commits.running = 0) →
      ∀ (i : Nat) (e : Event) (sub : Submission), l'.actors[i]? = some ⟨n, .sending e sub⟩ →
        sub.AtRest fun _ => True) ∧
    ((∃ i deadline : Nat, l.actors[i]? = some ⟨n, .stopping true (.settling .idle deadline)⟩) →
      ∀ (i : Nat) (e : Event) (sub : Submission), l'.actors[i]? = some ⟨n, .sending e sub⟩ →
        sub.AtRest (· ≠ .refused (.transaction .closed))) ∧
    ((∃ s, l.session? n = some s ∧ s.hub.flag = true) →
      ∀ (i : Nat) (e : Event) (sub : Submission), l.actors.length ≤ i →
        l'.actors[i]? = some ⟨n, .sending e sub⟩ →
        sub.task = none ∧
        (∀ how l₁, l'.act i how = some l₁ →
          (l₁.session? n).map (·.hub.store) = (l'.session? n).map (·.hub.store)) ∧
        (sub.call = .returned (.error .queueUnavailable) ∨
          l.tally i (fun _ => true) ms < 4 ∧ ∀ now, (l'.act i (.step now)).isSome = true)) := by
  refine ⟨?_, ?_, ?_⟩
  · rintro ⟨_, hsession, up, hidle⟩ i e sub ha
    obtain ⟨s, hs, rfl⟩ := Option.map_eq_some_iff.1 hsession
    have hdrained := (h.drained_of_idle hs up hidle).mono fun _ _ => trivial
    exact (hdrained.run hrun).rest ha
  · rintro ⟨k, deadline, hk⟩ i e sub ha
    exact ((h.drained_of_settled hk).run hrun).rest ha
  · rintro ⟨_, hsession, up⟩ i e sub hi ha
    obtain ⟨s, hs, rfl⟩ := Option.map_eq_some_iff.1 hsession
    exact turnsAway_of_up hs up ms l' hrun i e sub hi ha

/-- An event is sent, and the queue is shut down until nothing is running. -/
def draining : List Move :=
  reopening 1 :: (submitting 0 letter ++ [.stops 0 true] ++ List.replicate 5 (.acts 1 (.step 0)))

/-- Another event is sent afterwards, while the store is closed. -/
def sendingLate : List Move :=
  .sends 0 ⟨.plaintext, 0⟩ (.ofNat 0) postcard ::
    (List.replicate 3 (.acts 1 (.step 0)) ++ List.replicate 4 (.acts 2 (.step 0)))

/-- A queue is drained, and a late call is turned away. -/
theorem no_put_after_drain_of_late :
    let l := after anyMove .empty draining
    let l' := l.onward (lasting anyMove) sendingLate
    (Reached anyMove .empty l ∧ l.run (lasting anyMove) sendingLate = some l' ∧
      l.actors[1]? = some ⟨0, .stopping true (.settling .idle 0)⟩ ∧
      l'.actors[2]? = some ⟨0, .sending postcard
        ⟨⟨.plaintext, 0⟩, .ofNat 0, .returned (.error .queueUnavailable), none⟩⟩) ∧
    (∀ (i : Nat) (e : Event) (sub : Submission), l'.actors[i]? = some ⟨0, .sending e sub⟩ →
      sub.AtRest (· ≠ .refused (.transaction .closed))) ∧
    ∀ how l₁, l'.act 2 how = some l₁ →
      (l₁.session? 0).map (·.hub.store) = (l'.session? 0).map (·.hub.store) := by
  intro l l'
  have hl : Reached anyMove .empty l := Reached.after (by decide +kernel)
  have hrun : l.run (lasting anyMove) sendingLate = some l' := run_onward (by decide +kernel)
  have hstop : l.actors[1]? = some ⟨0, .stopping true (.settling .idle 0)⟩ := by rfl
  have hlate : l'.actors[2]? = some ⟨0, .sending postcard
      ⟨⟨.plaintext, 0⟩, .ofNat 0, .returned (.error .queueUnavailable), none⟩⟩ := by rfl
  have hraised : ∃ s, l.session? 0 = some s ∧ s.hub.flag = true := ⟨_, rfl, rfl⟩
  obtain ⟨-, hdrained, hbarred⟩ := no_put_after_drain hl hrun 0
  exact ⟨⟨hl, hrun, hstop, hlate⟩, hdrained ⟨1, 0, hstop⟩,
    (hbarred hraised 2 _ _ (Nat.le_refl 2) hlate).2.1⟩

end Life

end Outbox
