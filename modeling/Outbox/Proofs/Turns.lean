import Outbox.Proofs.Forwarder.Loop
import Outbox.Proofs.Store.Steps
import Outbox.Queue

namespace Outbox

/-!
# Steps of producers and of the end of a queue

What these do to what they share with others, case by case:

* `Submission.CallTurn` — a step of a producer's call.
* `CommitTask.Turn` — a step of the task that it has submitted.
* `Stop.Turn` — a step of the end of a queue.
* `Submission.callTurn_of_step`, `CommitTask.turn_of_step`, `Stop.turn_of_step` — every step is of
  this kind.
-/

/-! ### Calls -/

namespace Submission

/-- What a step of a call can make of it and of the hub. -/
inductive CallTurn (now : Nat) (s : Submission) (h : Hub) : Submission → Hub → Prop
  | enter {e : Event} (hc : s.call = .entering e) :
      CallTurn now s h { s with call := .checking e } { h with commits := h.commits.enter }
  | bar {e : Event} (hc : s.call = .checking e) (up : h.flag = true) :
      CallTurn now s h { s with call := .leaving .queueUnavailable } h
  | pass {e : Event} (hc : s.call = .checking e) (down : h.flag = false) :
      CallTurn now s h { s with call := .sealing e } h
  | unfit {e : Event} {fault : Error} (hc : s.call = .sealing e)
      (hentry : entry s.producer.cipher s.nonce e = .error fault) :
      CallTurn now s h { s with call := .leaving fault } h
  | submit {e : Event} {key value : Bytes} {deadline : Nat} (hc : s.call = .sealing e)
      (hentry : entry s.producer.cipher s.nonce e = .ok (key, value)) :
      CallTurn now s h
        { s with call := .waiting 1 deadline, task := some (.starting key value) } h
  | leave {e : Error} {c : Call} (hc : s.call = .leaving e)
      (hn : c = .ringing e ∨ c = .returned (.error e)) :
      CallTurn now s h { s with call := c } { h with commits := h.commits.leave }
  | ring {e : Error} (hc : s.call = .ringing e) :
      CallTurn now s h { s with call := .returned (.error e) } { h with commits := h.commits.ring }
  | learn {attempt deadline : Nat} {e : CommitEnd} (hc : s.call = .waiting attempt deadline)
      (ht : s.task = some (.ended e)) :
      CallTurn now s h { s with call := .returned (returns e) } h
  | wait {attempt deadline attempt' deadline' : Nat} {i : Incident}
      (hc : s.call = .waiting attempt deadline) :
      CallTurn now s h { s with call := .waiting attempt' deadline' } (h.incident i)
  | giveUp {attempt deadline : Nat} {i : Incident} (hc : s.call = .waiting attempt deadline) :
      CallTurn now s h { s with call := .returned (.error (.deliveryQueue .gaveUp)) } (h.incident i)

variable {now : Nat} {s s' : Submission} {h h' : Hub}

/-- A task that tells how it has ended has ended so. -/
theorem task_of_end {e : CommitEnd} (he : s.task.bind CommitTask.end? = some e) :
    s.task = some (.ended e) := by
  obtain ⟨t, ht, he⟩ := Option.bind_eq_some_iff.1 he
  cases t with
  | ended e' => cases he; exact ht
  | _ => cases he

/-- A step of a call is one of these. -/
theorem callTurn_of_step (hs : s.stepCall now h = some (s', h')) : CallTurn now s h s' h' := by
  unfold stepCall at hs
  split at hs
  · next e hc => cases hs; exact .enter hc
  · next e hc =>
    cases hs
    cases hflag : h.flag with
    | true => exact .bar hc hflag
    | false => exact .pass hc hflag
  · next e hc =>
    split at hs
    · next fault hentry => cases hs; exact .unfit hc hentry
    · next key value hentry => cases hs; exact .submit hc hentry
  · next e hc =>
    cases hs
    refine .leave hc ?_
    split
    · exact .inl rfl
    · exact .inr rfl
  · next e hc => cases hs; exact .ring hc
  · next attempt deadline hc =>
    split at hs
    · next e he => cases hs; exact .learn hc (task_of_end he)
    · split at hs
      · cases hs
      · dsimp only at hs
        split at hs
        · cases hs; exact .wait hc
        · cases hs; exact .giveUp hc
  · cases hs
  · cases hs

/-- A call tells nobody to stop, wakes nobody, and leaves the store alone. -/
theorem CallTurn.quiet (hs : CallTurn now s h s' h') :
    h'.flag = h.flag ∧ h'.wake = h.wake ∧ h'.store = h.store ∧ h'.faults = h.faults := by
  cases hs <;> exact ⟨rfl, rfl, rfl, rfl⟩

end Submission

/-! ### Commit tasks -/

namespace CommitTask

/-- What a step of a task can make of it and of the hub. -/
inductive Turn (h : Hub) : CommitTask → CommitTask → Hub → Prop
  | die {key value : Bytes} : Turn h (starting key value) (leaving .died) h
  | start {key value : Bytes} :
      Turn h (starting key value) (putting (h.faults.put key value) value.length) h
  | put {op op' : PutOp} {store : Store} {bytes : Nat}
      (ho : op.step h.faults.landing h.store = some (op', store)) :
      Turn h (putting op bytes) (putting op' bytes) { h with store }
  | done {bytes : Nat} :
      Turn h (putting (.done (.ok ())) bytes) waking (h.measure (.enqueued bytes))
  | refuse {fault : StoreFault} {bytes : Nat} :
      Turn h (putting (.done (.error fault)) bytes) (leaving (.refused (.transaction fault))) h
  | wake : Turn h waking (leaving .committed) { h with wake := h.wake.push .committed }
  | leave {e : CommitEnd} {t : CommitTask} (hn : t = ringing e ∨ t = ended e) :
      Turn h (leaving e) t { h with commits := h.commits.leave }
  | ring {e : CommitEnd} : Turn h (ringing e) (ended e) { h with commits := h.commits.ring }

variable {t t' : CommitTask} {h h' : Hub}

/-- A step of a task is one of these. -/
theorem turn_of_step (ht : t.step h = some (t', h')) : Turn h t t' h' := by
  cases t with
  | starting key value =>
    cases ht
    cases h.faults.putDies with
    | false => exact .start
    | true => exact .die
  | putting op bytes =>
    simp only [step] at ht
    split at ht
    · next r hr =>
      obtain rfl := PutOp.eq_done hr
      cases r with
      | error fault => cases ht; exact .refuse
      | ok u => cases ht; exact .done
    · obtain ⟨⟨op', store⟩, ho, heq⟩ := Option.map_eq_some_iff.1 ht
      cases heq
      exact .put ho
  | waking => cases ht; exact .wake
  | leaving e =>
    cases ht
    refine .leave ?_
    split
    · exact .inl rfl
    · exact .inr rfl
  | ringing e => cases ht; exact .ring
  | ended e => cases ht

/-- A task tells nobody to stop, and takes no wake-up away. -/
theorem Turn.flag_eq (ht : Turn h t t' h') : h'.flag = h.flag := by
  cases ht <;> rfl

end CommitTask

namespace Submission

variable {s s' : Submission} {h h' : Hub}

/-- The task of a call takes its own steps, and the rest of the call stays as it is. -/
theorem step_of_stepTask (hs : s.stepTask h = some (s', h')) :
    ∃ t t', s.task = some t ∧ s' = { s with task := some t' } ∧ t.step h = some (t', h') := by
  unfold stepTask at hs
  split at hs
  · cases hs
  · next t ht =>
    obtain ⟨⟨t', g⟩, hstep, heq⟩ := Option.map_eq_some_iff.1 hs
    cases heq
    exact ⟨t, t', ht, rfl, hstep⟩

/-- So each of its steps is one of those. -/
theorem turn_of_stepTask (hs : s.stepTask h = some (s', h')) :
    ∃ t t', s.task = some t ∧ s' = { s with task := some t' } ∧ t.Turn h t' h' := by
  obtain ⟨t, t', ht, rfl, hstep⟩ := step_of_stepTask hs
  exact ⟨t, t', ht, rfl, CommitTask.turn_of_step hstep⟩

end Submission

/-! ### The end of a queue -/

namespace Stop

/-- What a step of the end of a queue can make of it, of the queue, and of the hub; `ended` says
    whether the forwarder has ended. -/
inductive Turn (graceful ended : Bool) (now : Nat) (q : Queue) (h : Hub) :
    Stop → Stop → Queue → Hub → Prop
  | forget (hq : q.closed = true) : Turn graceful ended now q h entering done q h
  | begin (hq : q.closed = false) :
      Turn graceful ended now q h entering raising { q with closed := graceful } h
  | raise : Turn graceful ended now q h raising waking q h.raise
  | wake :
      Turn graceful ended now q h waking
        (if graceful then settling .listening (now + q.shutdownTimeout) else join q now) q
        { h with wake := h.wake.pushShutdown }
  | settle {deadline : Nat} : Turn graceful ended now q h (settling .idle deadline) (join q now) q h
  | expire {deadline : Nat} {i : Incident} :
      Turn graceful ended now q h (settling .expired deadline) (join q now) q (h.incident i)
  | wait {wait wait' : IdleWait} {deadline : Nat}
      (hw : wait.step now deadline h.commits = some wait') :
      Turn graceful ended now q h (settling wait deadline) (settling wait' deadline) q h
  | join {deadline : Nat} {handle : Option Handle} {j : Journal}
      (hover : q.handle = none ∨ ended = true ∨ deadline ≤ now) :
      Turn graceful ended now q h (joining deadline) (if graceful then closing else done)
        { q with handle } (h.report j)
  | close {store : Store} {j : Journal} (hc : (h.faults.close h.store).2 = store) :
      Turn graceful ended now q h closing done q ({ h with store }.report j)

variable {graceful ended died : Bool} {now : Nat} {q q' : Queue} {h h' : Hub} {stop stop' : Stop}

/-- A step of the end of a queue is one of these. -/
theorem turn_of_step (hs : stop.step graceful ended died now q h = some (stop', q', h')) :
    Turn graceful ended now q h stop stop' q' h' := by
  have hreport : ∀ g : Hub, g.report [] = g := by
    intro g
    unfold Hub.report
    rw [List.append_nil]
  cases stop with
  | entering =>
    simp only [step] at hs
    split at hs
    · next hq => cases hs; exact .forget hq
    · next hq => cases hs; exact .begin (by simpa using hq)
  | raising => cases hs; exact .raise
  | waking => cases hs; exact .wake
  | settling wait deadline =>
    cases wait with
    | idle => cases hs; exact .settle
    | expired => cases hs; exact .expire
    | _ =>
      simp only [step, IdleWait.result?] at hs
      obtain ⟨wait', hw, heq⟩ := Option.map_eq_some_iff.1 hs
      cases heq
      exact .wait hw
  | joining deadline =>
    simp only [step] at hs
    split at hs
    · next hnone =>
      cases hs
      have hjoin : Turn graceful ended now q h (joining deadline)
          (if graceful then closing else done) { q with handle := q.handle } (h.report []) :=
        .join (.inl hnone)
      rwa [hreport] at hjoin
    · split at hs
      · next hover =>
        cases hs
        rw [Bool.or_eq_true, decide_eq_true_eq] at hover
        exact .join (.inr hover)
      · cases hs
  | closing =>
    simp only [step] at hs
    split at hs
    · next store hc =>
      cases hs
      have hclose : Turn graceful ended now q h closing done q ({ h with store }.report []) :=
        .close (by rw [hc])
      rwa [hreport] at hclose
    · next fault store hc => cases hs; exact .close (by rw [hc])
  | done => cases hs

/-- The end of a queue leaves the running commits alone, and lets no flag down. -/
theorem Turn.steady (hs : Turn graceful ended now q h stop stop' q' h') :
    h'.commits = h.commits ∧ (h.flag = true → h'.flag = true) ∧
      h'.store.counter = h.store.counter := by
  cases hs with
  | raise => exact ⟨rfl, fun _ => rfl, rfl⟩
  | close hc =>
    refine ⟨rfl, id, ?_⟩
    subst hc
    show (h.faults.close h.store).2.counter = h.store.counter
    unfold Faults.close
    split <;> rfl
  | _ => exact ⟨rfl, id, rfl⟩

end Stop

end Outbox
