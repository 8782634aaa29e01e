import Outbox.Proofs.Forwarder.Loop
import Outbox.Proofs.Forwarder.Work
import Outbox.Proofs.Turns

namespace Outbox

/-!
# What the threads leave alone

Threads that forward or send neither close the store nor make it misbehave:

* `Hub.Keeps` — the store has the same faults, and is open if it was.
* `PutOp.closed_step`, `RemovalOp.closed_step`, `WalkOp.closed_step`, `RecountOp.closed_step` — no
  operation closes the store.
* `Pass.Step.closed_eq`, `Pass.Reply.closed_eq` — no pass does, read off what it does to the store.
* `Pass.step_keeps`, `Scenario.Work.step_keeps`, `Submission.stepTask_keeps`, … — no thread does.
-/

/-- The store has the same faults, and is open if it was. -/
structure Hub.Keeps (h h' : Hub) : Prop where
  faults : h'.faults = h.faults
  closed : h'.store.closed = h.store.closed

/-! ### Operations -/

/-- No step of a put closes the store. -/
theorem PutOp.closed_step {failure : Option EngineFault} {s : Store} {op : PutOp}
    {y : PutOp × Store} (h : op.step failure s = some y) : y.2.closed = s.closed := by
  obtain ⟨op', s'⟩ := y
  cases step_cases h <;> rfl

/-- No step of a removal closes the store. -/
theorem RemovalOp.closed_step {failure : Option EngineFault} {s : Store} {op : RemovalOp}
    {y : RemovalOp × Store × Journal} (h : op.step failure s = some y) :
    y.2.1.closed = s.closed := by
  obtain ⟨op', s', j⟩ := y
  cases step_cases h <;> rfl

/-- No step of a walk closes the store. -/
theorem WalkOp.closed_step {failure : Option EngineFault} {s : Store} {op : WalkOp}
    {y : WalkOp × Store} (h : op.step failure s = some y) : y.2.closed = s.closed := by
  obtain ⟨op', s'⟩ := y
  cases step_cases h <;> rfl

/-- No answer to an offered entry closes the store. -/
theorem WalkOp.closed_answer (v : Verdict) (op : WalkOp) (s : Store) :
    (op.answer v s).2.closed = s.closed := by
  cases he : op.offered? with
  | none => rw [answer_of_not_offered he]
  | some e =>
    obtain ⟨rest, visited, deleted, rfl⟩ := offered?_eq_some_iff.1 he
    cases v <;> rfl

/-- No step of a recount closes the store. -/
theorem RecountOp.closed_step {s : Store} {op : RecountOp} {y : RecountOp × Store}
    (h : op.step s = some y) : y.2.closed = s.closed := by
  obtain ⟨op', s'⟩ := y
  cases step_cases h <;> rfl

/-! ### Passes -/

namespace Pass

variable {s : Forwarder.Settings} {h : Hub} {p p' : Pass} {store store' : Store}

/-- What a step of a pass does to the store does not close it. -/
theorem Step.closed_eq (hp : Step s h p p' store) : store.closed = h.store.closed := by
  cases hp with
  | remove ho => exact RemovalOp.closed_step ho
  | walkOn hx ho => exact WalkOp.closed_step ho
  | recountOn ho => exact RecountOp.closed_step ho
  | stop | drop => exact WalkOp.closed_answer _ _ _
  | _ => rfl

/-- Nor does what an answer of the sink does to it. -/
theorem Reply.closed_eq {r : SinkAnswer} {events : List Event}
    (hp : Reply store r events p p' store') : store'.closed = store.closed := by
  cases hp with
  | take | restore => exact WalkOp.closed_answer _ _ _
  | _ => rfl

/-- A step of a pass leaves the faults as they are and the store open. -/
theorem step_keeps {y : Pass × Hub} (hp : p.step s h = some y) : h.Keeps y.2 :=
  ⟨(step_still hp).faults, (step_cases hp).closed_eq⟩

/-- An answer that a pass has not asked for leaves the store as it is. -/
theorem store_answer_of_no_call (hc : p.call? = none) (a : SinkAnswer) (h : Hub) :
    (p.answer a h).2.store = h.store := by
  cases p with
  | delivering calls delivered dropped keys => cases a <;> rfl
  | offering op event delivered dropped => cases hc
  | _ => rfl

/-- So does the answer of the sink. -/
theorem answer_keeps (a : SinkAnswer) (p : Pass) (h : Hub) : h.Keeps (p.answer a h).2 := by
  refine ⟨(answer_still a p h).faults, ?_⟩
  cases hc : p.call? with
  | none => rw [store_answer_of_no_call hc]
  | some events => exact (answer_cases hc a).closed_eq

end Pass

/-! ### Threads that forward -/

/-- A step of the loop beside its pass does not touch the store. -/
theorem Forwarder.step_keeps {now : Nat} {f : Forwarder} {h : Hub} {y : Forwarder × Hub}
    (hf : f.step now h = some y) : h.Keeps y.2 := by
  obtain ⟨f', h'⟩ := y
  have hstep : Step now f h f' h' := step_cases hf
  cases hstep with
  | pass hp hs => exact Pass.step_keeps hs
  | _ => exact ⟨rfl, rfl⟩

namespace Scenario.Work

variable {w : Work} {h : Hub}

/-- A step of a thread that forwards leaves the faults as they are and the store open. -/
theorem step_keeps {now : Nat} {y : Work × Hub} (hw : w.step now h = some y) : h.Keeps y.2 := by
  cases w with
  | pass s p =>
    obtain ⟨x, hp, rfl⟩ := Option.map_eq_some_iff.1 hw
    exact Pass.step_keeps hp
  | loop f =>
    obtain ⟨x, hf, rfl⟩ := Option.map_eq_some_iff.1 hw
    exact Forwarder.step_keeps hf

/-- A thread with a pass that is not over has not ended. -/
theorem hasEnded_of_pass {p : Pass} (hp : w.pass? = some p) (hlive : p.isOver = false) :
    w.hasEnded = false := by
  cases w with
  | pass s q =>
    cases hp
    cases p with
    | ended r => cases hlive
    | died => cases hlive
    | _ => rfl
  | loop f =>
    obtain ⟨settings, nextPass, idle, phase⟩ := f
    cases phase with
    | passing q => rfl
    | _ => cases hp

/-- A thread that has ended takes no step. -/
theorem hasEnded_of_step {now : Nat} {y : Work × Hub} (hw : w.step now h = some y) :
    w.hasEnded = false := by
  cases w with
  | pass s p =>
    obtain ⟨x, hp, rfl⟩ := Option.map_eq_some_iff.1 hw
    cases p with
    | ended r => cases hp
    | died => cases hp
    | _ => rfl
  | loop f =>
    obtain ⟨x, hf, rfl⟩ := Option.map_eq_some_iff.1 hw
    obtain ⟨settings, nextPass, idle, phase⟩ := f
    cases phase with
    | stopped => cases hf
    | died => cases hf
    | _ => rfl

/-- A thread that has ended calls no sink. -/
theorem hasEnded_of_call {events : List Event} (hc : w.call? = some events) :
    w.hasEnded = false := by
  cases w with
  | pass s p =>
    cases p with
    | ended r => cases hc
    | died => cases hc
    | _ => rfl
  | loop f =>
    obtain ⟨settings, nextPass, idle, phase⟩ := f
    cases phase with
    | stopped => cases hc
    | died => cases hc
    | _ => rfl

/-- An answer is one to the pass of a thread, or to nobody. -/
theorem answer_eq (a : SinkAnswer) (w : Work) (h : Hub) :
    (w.answer a h).2 = h ∨ ∃ p : Pass, (w.answer a h).2 = (p.answer a h).2 := by
  cases w with
  | pass s p => exact .inr ⟨p, rfl⟩
  | loop f =>
    obtain ⟨settings, nextPass, idle, phase⟩ := f
    cases phase with
    | passing p => exact .inr ⟨p, rfl⟩
    | _ => exact .inl rfl

/-- No answer tells anybody anything. -/
theorem answer_still (a : SinkAnswer) (w : Work) (h : Hub) : h.Still (w.answer a h).2 := by
  obtain heq | ⟨p, heq⟩ := answer_eq a w h
  · rw [heq]
    exact ⟨rfl, rfl, rfl, rfl⟩
  · rw [heq]
    exact Pass.answer_still a p h

/-- An answer leaves the faults as they are and the store open. -/
theorem answer_keeps (a : SinkAnswer) (w : Work) (h : Hub) : h.Keeps (w.answer a h).2 := by
  obtain heq | ⟨p, heq⟩ := answer_eq a w h
  · rw [heq]
    exact ⟨rfl, rfl⟩
  · rw [heq]
    exact Pass.answer_keeps a p h

end Scenario.Work

/-! ### Producers -/

/-- A step of a commit task leaves the faults as they are and the store open. -/
theorem CommitTask.step_keeps {t : CommitTask} {h : Hub} {y : CommitTask × Hub}
    (ht : t.step h = some y) : h.Keeps y.2 := by
  obtain ⟨t', h'⟩ := y
  cases turn_of_step ht with
  | put ho => exact ⟨rfl, PutOp.closed_step ho⟩
  | _ => exact ⟨rfl, rfl⟩

namespace Submission

variable {s : Submission} {h : Hub}

/-- So does a step of the task of a submission. -/
theorem stepTask_keeps {y : Submission × Hub} (hs : s.stepTask h = some y) : h.Keeps y.2 := by
  obtain ⟨s', h'⟩ := y
  obtain ⟨t, t', -, -, hstep⟩ := step_of_stepTask hs
  exact CommitTask.step_keeps hstep

/-- So does a step of its call. -/
theorem stepCall_keeps {now : Nat} {y : Submission × Hub} (hs : s.stepCall now h = some y) :
    h.Keeps y.2 := by
  obtain ⟨s', h'⟩ := y
  obtain ⟨-, -, hstore, hfaults⟩ := (callTurn_of_step hs).quiet
  exact ⟨hfaults, congrArg Store.closed hstore⟩

end Submission

end Outbox
