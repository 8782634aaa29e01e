import Outbox.Proofs.Forwarder.Loop
import Outbox.Proofs.Life.Basic

namespace Outbox

/-!
# What ends the loop

* `Pass.Unreadable`, `Pass.Uncommitted` — the store does not let a pass read, or does not commit its
  walk.
* `Pass.isLost_iff_of_step` — a pass is lost by this, and by nothing else that it can do itself.
* `Forwarder.isDoomed` — the loop is going to end, or has ended.
* `Forwarder.Ends` — what dooms it: the flag, a store that cannot be read, a walk that cannot be
  committed, or a sink that kills the thread.
* `Forwarder.isDoomed_iff_of_step`, `Forwarder.isDoomed_iff_of_answer` — nothing else does.
* `Forwarder.flag_of_step` — the loop leaves the flag alone until it is doomed.

A removal of a batch is not among what ends the loop, whatever comes of it.
-/

/-! ### Passes -/

namespace Pass

/-- Whether the loop is to end with a pass: the store has answered the pass with a fault that it
    hands on, or the sink has killed the thread. -/
def isLost : Pass → Bool
  | walking (.done (.error _)) _ _ _ | recounting (.done (.error _)) => true
  | ended (.error _) | died => true
  | _ => false

/-- The store does not let a pass read. -/
def Unreadable (s : Forwarder.Settings) (h : Hub) : Pass → Prop
  | starting =>
    if 1 < s.batchSize then ∃ fault, h.faults.scan h.store s.batchSize = .error fault
    else h.faults.walking ≠ none
  | walking .entering _ _ _ | recounting .entering => h.store.closed = true
  | emptied => h.faults.recounting ≠ none
  | _ => False

/-- The store does not commit the walk of a pass. -/
def Uncommitted (h : Hub) : Pass → Prop
  | walking (.committing _ _) _ _ _ => h.faults.committing ≠ none
  | _ => False

variable {s : Forwarder.Settings} {h : Hub} {p : Pass}

theorem isLost_scanned (c : Cipher) (style : SinkStyle) (xs : List Entry) :
    (scanned c style xs).1.isLost = false := by
  unfold scanned
  split
  · rfl
  · dsimp only
    split <;> rfl

theorem isLost_removed (expected delivered dropped : Nat) (h : Hub) (r : Except StoreFault Nat) :
    (removed expected delivered dropped h r).1.isLost = false := by
  cases r <;> rfl

theorem isLost_walked (delivered dropped : Nat) (refused : Bool) (h : Hub)
    (r : Except StoreFault WalkSummary) :
    (walked delivered dropped refused h r).1.isLost =
      (walking (.done r) delivered dropped refused).isLost := by
  cases r with
  | error fault => rfl
  | ok summary =>
    simp only [walked]
    split
    · rfl
    · split <;> rfl

theorem isLost_recounted (h : Hub) (r : Except StoreFault Nat) :
    (recounted h r).1.isLost = (recounting (.done r)).isLost := by
  cases r <;> rfl

theorem isLost_look {op : WalkOp} {x : Entry} (hx : op.offered? = some x) (c : Cipher)
    (delivered dropped : Nat) (h : Hub) : (look c x op delivered dropped h).1.isLost = false := by
  obtain ⟨rest, visited, deleted, rfl⟩ := WalkOp.offered?_eq_some_iff.1 hx
  unfold look
  split
  · rfl
  · split <;> rfl

/-- What an operation that goes on comes to is lost if the store is closed or does not commit. -/
theorem isLost_walking_iff {op op' : WalkOp} {store : Store}
    (ho : op.step h.faults.committing h.store = some (op', store)) (delivered dropped : Nat)
    (refused : Bool) :
    (walking op' delivered dropped refused).isLost = true ↔
      (walking op delivered dropped refused).Unreadable s h ∨
        (walking op delivered dropped refused).Uncommitted h := by
  cases WalkOp.step_cases ho <;> simp_all [isLost, Unreadable, Uncommitted]

theorem isLost_recounting_iff {op op' : RecountOp} {store : Store}
    (ho : op.step h.store = some (op', store)) :
    (recounting op').isLost = true ↔ (recounting op).Unreadable s h := by
  cases RecountOp.step_cases ho <;> simp_all [isLost, Unreadable]

/-- A step loses a pass if the store does not let it read, or does not commit its walk. -/
theorem isLost_iff_of_step {y : Pass × Hub} (hp : p.step s h = some y) :
    y.1.isLost = true ↔ p.isLost = true ∨ p.Unreadable s h ∨ p.Uncommitted h := by
  -- a removal is among the cases that ask nothing of this: its failure is only reported
  cases turn_of_step hp with
  | scanFails batch hs => simp [isLost, Unreadable, batch, hs]
  | scan batch hs =>
    rw [isLost_scanned]
    simp [isLost, Unreadable, Uncommitted, batch, hs]
  | walk single =>
    cases hwalk : h.faults.walking <;>
      simp [isLost, Unreadable, Uncommitted, single, Faults.walk, Faults.report, hwalk]
  | removed =>
    rw [isLost_removed]
    simp [isLost, Unreadable, Uncommitted]
  | clear | remove ho => simp [isLost, Unreadable, Uncommitted]
  | look hx =>
    rw [isLost_look hx]
    obtain ⟨rest, visited, deleted, rfl⟩ := WalkOp.offered?_eq_some_iff.1 hx
    simp [isLost, Unreadable, Uncommitted]
  | walked =>
    rw [isLost_walked]
    simp [Unreadable, Uncommitted]
  | @walkOn op op' store delivered dropped refused hx ho =>
    -- a walk that goes on has not failed yet
    have hgoing : (walking op delivered dropped refused).isLost = false := by
      cases op with
      | done r => cases ho
      | _ => rfl
    rw [hgoing]
    simpa using isLost_walking_iff ho delivered dropped refused
  | recount =>
    cases hrecount : h.faults.recounting <;>
      simp [isLost, Unreadable, Uncommitted, Faults.recount, Faults.report, hrecount]
  | recounted =>
    rw [isLost_recounted]
    simp [Unreadable, Uncommitted]
  | @recountOn op op' store ho =>
    have hgoing : (recounting op).isLost = false := by
      cases op with
      | done r => cases ho
      | _ => rfl
    rw [hgoing]
    simpa [Uncommitted] using isLost_recounting_iff ho

/-- The sink loses a pass if it kills the thread. -/
theorem isLost_iff_of_answer {a : Account} {f : Files} (hf : p.Fits s a f) {events : List Event}
    (hc : p.call? = some events) (r : SinkAnswer) (h : Hub) :
    (p.answer r h).1.isLost = true ↔ r = .died := by
  cases p with
  | delivering calls delivered dropped keys =>
    cases r with
    | accepted =>
      simp only [answer]
      split <;> simp [isLost]
    | refused e => simp [answer, conclude, isLost]
    | died => simp [answer, isLost]
  | offering op event delivered dropped =>
    -- an entry that is handed over is one that the walk offers
    obtain ⟨seen, x, hx, -⟩ := hf
    obtain ⟨rest, visited, deleted, rfl⟩ := WalkOp.offered?_eq_some_iff.1 hx
    cases r <;> simp [answer, WalkOp.answer, isLost]
  | _ => cases hc

end Pass

/-! ### The loop -/

namespace Forwarder

/-- Whether the loop is going to end, whatever happens, or has ended. -/
def isDoomed (f : Forwarder) : Bool :=
  match f.phase with
  | .passing p => p.isLost
  | .stopped | .died => true
  | _ => false

/-- What dooms the loop when it takes a step, or when the sink answers. -/
inductive Ends (f : Forwarder) (h : Hub) : Act → Prop
  | raised {now : Nat} (hp : f.phase = .checking) (up : h.flag = true) : Ends f h (.step now)
  | unreadable {now : Nat} {p : Pass} (hp : f.phase = .passing p)
      (hu : p.Unreadable f.settings h) : Ends f h (.step now)
  | uncommitted {now : Nat} {p : Pass} (hp : f.phase = .passing p) (hu : p.Uncommitted h) :
      Ends f h (.step now)
  | killed {p : Pass} {events : List Event} (hp : f.phase = .passing p)
      (hc : p.call? = some events) : Ends f h (.answer .died)

variable {now : Nat} {f f' : Forwarder} {h h' : Hub}

theorem isDoomed_passing {p : Pass} (hp : f.phase = .passing p) : f.isDoomed = p.isLost := by
  unfold isDoomed
  rw [hp]

/-- Outside of a pass, only the flag dooms the loop. -/
theorem ends_step_iff (hp : ∀ p, f.phase ≠ .passing p) :
    f.Ends h (.step now) ↔ f.phase = .checking ∧ h.flag = true := by
  constructor
  · intro he
    cases he with
    | raised hc up => exact ⟨hc, up⟩
    | unreadable hq => exact absurd hq (hp _)
    | uncommitted hq => exact absurd hq (hp _)
  · rintro ⟨hc, up⟩
    exact .raised hc up

theorem ends_step_passing_iff {p : Pass} (hp : f.phase = .passing p) :
    f.Ends h (.step now) ↔ p.Unreadable f.settings h ∨ p.Uncommitted h := by
  constructor
  · intro he
    cases he with
    | raised hc => rw [hp] at hc; cases hc
    | unreadable hq hu =>
      rw [hp] at hq
      cases hq
      exact .inl hu
    | uncommitted hq hu =>
      rw [hp] at hq
      cases hq
      exact .inr hu
  · rintro (hu | hu)
    · exact .unreadable hp hu
    · exact .uncommitted hp hu

/-- A step of the loop dooms it exactly for these reasons. -/
theorem isDoomed_iff_of_step (hf : f.step now h = some (f', h')) :
    f'.isDoomed = true ↔ f.isDoomed = true ∨ f.Ends h (.step now) := by
  have hstep : Step now f h f' h' := step_cases hf
  obtain ⟨settings, nextPass, idle, phase⟩ := f
  cases hstep with
  | pass hp hs =>
    rw [ends_step_passing_iff hp, isDoomed_passing hp]
    exact Pass.isLost_iff_of_step hs
  | halt hp up =>
    have hends : Ends ⟨settings, nextPass, idle, phase⟩ h (.step now) := .raised hp up
    simp [hends, isDoomed, goto]
  | look hp down =>
    obtain rfl : phase = .checking := hp
    rw [ends_step_iff (by simp)]
    simp [isDoomed, goto, down]
  | delivered hp | empty hp | refused hp | unreadable hp | die hp =>
    obtain rfl := hp
    rw [ends_step_passing_iff rfl]
    simp [isDoomed, goto, Pass.isLost, Pass.Unreadable, Pass.Uncommitted]
  | wake hp =>
    rcases hp with rfl | ⟨deadline, rfl⟩ <;> rw [ends_step_iff (by simp)] <;>
      simp [isDoomed, goto]
  | start hp | rest hp | gather hp | due hp | clear hp | park hp | heed hp | pause hp | hear hp
    | resume hp =>
    obtain rfl := hp
    rw [ends_step_iff (by simp)]
    simp [isDoomed, goto, Pass.isLost]

/-- An answer of the sink dooms the loop exactly if it kills the thread. -/
theorem isDoomed_iff_of_answer {a : Account} {store : Files}
    (hf : (Scenario.Work.loop f).Fits a store) {events : List Event} (hc : f.call? = some events)
    (r : SinkAnswer) :
    (f.answer r h).1.isDoomed = true ↔ f.isDoomed = true ∨ f.Ends h (.answer r) := by
  obtain ⟨settings, nextPass, idle, phase⟩ := f
  cases phase with
  | passing p =>
    have hc : p.call? = some events := hc
    have hlost : p.isLost = false := by
      cases p with
      | delivering | offering => rfl
      | _ => cases hc
    have hends : Ends ⟨settings, nextPass, idle, .passing p⟩ h (.answer r) ↔ r = .died := by
      constructor
      · intro he
        cases he
        rfl
      · rintro rfl
        exact .killed rfl hc
    show (p.answer r h).1.isLost = true ↔ p.isLost = true ∨ _
    rw [Pass.isLost_iff_of_answer (hf p rfl) hc, hlost, hends]
    simp
  | _ => cases hc

/-- The loop leaves the flag alone until it is doomed. -/
theorem flag_of_step (hf : f.step now h = some (f', h')) (hsafe : f.isDoomed = false) :
    h'.flag = h.flag := by
  have hstep : Step now f h f' h' := step_cases hf
  cases hstep with
  | pass hp hs => exact (Pass.step_still hs).flag
  | unreadable hp =>
    rw [isDoomed_passing hp] at hsafe
    cases hsafe
  | _ => rfl

end Forwarder

end Outbox
