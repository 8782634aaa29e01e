import Outbox.Proofs.Life.Counter
import Outbox.Proofs.Life.Once
import Outbox.Proofs.Life.Signal

namespace Outbox

/-!
# No entry is left with a loop that rests

A task wakes the loop after it has committed; the loop takes all wake-ups at once, and then looks at
the counter or at the entries:

* `Forwarder.Phase.isResting` — the loop rests, or is going to, because it has found nothing.
* `Forwarder.Step.resting` — it comes to this only when there is nothing to find.
* `Submission.owesWake`, `Submission.hasWoken` — a task has committed, and is yet to wake the loop
  or has done so.
* `Life.WakePending` — every loop that rests, or is going to, has a wake-up to take.
* `Life.WakePending.moved` — while an entry stays in the store, no loop comes to rest without one.
* `Life.StillStored` — an entry that a task has committed and that has been in the store since.
* `Life.nothing_left_behind` — while a loop rests without a wake-up, whatever is in the store has
  been committed by tasks that are yet to wake it. This holds where no recount comes between a put's
  failed commit and its subtraction.
* `Life.left_behind_of_failed_commit` — where one does, an entry is left with a loop that rests.
-/

/-! ### Loops that have found nothing -/

/-- Whether a walk has come to its end without an entry. -/
def WalkOp.sawNothing : WalkOp → Bool
  | walking [] visited _ | committing visited _ | releasing visited _ | tallying visited _ =>
    visited = 0
  | done (.ok summary) => summary.visited = 0
  | _ => false

namespace WalkOp

variable {op op' : WalkOp} {s s' : Store}

/-- A walk that is about to begin has not come to its end. -/
theorem sawNothing_walk (faults : Faults) : faults.walk.sawNothing = false := by
  unfold Faults.walk
  split <;> rfl

/-- A walk that has just begun has seen nothing only if there is nothing. -/
theorem sawNothing_of_step {failure : Option EngineFault} (h : op.step failure s = some (op', s'))
    (hn : op'.sawNothing = true) : op.sawNothing = true ∨ s.table.toList = [] := by
  cases step_cases h with
  | lock free =>
    -- the walk stands before the first entry, if there is one
    cases hlist : s.table.toList with
    | nil => exact .inr rfl
    | cons x xs =>
      rw [hlist] at hn
      cases hn
  | refuse => cases hn
  | enter => cases hn
  | fail => cases hn
  | _ => exact .inl hn

/-- An answer to a visit brings a walk to its end without an entry only if it was there. -/
theorem sawNothing_of_answer {v : Verdict} (hn : (op.answer v s).1.sawNothing = true) :
    op.sawNothing = true := by
  cases he : op.offered? with
  | none => rwa [answer_of_not_offered he] at hn
  | some x =>
    -- an answer is about an entry, which has been seen then
    obtain ⟨rest, visited, deleted, rfl⟩ := offered?_eq_some_iff.1 he
    have hone : visited + 1 = 0 := by
      cases v with
      | delete | keep =>
        cases rest with
        | nil => exact of_decide_eq_true hn
        | cons y rest => cases hn
      | stop => exact of_decide_eq_true hn
      | abort => exact of_decide_eq_true hn
    omega

end WalkOp

namespace Pass

/-- Whether a pass has found nothing, as far as it has come. -/
def foundNothing : Pass → Bool
  | walking op _ _ _ | offering op _ _ _ => op.sawNothing
  | emptied | recounting _ => true
  | ended r => r = .ok .empty
  | _ => false

variable {s : Forwarder.Settings} {h : Hub} {p : Pass}

/-- A scan of some entries finds nothing only if there is nothing. -/
theorem foundNothing_of_scan {xs : List Entry} (batch : 1 < s.batchSize)
    (hs : h.faults.scan h.store s.batchSize = .ok xs)
    (hn : (scanned s.cipher h.style xs).1.foundNothing = true) : h.store.table.toList = [] := by
  have hxs := Faults.eq_take_of_scan hs
  have hempty : xs = [] := by
    by_contra hne
    unfold scanned at hn
    rw [if_neg (by simpa using hne)] at hn
    dsimp only at hn
    split at hn <;> cases hn
  -- a scan that is allowed an entry and gives none has found the store empty
  rw [hempty, eq_comm, List.take_eq_nil_iff] at hxs
  rcases hxs with hzero | hnil
  · omega
  · exact hnil

/-- A pass that finds nothing has seen nothing on its walk. -/
theorem foundNothing_of_walked {delivered dropped : Nat} {refused : Bool}
    {r : Except StoreFault WalkSummary}
    (hn : (walked delivered dropped refused h r).1.foundNothing = true) :
    (WalkOp.done r).sawNothing = true := by
  cases r with
  | error fault => cases hn
  | ok summary =>
    cases refused with
    | true => cases hn
    | false =>
      simp only [walked, Bool.false_eq_true, if_false] at hn
      split at hn
      · next hzero => exact decide_eq_true hzero
      · cases hn

/-- A pass that looks at an entry does not find nothing. -/
theorem foundNothing_of_look {op : WalkOp} {x : Entry} {c : Cipher} {delivered dropped : Nat}
    (hn : (look c x op delivered dropped h).1.foundNothing = true) : op.sawNothing = true := by
  unfold look at hn
  split at hn
  · exact WalkOp.sawNothing_of_answer (v := .stop) (s := h.store) hn
  · split at hn
    · exact hn
    · exact WalkOp.sawNothing_of_answer (v := .delete) (s := h.store) hn

/-- A pass finds nothing only if there is nothing when it looks. -/
theorem foundNothing_of_step {y : Pass × Hub} (hp : p.step s h = some y)
    (hn : y.1.foundNothing = true) :
    p.foundNothing = true ∨ h.store.table.toList = [] := by
  cases turn_of_step hp with
  | scan batch hs => exact .inr (foundNothing_of_scan batch hs hn)
  | walk =>
    have hn : h.faults.walk.sawNothing = true := hn
    rw [WalkOp.sawNothing_walk] at hn
    cases hn
  | @removed r => cases r <;> cases hn
  | look hx => exact .inl (foundNothing_of_look hn)
  | walkOn hx ho => exact WalkOp.sawNothing_of_step ho hn
  | walked => exact .inl (foundNothing_of_walked hn)
  | recount | recountOn | recounted => exact .inl rfl
  | _ => cases hn

/-- No answer of the sink makes a pass find nothing. -/
theorem foundNothing_of_answer {r : SinkAnswer} (hn : (p.answer r h).1.foundNothing = true) :
    p.foundNothing = true := by
  cases p with
  | delivering calls delivered dropped keys =>
    cases r with
    | accepted =>
      cases ht : calls.tail <;> simp only [answer, ht] at hn <;> cases hn
    | refused e => cases hn
    | died => cases hn
  | offering op event delivered dropped =>
    cases r with
    | accepted => exact WalkOp.sawNothing_of_answer (v := .delete) (s := h.store) hn
    | refused e => exact WalkOp.sawNothing_of_answer (v := .abort) (s := h.store) hn
    | died => cases hn
  | _ => exact hn

end Pass

namespace Forwarder

/-- Whether the loop rests, or goes on to rest, because it has found nothing. -/
def Phase.isResting : Phase → Bool
  | idling _ | emptied => true
  | passing p => p.foundNothing
  | _ => false

variable {now : Nat} {f f' : Forwarder} {h h' : Hub}

/-- A loop that rests has not ended. -/
theorem hasEnded_of_isResting (hb : f.phase.isResting = true) : f.hasEnded = false := by
  obtain ⟨settings, nextPass, idle, phase⟩ := f
  cases phase with
  | stopped => cases hb
  | died => cases hb
  | _ => rfl

/-- The loop comes to rest only when the counter or the store shows nothing, and then takes no
    wake-up away. -/
theorem Step.resting (hs : Step now f h f' h') (hb : f'.phase.isResting = true) :
    h'.wake = h.wake ∧
      (f.phase.isResting = true ∨ h.count = 0 ∨ h.store.table.toList = []) := by
  cases hs with
  | rest hp zero => exact ⟨rfl, .inr (.inl zero)⟩
  | pass hp hstep =>
    refine ⟨(Pass.step_still hstep).wake, ?_⟩
    rw [hp]
    exact (Pass.foundNothing_of_step hstep hb).imp_right .inr
  | empty hp =>
    rw [hp]
    exact ⟨rfl, .inl rfl⟩
  | park hp =>
    rw [hp]
    exact ⟨rfl, .inl rfl⟩
  | _ => cases hb

end Forwarder

/-! ### Tasks that wake the loop -/

namespace CommitTask

/-- Whether a task has committed its entry and is yet to wake the loop. -/
def owesWake : CommitTask → Bool
  | putting .tallying _ | putting (.done (.ok ())) _ | waking => true
  | _ => false

/-- Whether a task has committed its entry and woken the loop. -/
def hasWoken : CommitTask → Bool
  | leaving e | ringing e | ended e => e = .committed
  | _ => false

variable {t t' : CommitTask} {h h' : Hub}

/-- Who is about to wake the loop has not done so. -/
theorem hasWoken_of_owesWake (ht : t.owesWake = true) : t.hasWoken = false := by
  cases t with
  | leaving e => cases ht
  | ringing e => cases ht
  | ended e => cases ht
  | _ => rfl

/-- A task that commits owes a wake-up. -/
theorem owesWake_of_lands (ht : t.lands t' = true) : t'.owesWake = true := by
  cases t with
  | putting op bytes =>
    cases t' with
    | putting op' bytes' =>
      have hlands : op.lands op' = true := ht
      cases op <;> cases op' <;> first | rfl | cases hlands
    | _ => cases ht
  | _ => cases ht

/-- A task owes a wake-up until it has woken the loop. -/
theorem Turn.owes (hs : t.Turn h t' h') (ht : t.owesWake = true ∨ t.hasWoken = true) :
    t'.owesWake = true ∨ t'.hasWoken = true := by
  cases hs with
  | put ho =>
    rcases ht with ht | ht
    · -- a put that has committed is about to be done
      left
      unfold owesWake at ht
      split at ht
      · next heq => cases heq; cases ho; rfl
      · next heq => cases heq; cases ho
      · next heq => cases heq
      · cases ht
    · cases ht
  | done => exact .inl rfl
  | wake => exact .inr rfl
  | leave hn =>
    rcases ht with ht | ht
    · cases ht
    · rcases hn with rfl | rfl
      · exact .inr ht
      · exact .inr ht
  | ring => exact ht.imp nofun id
  | _ => rcases ht with ht | ht <;> cases ht

/-- A task has woken the loop before, or leaves a wake-up. -/
theorem Turn.hasWoken (hs : t.Turn h t' h') (ht : t'.hasWoken = true) :
    t.hasWoken = true ∨ h'.wake.isEmpty = false := by
  cases hs with
  | wake => exact .inr (Wakeups.isEmpty_push _ _)
  | leave hn => rcases hn with rfl | rfl <;> exact .inl ht
  | ring => exact .inl ht
  | _ => cases ht

end CommitTask

/-- Whether the task of a call has committed its entry and is yet to wake the loop. -/
def Submission.owesWake (s : Submission) : Bool := s.task.elim false CommitTask.owesWake

/-- Whether the task of a call has committed its entry and woken the loop. -/
def Submission.hasWoken (s : Submission) : Bool := s.task.elim false CommitTask.hasWoken

/-- Whose entry has just been committed is about to wake the loop. -/
theorem Submission.owesWake_of_landing {e : Event} {s s' : Submission} {x : Entry}
    (h : landing e s s' = some x) : s'.owesWake = true := by
  unfold landing at h
  split at h
  · next ht ht' hentry =>
    split at h
    · next hlands =>
      unfold owesWake
      rw [ht']
      exact CommitTask.owesWake_of_lands hlands
    · cases h
  · cases h

namespace Job

/-- Whether an actor is a loop that rests, or goes on to rest. -/
def isResting : Job → Bool
  | forwarding (.loop f) _ => f.phase.isResting
  | _ => false

/-- Whether an actor has committed an entry and is yet to wake the loop. -/
def owesWake : Job → Bool
  | sending _ sub => sub.owesWake
  | _ => false

/-- Whether an actor has committed an entry and woken the loop. -/
def hasWoken : Job → Bool
  | sending _ sub => sub.hasWoken
  | _ => false

variable {ended died : Bool} {past : Nat} {s s' : Session} {how : Act} {j j' : Job}
  {news : List Occurrence}

/-- Who is about to wake the loop has not done so. -/
theorem hasWoken_of_owesWake (hj : j.owesWake = true) : j.hasWoken = false := by
  cases j with
  | sending e sub =>
    obtain ⟨producer, nonce, call, task⟩ := sub
    cases task with
    | none => cases hj
    | some t => exact CommitTask.hasWoken_of_owesWake hj
  | _ => cases hj

/-- Whoever commits owes a wake-up. -/
theorem Stride.owesWake_of_committed (h : Stride ended died past s how j j' s' news) {e : Event}
    {x : Entry} (hx : .committed e x ∈ news) : j'.owesWake = true := by
  cases h with
  | loop | pass =>
    obtain ⟨y, -, -, hy⟩ := exists_of_mem_removals hx
    cases hy
  | answer => cases (of_mem_acceptance hx).2
  | call => cases (of_mem_confirmation hx).2
  | @task e' sub sub' h hs =>
    cases hl : Submission.landing e' sub sub' with
    | none =>
      rw [hl] at hx
      cases hx
    | some y => exact Submission.owesWake_of_landing hl
  | drop => cases hx
  | stop => cases hx

/-- Only a task commits, and nothing else occurs then. -/
theorem Step.eq_of_committed (h : Step ended past s how j j' s' news) {e : Event} {x : Entry}
    (hx : .committed e x ∈ news) : how = .task ∧ news = [.committed e x] := by
  cases h with
  | forward =>
    obtain ⟨y, -, -, hy⟩ := exists_of_mem_removals hx
    cases hy
  | answer => cases (of_mem_acceptance hx).2
  | call => cases (of_mem_confirmation hx).2
  | task =>
    rw [Option.mem_toList.1 hx]
    exact ⟨rfl, rfl⟩
  | drop => cases hx
  | stop => cases hx

/-- An actor owes a wake-up until it has woken the loop. -/
theorem Stride.owes (h : Stride ended died past s how j j' s' news) {f : Files}
    {history : List Occurrence} (hf : j.Fits f history)
    (hj : j.owesWake = true ∨ j.hasWoken = true) : j'.owesWake = true ∨ j'.hasWoken = true := by
  cases h with
  | @call now e sub sub' h hs =>
    cases Submission.callTurn_of_step hs with
    | submit hc =>
      -- no task has been submitted before
      obtain ⟨producer, nonce, call, task⟩ := sub
      obtain rfl : task = none := (Submission.Fits.call hf _ (.inr (.inr hc))).2
      rcases hj with hj | hj <;> cases hj
    | _ => exact hj
  | @task e sub sub' h hs =>
    obtain ⟨t, t', ht, rfl, hturn⟩ := Submission.turn_of_stepTask hs
    obtain ⟨producer, nonce, call, task⟩ := sub
    obtain rfl : task = some t := ht
    exact hturn.owes hj
  | @drop e sub =>
    show Option.elim sub.drop.task false _ = true ∨ Option.elim sub.drop.task false _ = true
    rw [Submission.task_drop]
    exact hj
  | _ => rcases hj with hj | hj <;> cases hj

/-- Whoever has woken the loop had done so before, or leaves a wake-up. -/
theorem Stride.hasWoken (h : Stride ended died past s how j j' s' news)
    (hj : j'.hasWoken = true) : j.hasWoken = true ∨ s'.hub.wake.isEmpty = false := by
  cases h with
  | call hs =>
    cases Submission.callTurn_of_step hs with
    | submit => cases hj
    | _ => exact .inl hj
  | @task e sub sub' h hs =>
    obtain ⟨t, t', ht, rfl, hturn⟩ := Submission.turn_of_stepTask hs
    obtain ⟨producer, nonce, call, task⟩ := sub
    obtain rfl : task = some t := ht
    exact hturn.hasWoken hj
  | @drop e sub =>
    have hj : Option.elim sub.drop.task false CommitTask.hasWoken = true := hj
    rw [Submission.task_drop] at hj
    exact .inl hj
  | _ => cases hj

/-- A loop goes on to rest only when it has been about to, or when there is nothing; and then it
    takes no wake-up away. -/
theorem Stride.resting (h : Stride ended died past s how j j' s' news) (hb : j'.isResting = true) :
    s'.hub.wake = s.hub.wake ∧
      (j.isResting = true ∨ s.hub.count = 0 ∨ s.hub.store.table.toList = []) := by
  cases h with
  | loop hf => exact (Forwarder.step_cases hf).resting hb
  | @answer r w a events hc =>
    cases w with
    | pass c p => cases hb
    | loop f =>
      obtain ⟨settings, nextPass, idle, phase⟩ := f
      cases phase with
      | passing p =>
        exact ⟨(Pass.answer_still r p s.hub).wake, .inl (Pass.foundNothing_of_answer hb)⟩
      | _ => cases hc
  | _ => cases hb

/-- A loop that rests forwards, and so does any loop that has not ended. -/
theorem isForwarding_of_isResting (hb : j.isResting = true) : j.isForwarding = true := by
  cases j with
  | forwarding w a =>
    cases w with
    | loop f =>
      show (!f.hasEnded) = true
      rw [Forwarder.hasEnded_of_isResting hb]
      rfl
    | pass c p => cases hb
  | _ => cases hb

/-- Who does not forward is no loop that goes on. -/
theorem isLooping_of_not_isForwarding (hj : j.isForwarding = false) : j.isLooping = false := by
  cases j with
  | forwarding w a =>
    cases w with
    | loop f => exact hj
    | pass c p => rfl
  | _ => rfl

end Job

/-- No loop rests when it begins. -/
theorem Move.Enlists.isResting_eq_false {m : Move} {n : Nat} {j : Job} (h : m.Enlists n j) :
    j.isResting = false := by
  cases h with
  | forwards n s loops => cases loops <;> rfl
  | _ => rfl

/-! ### Loops that have a wake-up to take -/

namespace Life

variable {t : Table} {i j n : Nat} {x : Entry} {l l' : Life} {m : Move} {s s' : Session}
  {a a' : Actor}

/-- While an entry is in the store, the counter and a scan show something. -/
theorem Reached.not_resting (h : Reached apart t l) (hs : l.sessions[n]? = some s)
    (hx : x ∈ l.files.table.toList) :
    ¬ ((s.over l.files).hub.count = 0 ∨ (s.over l.files).hub.store.table.toList = []) := by
  have hle : l.files.table.toList.length ≤ s.hub.store.count := h.size_le_count hs
  have hpos := List.length_pos_of_mem hx
  rintro (hzero | hnil)
  · have hcount : s.hub.store.count + s.hub.faults.overstated = 0 := hzero
    omega
  · have hnil : l.files.table.toList = [] := hnil
    rw [hnil] at hx
    cases hx

/-- While there is something to find, a loop that rests has been resting, and no wake-up that was
    there goes away. -/
theorem Befalls.resting (h : Befalls l i a s m a' s') (hresting : a'.job.isResting = true)
    (hfind : ¬ ((s.over l.files).hub.count = 0 ∨ (s.over l.files).hub.store.table.toList = []))
    (halone : ∀ {k : Nat} {b : Actor}, a.job.isResting = true → k ≠ i → l.actors[k]? = some b →
      b.job.isLooping = false) :
    a.job.isResting = true ∧ (s.hub.wake.isEmpty = false → s'.hub.wake.isEmpty = false) := by
  cases h with
  | acts hstep =>
    obtain ⟨hwake, hbefore⟩ := hstep.resting hresting
    rw [hwake]
    exact ⟨hbefore.resolve_right hfind, id⟩
  | other hk hb same hstep => exact ⟨hresting, hstep.wake_of_other (halone hresting hk hb)⟩
  | _ => exact ⟨hresting, id⟩

/-- An actor owes a wake-up until it has woken the loop. -/
theorem Befalls.owes (h : Befalls l i a s m a' s') (hf : a.job.Fits l.files l.history)
    (ha : a.job.owesWake = true ∨ a.job.hasWoken = true) :
    a'.job.owesWake = true ∨ a'.job.hasWoken = true := by
  cases h with
  | acts hstep => exact hstep.owes hf ha
  | _ => exact ha

/-- Whoever has woken the loop had done so before, or leaves a wake-up. -/
theorem Befalls.hasWoken (h : Befalls l i a s m a' s') (ha : a'.job.hasWoken = true) :
    a.job.hasWoken = true ∨ s'.hub.wake.isEmpty = false := by
  cases h with
  | acts hstep => exact hstep.hasWoken ha
  | _ => exact .inl ha

/-- Every loop that rests, or goes on to rest, has a wake-up to take. -/
def WakePending (l : Life) : Prop :=
  ∀ {i : Nat} {a : Actor} {s : Session}, l.actors[i]? = some a → a.job.isResting = true →
    l.sessions[a.session]? = some s → s.hub.wake.isEmpty = false

/-- While there is an entry in the store, no loop comes to rest without a wake-up to take. -/
theorem WakePending.moved (hl : l.WakePending) (h : Reached apart t l) (hm : Moved l m l')
    (hx : x ∈ l.files.table.toList) : l'.WakePending := by
  intro i a' s' ha' hresting hs'
  obtain ⟨-, ⟨a, s, r, ha, hs, hr, hbefalls⟩ | ⟨-, hnew, -⟩⟩ :=
    hm.befallen_or_new ha' h.session_of_actor
  · rw [hbefalls.session] at hs'
    obtain rfl := Option.some.inj (hs'.symm.trans hr)
    -- nobody else takes the wake-ups of a loop away, for nobody else forwards
    have hother : ∀ {k : Nat} {b : Actor}, a.job.isResting = true → k ≠ i →
        l.actors[k]? = some b → b.job.isLooping = false := fun hresting hk hb =>
      Job.isLooping_of_not_isForwarding
        (h.toSolo.isForwarding_eq_false hk.symm ha hb (Job.isForwarding_of_isResting hresting))
    obtain ⟨hresting, hkept⟩ := hbefalls.resting hresting (h.not_resting hs hx) hother
    exact hkept (hl ha hresting hs)
  · rw [hnew.isResting_eq_false] at hresting
    cases hresting

/-! ### Entries that stay -/

/-- An entry that the task of an actor has committed, and that has been in the store since. -/
inductive StillStored (t : Table) (j : Nat) (x : Entry) : Life → Prop
  | put {l l' : Life} {e : Event} (h : Reached apart t l) (ok : apart l (.acts j .task))
      (hm : l.move (.acts j .task) = some l') (hx : l'.history = l.history ++ [.committed e x]) :
      StillStored t j x l'
  | stay {l l' : Life} {m : Move} (before : StillStored t j x l) (ok : lasting apart l m)
      (hm : l.move m = some l') (hx : x ∈ l'.files.table.toList) : StillStored t j x l'

namespace StillStored

/-- Such an entry is found in lives that can be reached. -/
theorem reached (h : StillStored t j x l) : Reached apart t l := by
  induction h with
  | put h ok hm hx => exact h.move ok hm
  | stay before ok hm hx ih => exact ih.move ok.1 hm

/-- Such an entry is in the store. -/
theorem mem (h : StillStored t j x l) : x ∈ l.files.table.toList := by
  cases h with
  | @put l l' e h ok hm hx =>
    obtain ⟨ha, hs, hstep⟩ := act_cases hm
    have hnews := List.append_cancel_left hx
    refine hstep.mem_of_committed (h.sound.fits_session ha hs) (?_ : Occurrence.committed e x ∈ _)
    rw [hnews]
    exact List.mem_singleton.2 rfl
  | stay before ok hm hx => exact hx

/-- The task that has committed the entry is yet to wake the loop, or has done so; and then every
    loop that rests has a wake-up to take. -/
theorem owes_or_pending (h : StillStored t j x l) :
    ∃ a, l.actors[j]? = some a ∧
      (a.job.owesWake = true ∨ a.job.hasWoken = true ∧ l.WakePending) := by
  induction h with
  | @put l l' e h ok hm hx =>
    cases moved_of_move hm with
    | enlists hj => cases hj
    | acts ha hs hstep =>
      have hj := (List.getElem?_eq_some_iff.1 ha).1
      have hnews := List.append_cancel_left hx
      refine ⟨_, List.getElem?_set_self hj, .inl ?_⟩
      exact hstep.owesWake_of_committed (hnews ▸ List.mem_singleton_self _)
  | @stay l l' m before ok hm hx ih =>
    obtain ⟨a, ha, howes⟩ := ih
    have hreached := before.reached
    have hmoved := moved_of_move hm
    obtain ⟨s, hs⟩ := hreached.session_of_actor ha
    obtain ⟨a', s', ha', hs', hbefalls⟩ := hmoved.befalls ok.2 ha hs
    have hafter := hreached.move ok.1 hm
    refine ⟨a', ha', (hbefalls.owes (hreached.sound.fits ha) (howes.imp_right And.left)).imp_right
      fun hwoken => ⟨hwoken, ?_⟩⟩
    rcases hbefalls.hasWoken hwoken with hbefore | hleft
    · -- a wake-up has been pending, and there is still something to find
      rcases howes with howes | ⟨-, hpending⟩
      · rw [Job.hasWoken_of_owesWake howes] at hbefore
        cases hbefore
      · exact hpending.moved hreached hmoved before.mem
    · -- the wake-up has been left in the one session
      intro i b r hb hresting hr
      rw [hafter.toSolo.session_eq_zero hr, ← hafter.toSolo.session_eq_zero hs'] at hr
      obtain rfl := Option.some.inj (hs'.symm.trans hr)
      exact hleft

end StillStored

/-- What comes into the store is committed by a task. -/
theorem StillStored.of_new (h : Reached apart t l) (ok : apart l m) (hm : l.move m = some l')
    (hx : x ∉ l.files.table.toList) (hx' : x ∈ l'.files.table.toList) :
    ∃ j, StillStored t j x l' := by
  cases m with
  | acts j how =>
    have hact := hm
    obtain @⟨a, s, s', job, news, ha, hs, hstep⟩ := act_cases hact
    rcases hstep.put (h.sound.fits_session ha hs) x hx' with hold | ⟨e, he⟩
    · rw [table_of_session hs] at hold
      exact absurd hold hx
    · obtain ⟨rfl, rfl⟩ := hstep.eq_of_committed he
      exact ⟨j, .put h ok hm rfl⟩
  | _ => cases moved_of_move hm <;> exact absurd hx' hx

/-- An entry in the store has been committed and has been there since, or every loop that rests has
    a wake-up to take. -/
theorem Reached.stillStored_or_pending (h : Reached apart t l) (hx : x ∈ l.files.table.toList) :
    (∃ j, StillStored t j x l) ∨ l.WakePending := by
  induction h with
  | new => exact .inr fun ha => by cases ha
  | @move l l' m before ok hm ih =>
    have hmoved := moved_of_move hm
    by_cases hbefore : x ∈ l.files.table.toList
    · rcases ih hbefore with ⟨j, hj⟩ | hpending
      · cases hc : m.isCrash with
        | false => exact .inl ⟨j, hj.stay ⟨ok, hc⟩ hm hx⟩
        | true =>
          -- nobody is left who could rest
          cases m <;> cases hc
          cases hm
          exact .inr fun ha => by cases ha
      · exact .inr (hpending.moved before hmoved hbefore)
    · exact .inl (StillStored.of_new before ok hm hbefore hx)

/-- While a loop rests without a wake-up to take, every entry in the store has been committed by a
    task and has been there since, and all tasks of this kind are yet to wake the loop. So it is in
    every run, whatever fails, in which no recount overwrites the counter between a put's failed
    commit and its subtraction; by `Reached.apart_of_landsPuts`, in every run in which no put's
    commit fails. -/
theorem nothing_left_behind {f : Forwarder} {c : Account} {deadline : Nat} (h : Reached apart t l)
    (hi : l.actors[i]? = some ⟨n, .forwarding (.loop f) c⟩) (hrests : f.phase = .idling deadline)
    (hs : l.sessions[n]? = some s) (hempty : s.hub.wake.isEmpty = true) :
    (∀ x ∈ l.files.table.toList, ∃ j, StillStored t j x l) ∧
      ∀ j x, StillStored t j x l →
        ∃ e sub, l.actors[j]? = some ⟨n, .sending e sub⟩ ∧ sub.owesWake = true := by
  have hnot : ¬ l.WakePending := by
    intro hpending
    have hresting : f.phase.isResting = true := by
      rw [hrests]
      rfl
    rw [hpending hi hresting hs] at hempty
    cases hempty
  refine ⟨fun x hx => (h.stillStored_or_pending hx).resolve_right hnot, fun j x hstands => ?_⟩
  obtain ⟨⟨k, job⟩, ha, howes⟩ := hstands.owes_or_pending
  have howes : job.owesWake = true := howes.resolve_right fun hwoken => hnot hwoken.2
  obtain ⟨r, hr⟩ := h.session_of_actor ha
  obtain rfl : k = n := (h.toSolo.session_eq_zero hr).trans (h.toSolo.session_eq_zero hs).symm
  cases job with
  | sending e sub => exact ⟨e, sub, ha, howes⟩
  | _ => cases howes

/-- A loop comes to rest; then an event is sent, and its task has committed. -/
def wakeDue : List Move :=
  .opens ⟨"", 1, ⟨.plaintext, 0⟩, 0, false, some ⟨true⟩⟩ .whole .none 64 ::
    .forwards 0 (.of .plaintext 1 30) true :: (List.replicate 3 (.acts 0 (.step 0)) ++
      (submitting 1 letter).take 10)

/-- An event is committed while the loop rests, and its task is about to wake the loop. -/
theorem nothing_left_behind_of_commit :
    let l := after apart .empty wakeDue
    ∃ s x, (Reached apart .empty l ∧
      l.actors[0]? = some ⟨0, .forwarding (.loop parked) (.opened 0)⟩ ∧
      parked.phase = .idling 30 ∧ l.sessions[0]? = some s ∧ s.hub.wake.isEmpty = true) ∧
      l.files.table.toList = [x] ∧ ∃ j, StillStored .empty j x l ∧
        ∃ e sub, l.actors[j]? = some ⟨0, .sending e sub⟩ ∧ sub.owesWake = true := by
  intro l
  have hl : Reached apart .empty l := Reached.after (by decide +kernel)
  have hi : l.actors[0]? = some ⟨0, .forwarding (.loop parked) (.opened 0)⟩ := rfl
  obtain ⟨s, hs, hempty⟩ : ∃ s, l.sessions[0]? = some s ∧ s.hub.wake.isEmpty = true :=
    ⟨_, rfl, rfl⟩
  obtain ⟨x, hx⟩ : ∃ x, l.files.table.toList = [x] := ⟨_, rfl⟩
  obtain ⟨hstands, howes⟩ := nothing_left_behind hl hi rfl hs hempty
  obtain ⟨j, hj⟩ := hstands x (hx ▸ List.mem_singleton_self x)
  exact ⟨s, x, ⟨hl, hi, rfl, hs, hempty⟩, hx, j, hj, howes j x hj⟩

/-- The loop is about to begin when an event has been counted and cannot be committed. It finds
    nothing and recounts; then the counting is taken back, and another event is sent. -/
def overtaken : List Move :=
  .opens ⟨"", 1, ⟨.plaintext, 0⟩, 0, false, some ⟨true⟩⟩ .whole .none 64 ::
    .forwards 0 (.of .plaintext 1 30) true :: ((submitting 1 letter).take 9 ++
      .spoils 0 { Faults.none with landing := some .mapFull } :: .acts 1 .task :: .spoils 0 .none ::
        (List.replicate 19 (.acts 0 (.step 0)) ++ List.replicate 5 (.acts 1 .task) ++
          submitting 2 postcard ++ List.replicate 3 (.acts 0 (.step 0))))

/-- A recount comes between a commit that has failed and its subtraction, so that the counter falls
    short of the entries: the loop rests without a wake-up to take, and the second event is in the
    store, though its task has woken the loop. -/
theorem left_behind_of_failed_commit :
    let l := after solo .empty overtaken
    ∃ c s sub, Reached solo .empty l ∧
      (l.actors[0]? = some ⟨0, .forwarding (.loop parked) c⟩ ∧ parked.phase = .idling 30 ∧
        l.sessions[0]? = some s ∧ s.hub.wake.isEmpty = true) ∧
      l.actors[2]? = some ⟨0, .sending postcard sub⟩ ∧ sub.hasWoken = true ∧
      .committed postcard postcardEntry ∈ l.history ∧ l.files.table.toList = [postcardEntry] :=
  ⟨_, _, _, Reached.after (by decide +kernel), ⟨rfl, rfl, rfl, rfl⟩, rfl, rfl, by decide +kernel,
    by decide +kernel⟩

end Life

end Outbox
