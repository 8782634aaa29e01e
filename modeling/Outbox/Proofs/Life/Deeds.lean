import Outbox.Proofs.Life.Drain

namespace Outbox

/-!
# What a call has done, and what it can tell

A producer's call and its task go separate ways once the task has been submitted:

* `Deed` — what one of them does that others can see.
* `Submission.deeds` — what is done in a step, told by what becomes of the hub and of the put.
* `CommitTask.deeds` — what a task has done when it has come so far.
* `Call.Awaits` — what a call can know of its task after some waits that were over too soon.
* `Submission.Receipt` — what the two have done, told by how far they have come.
* `Submission.Receipt.call`, `Submission.Receipt.task`, `Submission.Receipt.drop` — every step adds
  to this what is done in it.
* `CommitTask.toGo` — how many steps a task has still to take at most; only the lock keeps it
  waiting.
-/

/-! ### Deeds -/

/-- Something that a call or its task does and that others can see. -/
inductive Deed where
  /-- It counts itself as running. -/
  | entered
  /-- It counts itself as no longer running. -/
  | left
  | committed (x : Entry)
  /-- The put ends with an error. -/
  | refused (e : Error)
  /-- The put kills the task. -/
  | died
  /-- The forwarder is woken. -/
  | woke
  /-- A wait for the task is over before the task is. -/
  | expired
  deriving DecidableEq

/-- How often a producer's wait was over before its task was. -/
def Journal.interruptions (j : Journal) : Nat :=
  j.countP fun
    | .incident (.commitWaitInterrupted _ _) => true
    | _ => false

/-- What is done to a hub, told by what becomes of it. -/
def Hub.deeds (h h' : Hub) : List Deed :=
  (if h'.commits.running = h.commits.running + 1 then [.entered] else []) ++
    ((if h'.commits.running + 1 = h.commits.running then [.left] else []) ++
      ((if h'.wake = h.wake.push .committed then [.woke] else []) ++
        if h'.journal.interruptions = h.journal.interruptions + 1 then [.expired] else []))

/-- A wake-up that is pushed is there. -/
theorem Wakeups.ne_push (q : Wakeups) (w : Wake) : q ≠ q.push w := by
  intro heq
  have hrings : q.rings = q.rings + 1 := congrArg Wakeups.rings heq
  omega

namespace Hub

variable {h h' : Hub}

/-- What leaves the commits, the wake-ups and the interruptions alone does nothing. -/
theorem deeds_eq_nil (hrun : h'.commits.running = h.commits.running) (hwake : h'.wake = h.wake)
    (hj : h'.journal.interruptions = h.journal.interruptions) : h.deeds h' = [] := by
  simp [deeds, hrun, hwake, hj, Wakeups.ne_push]

/-- Nothing is done where nothing changes. -/
theorem deeds_self (h : Hub) : h.deeds h = [] := deeds_eq_nil rfl rfl rfl

/-- Counting in is entering. -/
theorem deeds_enter (h : Hub) : h.deeds { h with commits := h.commits.enter } = [.entered] := by
  have hne : h.commits.running + 1 + 1 ≠ h.commits.running := by omega
  simp [deeds, Commits.enter, Wakeups.ne_push, hne]

/-- Counting out is leaving. -/
theorem deeds_leave (hrun : 0 < h.commits.running) :
    h.deeds { h with commits := h.commits.leave } = [.left] := by
  have hne : h.commits.running - 1 ≠ h.commits.running + 1 := by omega
  simp [deeds, Commits.leave, Wakeups.ne_push, hne, Nat.sub_add_cancel hrun]

/-- Pushing a wake-up is waking. -/
theorem deeds_wake (h : Hub) : h.deeds { h with wake := h.wake.push .committed } = [.woke] := by
  simp [deeds]

/-- Reporting that a wait was interrupted is letting it expire. -/
theorem deeds_interrupt (h : Hub) (attempt wait : Nat) :
    h.deeds (h.incident (.commitWaitInterrupted attempt wait)) = [.expired] := by
  simp [deeds, incident, report, Journal.interruptions, Wakeups.ne_push]

/-- Counting something is no deed. -/
theorem deeds_measure (h : Hub) (m : Measure) : h.deeds (h.measure m) = [] :=
  deeds_eq_nil rfl rfl (by simp [measure, report, Journal.interruptions])

end Hub

/-! ### Tasks -/

/-- Whether a put has committed its entry. -/
def PutOp.hasLanded : PutOp → Bool
  | tallying | done (.ok ()) => true
  | _ => false

/-- A put lands once. -/
theorem PutOp.hasLanded_of_step {op op' : PutOp} {s s' : Store} {failure : Option EngineFault}
    (h : op.step failure s = some (op', s')) :
    op'.hasLanded = (op.hasLanded || op.lands op') ∧
      (op.lands op' = true → op.hasLanded = false) := by
  cases step_cases h with
  | commit => exact ⟨rfl, fun _ => rfl⟩
  | _ => exact ⟨rfl, nofun⟩

/-- What a task has done when it has ended in some way, until it counts as no longer running. -/
def CommitEnd.deeds (x : Entry) : CommitEnd → List Deed
  | committed => [.committed x, .woke]
  | refused e => [.refused e]
  | died => [.died]

namespace CommitTask

/-- What a task that puts an entry has done when it has come so far. -/
def deeds (x : Entry) : CommitTask → List Deed
  | starting _ _ => []
  | putting op _ => if op.hasLanded then [.committed x] else []
  | waking => [.committed x]
  | leaving e => e.deeds x
  | ringing e | ended e => e.deeds x ++ [.left]

/-- How a put fails in a step of its task. -/
def setback : (before after : CommitTask) → List Deed
  | starting _ _, leaving .died => [.died]
  | putting _ _, leaving (.refused e) => [.refused e]
  | _, _ => []

/-- No task waits for anything but the lock, so no wait of its own can be over. -/
theorem expired_notMem_deeds (x : Entry) (t : CommitTask) : .expired ∉ t.deeds x := by
  cases t with
  | putting op bytes => cases hop : op.hasLanded <;> simp [deeds, hop]
  | leaving e | ringing e | ended e => cases e <;> simp [deeds, CommitEnd.deeds]
  | _ => simp [deeds]

/-- Standing still lands nothing. -/
theorem lands_self (t : CommitTask) : t.lands t = false := by
  cases t with
  | putting op bytes => cases op <;> rfl
  | _ => rfl

/-- Standing still meets with no setback. -/
theorem setback_self (t : CommitTask) : t.setback t = [] := by
  cases t <;> rfl

variable {t t' : CommitTask} {h h' : Hub}

/-- A step of a task adds to what the task has done. -/
theorem Turn.deeds_eq (x : Entry) (ht : t.Turn h t' h')
    (hrun : t.runs = true → 0 < h.commits.running) :
    t'.deeds x = t.deeds x ++
      ((if t.lands t' then [.committed x] else []) ++ (t.setback t' ++ h.deeds h')) := by
  cases ht with
  | die => simp [deeds, lands, setback, CommitEnd.deeds, Hub.deeds_self]
  | @start key value =>
    have hput : (h.faults.put key value).hasLanded = false := by
      unfold Faults.put
      split <;> rfl
    simp [deeds, lands, setback, Hub.deeds_self, hput]
  | @put op op' store bytes ho =>
    obtain ⟨hlanded, honce⟩ := PutOp.hasLanded_of_step ho
    have hnone : h.deeds { h with store } = [] := Hub.deeds_eq_nil rfl rfl rfl
    cases hl : op.lands op' with
    | false => simp [deeds, lands, setback, hnone, hlanded, hl]
    | true => simp [deeds, lands, setback, hnone, hlanded, hl, honce hl]
  | done => simp [deeds, lands, setback, Hub.deeds_measure, PutOp.hasLanded]
  | refuse => simp [deeds, lands, setback, CommitEnd.deeds, Hub.deeds_self, PutOp.hasLanded]
  | wake => simp [deeds, lands, setback, CommitEnd.deeds, Hub.deeds_wake]
  | leave hn =>
    rcases hn with rfl | rfl <;> simp [deeds, lands, setback, Hub.deeds_leave (hrun rfl)]
  | ring =>
    have hnone : h.deeds { h with commits := h.commits.ring } = [] := Hub.deeds_eq_nil rfl rfl rfl
    simp [deeds, lands, setback, hnone]

end CommitTask

/-! ### Calls -/

/-- What a call can know of its task after some waits that were over too soon. -/
inductive Call.Awaits (t : CommitTask) : Call → Nat → Prop
  | waiting {k deadline : Nat} (hk : k < Producer.attempts) : Awaits t (.waiting (k + 1) deadline) k
  | dropped {k : Nat} (hk : k < Producer.attempts) : Awaits t .dropped k
  | learnt {e : CommitEnd} {k : Nat} (ht : t = .ended e) (hk : k < Producer.attempts) :
      Awaits t (.returned (Submission.returns e)) k
  | gaveUp : Awaits t (.returned (.error (.deliveryQueue .gaveUp))) Producer.attempts

/-- A call can know no more when its task goes on; one that has learnt the end has a task that has
    ended. -/
theorem Call.Awaits.of_turn {c : Call} {t t' : CommitTask} {k : Nat} {h h' : Hub}
    (hw : c.Awaits t k) (ht : t.Turn h t' h') : c.Awaits t' k := by
  cases hw with
  | waiting hk => exact .waiting hk
  | dropped hk => exact .dropped hk
  | learnt hend =>
    subst hend
    cases ht
  | gaveUp => exact .gaveUp

namespace Submission

/-- What a step of a call or of its task does. -/
def deeds (event : Event) (s : Submission) (h : Hub) (s' : Submission) (h' : Hub) : List Deed :=
  ((landing event s s').map .committed).toList ++
    ((match s.task, s'.task with
      | some t, some t' => t.setback t'
      | _, _ => []) ++ h.deeds h')

/-- Why a call can fail before it submits a task. -/
def Unfit (event : Event) (s : Submission) (err : Error) : Prop :=
  err = .queueUnavailable ∨ entry s.producer.cipher s.nonce event = .error err

/-- Whether a call has counted itself as running. -/
def hasBegun (s : Submission) : Bool :=
  match s.call with
  | .entering _ => false
  | _ => true

/-- Whether a call counts as running no more: its task is over or, without a task, the call is. -/
def isOver (s : Submission) : Bool :=
  match s.task, s.call with
  | some t, _ => !t.runs
  | none, .ringing _ | none, .returned _ => true
  | none, _ => false

/-- What a call and its task have done, but for the waits that were over too soon, and how many of
    these there were. -/
inductive Receipt (event : Event) (s : Submission) : List Deed → Nat → Prop
  | begun (hc : s.call = .entering event) (ht : s.task = none) : Receipt event s [] 0
  | counted (hc : s.call = .checking event ∨ s.call = .sealing event) (ht : s.task = none) :
      Receipt event s [.entered] 0
  | failing {err : Error} (hc : s.call = .leaving err) (ht : s.task = none)
      (cause : s.Unfit event err) : Receipt event s [.entered] 0
  | failed {err : Error} (hc : s.call = .ringing err ∨ s.call = .returned (.error err))
      (ht : s.task = none) (cause : s.Unfit event err) : Receipt event s [.entered, .left] 0
  | submitted {t : CommitTask} {x : Entry} {k : Nat} (ht : s.task = some t)
      (hx : entry s.producer.cipher s.nonce event = .ok (x.key, x.value))
      (hc : s.call.Awaits t k) : Receipt event s (.entered :: t.deeds x) k

variable {event : Event} {now k : Nat} {s s' : Submission} {h h' : Hub} {ds : List Deed}

/-- A call remains the call of its producer. -/
theorem CallTurn.producer_eq (hs : CallTurn now s h s' h') :
    s'.producer = s.producer ∧ s'.nonce = s.nonce := by
  cases hs <;> exact ⟨rfl, rfl⟩

/-- A call that is given up keeps its producer and its nonce. -/
theorem producer_drop (s : Submission) :
    s.drop.producer = s.producer ∧ s.drop.nonce = s.nonce := by
  unfold drop
  split <;> exact ⟨rfl, rfl⟩

/-- A step of the call leaves the task alone, unless it submits it. -/
theorem CallTurn.task_eq (hs : CallTurn now s h s' h')
    (hnone : ∀ e, s.call = .sealing e → s.task = none) : s'.task = s.task ∨ s.task = none := by
  cases hs with
  | submit hc => exact .inr (hnone _ hc)
  | _ => exact .inl rfl

/-- Where the task does not go on, nothing is committed, and only the hub tells what is done. -/
theorem landing_of_task (hsame : s'.task = s.task ∨ s.task = none) :
    landing event s s' = none := by
  unfold landing
  rcases hsame with hsame | hsame
  · rw [hsame]
    cases s.task with
    | none => rfl
    | some t =>
      cases entry s.producer.cipher s.nonce event <;> simp [CommitTask.lands_self]
  · simp [hsame]

/-- Where the task stays as it is, or has just been submitted, only the hub tells what is done. -/
theorem deeds_of_task (hsame : s'.task = s.task ∨ s.task = none) :
    s.deeds event h s' h' = h.deeds h' := by
  unfold deeds
  rw [landing_of_task hsame]
  rcases hsame with hsame | hsame
  · rw [hsame]
    cases s.task <;> simp [CommitTask.setback_self]
  · simp [hsame]

/-- Where the task goes on, this adds to what the task has done. -/
theorem deeds_of_turn {t t' : CommitTask} {x : Entry} (ht : s.task = some t)
    (hx : entry s.producer.cipher s.nonce event = .ok (x.key, x.value))
    (hrun : s.running ≤ h.commits.running) (hturn : t.Turn h t' h') :
    t'.deeds x = t.deeds x ++ s.deeds event h { s with task := some t' } h' := by
  have hruns : t.runs = true → 0 < h.commits.running := by
    intro hruns
    unfold running at hrun
    rw [ht, Option.elim_some, hruns, Bool.toNat_true] at hrun
    omega
  rw [hturn.deeds_eq x hruns]
  unfold deeds
  rw [landing_of_entry ht hx, ht]
  split <;> rfl

/-- An entry is committed in a step exactly if the step lands it. -/
theorem committed_mem_deeds_iff {x : Entry} :
    .committed x ∈ s.deeds event h s' h' ↔ landing event s s' = some x := by
  have hub : .committed x ∉ h.deeds h' := by
    unfold Hub.deeds
    simp only [List.mem_append, not_or]
    refine ⟨?_, ?_, ?_, ?_⟩ <;> split <;> simp
  have htask : ∀ t t' : CommitTask, .committed x ∉ t.setback t' := by
    intro t t'
    unfold CommitTask.setback
    split <;> simp
  unfold deeds
  simp only [List.mem_append, hub, or_false]
  constructor
  · rintro (hl | hl)
    · simpa using hl
    · split at hl
      · exact absurd hl (htask _ _)
      · cases hl
  · intro hl
    exact .inl (by simp [hl])

/-- Giving a call up is no deed. -/
theorem deeds_drop (s : Submission) (h : Hub) : s.deeds event h s.drop h = [] := by
  rw [deeds_of_task (.inl s.task_drop), Hub.deeds_self]

/-- No call gives up before it has submitted its task. -/
theorem Unfit.ne_gaveUp {err : Error} (cause : s.Unfit event err) :
    err ≠ .deliveryQueue .gaveUp := by
  rintro rfl
  rcases cause with heq | hentry
  · cases heq
  · unfold entry Cipher.sealEvent at hentry
    split at hentry
    · cases hentry
    · split at hentry <;> cases hentry

namespace Receipt

/-- A call submits its task once. -/
theorem task_eq_none {e : Event} (hr : s.Receipt event ds k) (hc : s.call = .sealing e) :
    s.task = none := by
  cases hr with
  | submitted ht hx hw =>
    rw [hc] at hw
    cases hw
  | begun _ ht | counted _ ht | failing _ ht | failed _ ht => exact ht

/-- A call that waits learns how its task has ended, waits once more, or gives up. -/
theorem call_of_waiting {t : CommitTask} {x : Entry} {deadline : Nat} (ht : s.task = some t)
    (hx : entry s.producer.cipher s.nonce event = .ok (x.key, x.value))
    (hc : s.call = .waiting (k + 1) deadline) (hk : k < Producer.attempts)
    (hs : s.stepCall now h = some (s', h')) :
    s'.Receipt event (.entered :: t.deeds x ++ (h.deeds h').filter (· ≠ .expired))
      (k + (h.deeds h').count .expired) := by
  have hskip : .entered :: t.deeds x ++ [Deed.expired].filter (· ≠ .expired) =
      .entered :: t.deeds x := List.append_nil _
  simp only [stepCall, hc, ht] at hs
  split at hs
  · next e he =>
    cases hs
    rw [Hub.deeds_self, List.filter_nil, List.append_nil]
    refine .submitted rfl hx (.learnt ?_ hk)
    cases t with
    | ended e' =>
      cases he
      rfl
    | _ => cases he
  · split at hs
    · cases hs
    · split at hs
      · next hlt =>
        cases hs
        rw [Hub.deeds_interrupt, hskip]
        exact .submitted rfl hx (.waiting hlt)
      · next hge =>
        cases hs
        rw [Hub.deeds_interrupt, hskip, List.count_singleton_self,
          show k + 1 = Producer.attempts by omega]
        exact .submitted rfl hx .gaveUp

/-- A step of the call. -/
theorem call (hr : s.Receipt event ds k) (hrun : s.running ≤ h.commits.running)
    (hs : s.stepCall now h = some (s', h')) :
    s'.Receipt event (ds ++ (s.deeds event h s' h').filter (· ≠ .expired))
      (k + (s.deeds event h s' h').count .expired) := by
  -- a step of the call leaves the task alone, so that only what the call does itself is new
  rw [deeds_of_task ((callTurn_of_step hs).task_eq fun e => hr.task_eq_none)]
  obtain ⟨producer, nonce, call, task⟩ := s
  cases hr with
  | begun hc ht =>
    obtain rfl : call = _ := hc
    cases hs
    rw [Hub.deeds_enter]
    exact .counted (.inl rfl) ht
  | counted hc ht =>
    rcases hc with hc | hc
    · obtain rfl : call = _ := hc
      cases hs
      rw [Hub.deeds_self]
      cases h.flag with
      | true => exact .failing rfl ht (.inl rfl)
      | false => exact .counted (.inr rfl) ht
    · obtain rfl : call = _ := hc
      simp only [stepCall] at hs
      split at hs
      · next fault hentry =>
        cases hs
        rw [Hub.deeds_self]
        exact .failing rfl ht (.inr hentry)
      · next key value hentry =>
        cases hs
        rw [Hub.deeds_self]
        exact .submitted (t := .starting key value) (x := ⟨key, value⟩) (k := 0) rfl hentry
          (.waiting (Nat.succ_pos 1))
  | failing hc ht cause =>
    obtain rfl : call = _ := hc
    obtain rfl : task = _ := ht
    cases hs
    rw [Hub.deeds_leave (Nat.lt_of_lt_of_le Nat.zero_lt_one hrun)]
    refine .failed (?_ : _ ∨ _) rfl cause
    dsimp only
    split
    · exact .inl rfl
    · exact .inr rfl
  | failed hc ht cause =>
    rcases hc with hc | hc
    · obtain rfl : call = _ := hc
      cases hs
      have hring : h.deeds { h with commits := h.commits.ring } = [] :=
        Hub.deeds_eq_nil rfl rfl rfl
      rw [hring]
      exact .failed (.inr rfl) ht cause
    · obtain rfl : call = _ := hc
      cases hs
  | @submitted t x k ht hx hw =>
    generalize hcall : (⟨producer, nonce, call, task⟩ : Submission).call = c at hw
    cases hw with
    | waiting hk => exact call_of_waiting ht hx hcall hk hs
    | dropped | learnt | gaveUp =>
      obtain rfl : call = _ := hcall
      cases hs

/-- A step of the task, in which no wait of the call is over. -/
theorem task (hr : s.Receipt event ds k) (hrun : s.running ≤ h.commits.running)
    (hs : s.stepTask h = some (s', h')) :
    s'.Receipt event (ds ++ (s.deeds event h s' h').filter (· ≠ .expired))
      (k + (s.deeds event h s' h').count .expired) := by
  obtain ⟨t, t', ht, rfl, hturn⟩ := turn_of_stepTask hs
  cases hr with
  | @submitted t₀ x k ht₀ hx hw =>
    obtain rfl : t₀ = t := Option.some.inj (ht₀.symm.trans ht)
    have hadds := deeds_of_turn ht hx hrun hturn
    have hnone : .expired ∉ s.deeds event h { s with task := some t' } h' := by
      intro hmem
      refine t'.expired_notMem_deeds x ?_
      rw [hadds]
      exact List.mem_append_right _ hmem
    have hall : (s.deeds event h { s with task := some t' } h').filter (· ≠ .expired) =
        s.deeds event h { s with task := some t' } h' := by
      rw [List.filter_eq_self]
      rintro d hd
      exact decide_eq_true fun heq => hnone (heq ▸ hd)
    rw [List.count_eq_zero.2 hnone, hall, List.cons_append, ← hadds]
    exact .submitted rfl hx (hw.of_turn hturn)
  | begun _ hnone | counted _ hnone | failing _ hnone | failed _ hnone =>
    rw [hnone] at ht
    cases ht

/-- The receipt stays right when the call is given up. -/
theorem drop (hr : s.Receipt event ds k) : s.drop.Receipt event ds k := by
  obtain ⟨producer, nonce, call, task⟩ := s
  cases call with
  | waiting attempt deadline =>
    cases hr with
    | @submitted t x k ht hx hw =>
      cases (hw : (Call.waiting attempt deadline).Awaits t k) with
      | waiting hk => exact .submitted ht hx (.dropped hk)
    | counted hc => rcases hc with hc | hc <;> cases hc
    | failed hc => rcases hc with hc | hc <;> cases hc
    | begun hc | failing hc => cases hc
  | _ => exact hr

/-- A call enters once and, with its task, leaves once; in between it counts as running. -/
theorem counts (hr : s.Receipt event ds k) :
    ds.count .entered = s.hasBegun.toNat ∧ ds.count .left = s.isOver.toNat ∧
      s.running + s.isOver.toNat = s.hasBegun.toNat := by
  obtain ⟨producer, nonce, call, task⟩ := s
  cases hr with
  | begun hc ht | failing hc ht =>
    obtain rfl : call = _ := hc
    obtain rfl : task = _ := ht
    exact ⟨rfl, rfl, rfl⟩
  | counted hc ht | failed hc ht =>
    obtain rfl : task = _ := ht
    rcases hc with hc | hc <;> obtain rfl : call = _ := hc <;> exact ⟨rfl, rfl, rfl⟩
  | @submitted t x k ht hx hw =>
    obtain rfl : task = _ := ht
    have hcall : call.runs = false ∧ hasBegun ⟨producer, nonce, call, some t⟩ = true := by
      cases (hw : call.Awaits t k) <;> exact ⟨rfl, rfl⟩
    show _ ∧ _ = (!t.runs).toNat ∧ call.runs.toNat + t.runs.toNat + (!t.runs).toNat = _
    rw [hcall.1, hcall.2]
    cases t with
    | putting op bytes => cases hop : op.hasLanded <;> simp [CommitTask.deeds, CommitTask.runs, hop]
    | leaving e | ringing e | ended e =>
      cases e <;> simp [CommitTask.deeds, CommitTask.runs, CommitEnd.deeds]
    | _ => simp [CommitTask.deeds, CommitTask.runs]

/-! ### What a receipt says -/

/-- Where there is a task, its event could be sealed, and what has been done is told by the task. -/
theorem submitted_cases {t : CommitTask} (hr : s.Receipt event ds k) (ht : s.task = some t) :
    ∃ x : Entry, entry s.producer.cipher s.nonce event = .ok (x.key, x.value) ∧
      ds = .entered :: t.deeds x ∧ s.call.Awaits t k := by
  cases hr with
  | @submitted t' x k ht' hx hw =>
    obtain rfl : t' = t := Option.some.inj (ht'.symm.trans ht)
    exact ⟨x, hx, rfl, hw⟩
  | begun _ hnone | counted _ hnone | failing _ hnone | failed _ hnone =>
    rw [hnone] at ht
    cases ht

/-- A call that has returned has failed before it submitted a task, has learnt how the task ended,
    or has given up. -/
theorem returned_cases {r : Except Error Unit} (hr : s.Receipt event ds k)
    (hc : s.call = .returned r) :
    (∃ err, r = .error err ∧ s.task = none ∧ s.Unfit event err ∧ ds = [.entered, .left] ∧ k = 0) ∨
      (∃ ending, r = returns ending ∧ s.task = some (.ended ending) ∧ k < Producer.attempts) ∨
      (r = .error (.deliveryQueue .gaveUp) ∧ (∃ t, s.task = some t) ∧ k = Producer.attempts) := by
  cases hr with
  | begun hc' | failing hc' =>
    rw [hc] at hc'
    cases hc'
  | counted hc' =>
    rw [hc] at hc'
    rcases hc' with hc' | hc' <;> cases hc'
  | failed hc' ht cause =>
    rw [hc] at hc'
    rcases hc' with hc' | hc' <;> cases hc'
    exact .inl ⟨_, rfl, ht, cause, rfl, rfl⟩
  | submitted ht hx hw =>
    rw [hc] at hw
    cases hw with
    | @learnt ending _ hend hk => exact .inr (.inl ⟨ending, rfl, hend ▸ ht, hk⟩)
    | gaveUp => exact .inr (.inr ⟨rfl, ⟨_, ht⟩, rfl⟩)

/-- A call that has not submitted a task and has not returned can go on. -/
theorem isSome_stepCall (hr : s.Receipt event ds k) (ht : s.task = none)
    (hc : ∀ r, s.call ≠ .returned r) (now : Nat) (h : Hub) : (s.stepCall now h).isSome = true := by
  unfold stepCall
  cases hr with
  | begun hc' | failing hc' => rw [hc']; rfl
  | counted hc' =>
    rcases hc' with hc' | hc' <;> rw [hc']
    · rfl
    · dsimp only
      split <;> rfl
  | failed hc' =>
    rcases hc' with hc' | hc'
    · rw [hc']; rfl
    · exact absurd hc' (hc _)
  | submitted ht' => rw [ht] at ht'; cases ht'

/-- A call gives up when so many waits as it has were over too soon, and only then. -/
theorem waits (hr : s.Receipt event ds k) : k ≤ Producer.attempts ∧
    (k = Producer.attempts ↔ s.call = .returned (.error (.deliveryQueue .gaveUp))) := by
  have hiff : s.call = .returned (.error (.deliveryQueue .gaveUp)) → k = Producer.attempts := by
    intro hc
    obtain ⟨err, heq, -, cause, -⟩ | ⟨ending, heq, -⟩ | ⟨-, -, hk⟩ := hr.returned_cases hc
    · exact absurd (Except.error.inj heq).symm cause.ne_gaveUp
    · cases ending <;> cases heq
    · exact hk
  cases hr with
  | submitted ht hx hw =>
    generalize s.call = c at hw hiff
    cases hw with
    | gaveUp => exact ⟨Nat.le_refl _, fun _ => rfl, fun _ => rfl⟩
    | waiting hk | dropped hk | learnt _ hk =>
      exact ⟨Nat.le_of_lt hk, fun heq => absurd heq (Nat.ne_of_lt hk), hiff⟩
  | begun | counted | failing | failed => exact ⟨Nat.zero_le _, nofun, hiff⟩

/-- Who gives a call up, or is given up by it, leaves a task behind. -/
theorem exists_task (hr : s.Receipt event ds k)
    (hc : s.call = .returned (.error (.deliveryQueue .gaveUp)) ∨ s.call = .dropped) :
    ∃ t, s.task = some t := by
  cases hr with
  | submitted ht => exact ⟨_, ht⟩
  | begun hc' | failing hc' => simp [hc'] at hc
  | counted hc' => rcases hc' with hc' | hc' <;> simp [hc'] at hc
  | failed hc' _ cause => rcases hc' with hc' | hc' <;> simp [hc', cause.ne_gaveUp] at hc

end Receipt

end Submission

/-! ### How far a task is from its end -/

/-- How many steps a task has still to take at most while its put is under way. A put that fails to
    commit takes one step more than one that commits, and its task wakes nobody. -/
def PutOp.toGo : PutOp → Nat
  | entering _ _ => 10
  | locking _ _ => 9
  | writing _ _ => 8
  | counting _ => 7
  | committing _ => 6
  | tallying | retracting _ _ => 5
  | failing _ | done (.ok ()) => 4
  | done (.error _) => 3

namespace CommitTask

/-- How many steps a task has still to take at most. -/
def toGo : CommitTask → Nat
  | starting _ _ => 11
  | putting op _ => op.toGo
  | waking => 3
  | leaving _ => 2
  | ringing _ => 1
  | ended _ => 0

/-- Whether a task has still to take the lock. -/
def needsLock : CommitTask → Bool
  | starting _ _ | putting (.entering _ _) _ | putting (.locking _ _) _ => true
  | _ => false

variable {t t' : CommitTask} {h h' : Hub}

/-- Each step of a task brings it nearer to its end. -/
theorem Turn.toGo_lt (ht : t.Turn h t' h') : t'.toGo < t.toGo := by
  cases ht with
  | @start key value =>
    show (h.faults.put key value).toGo < 11
    unfold Faults.put
    split <;> simp [PutOp.toGo, Faults.report]
  | put ho => cases PutOp.step_cases ho <;> simp [toGo, PutOp.toGo]
  | leave hn => rcases hn with rfl | rfl <;> simp [toGo]
  | _ => simp [toGo, PutOp.toGo]

/-- A task that has still to take the lock has not touched the files. -/
theorem Turn.needsLock (ht : t.Turn h t' h') (hlock : t'.needsLock = true) :
    t.needsLock = true ∧ h'.store.files = h.store.files := by
  cases ht with
  | start => exact ⟨rfl, rfl⟩
  | put ho =>
    cases PutOp.step_cases ho with
    | enter => exact ⟨rfl, rfl⟩
    | _ => cases hlock
  | leave hn => rcases hn with rfl | rfl <;> cases hlock
  | _ => cases hlock

/-- Only the lock keeps a task waiting that has not ended. -/
theorem isSome_step (hend : t.end? = none) (hfree : t.needsLock = true → h.store.writer = none) :
    (t.step h).isSome = true := by
  cases t with
  | putting op bytes =>
    cases op with
    | entering key value =>
      cases hc : h.store.closed <;> simp [step, PutOp.step, PutOp.result?, hc]
    | locking key value => simp [step, PutOp.step, PutOp.result?, Store.lock, hfree rfl]
    | writing key value =>
      cases hr : PutOp.refusal? key value h.store.mapSize <;>
        simp [step, PutOp.step, PutOp.result?, hr]
    | committing isNew =>
      cases hl : h.faults.landing <;> simp [step, PutOp.step, PutOp.result?, hl]
    | _ => rfl
  | ended e => cases hend
  | _ => rfl

end CommitTask

namespace Submission

/-- How many steps the task of a call has still to take at most, when it is submitted or before. -/
def toGo (s : Submission) : Nat := s.task.elim 11 CommitTask.toGo

variable {event : Event} {now k : Nat} {s s' : Submission} {h h' : Hub} {ds : List Deed}

/-- A step of the call brings its task no nearer to its end. -/
theorem Receipt.toGo_call (hr : s.Receipt event ds k) (hs : CallTurn now s h s' h') :
    s'.toGo = s.toGo := by
  cases hs with
  | submit hc =>
    unfold toGo
    rw [hr.task_eq_none hc]
    rfl
  | _ => rfl

/-- A step of the task does. -/
theorem toGo_stepTask (hs : s.stepTask h = some (s', h')) : s'.toGo < s.toGo := by
  obtain ⟨t, t', ht, rfl, hturn⟩ := turn_of_stepTask hs
  unfold toGo
  rw [ht]
  exact hturn.toGo_lt

/-- Giving the call up leaves the task as far from its end. -/
theorem toGo_drop (s : Submission) : s.drop.toGo = s.toGo := by
  unfold toGo
  rw [task_drop]

end Submission

end Outbox
