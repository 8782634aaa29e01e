import Outbox.Proofs.Store.WorkingCopy
import Outbox.Proofs.Turns

namespace Outbox

/-!
# What a producer's call has done

* `CommitTask.Step` — what a step of a commit task can do, case by case.
* `CommitTask.Fits`, `Submission.Fits` — a task puts the entry of the event that is sent, and does
  not say that it is committed unless it is.
* `CommitTask.pends`, `Submission.pends` — whether the entry may still be committed.
* `Submission.landing` — what is committed by a step of the task.
* `Submission.fits_stepTask`, `Submission.fits_stepCall`, `Submission.fits_drop` — steps keep this
  up.
-/

/-! ### Commit tasks -/

namespace CommitTask

/-- What a step of a task can make of the task and of the store. -/
inductive Step (h : Hub) : CommitTask → CommitTask → Store → Prop
  | die {key value : Bytes} : Step h (starting key value) (leaving .died) h.store
  | start {key value : Bytes} {bytes : Nat} :
      Step h (starting key value) (putting (h.faults.put key value) bytes) h.store
  | put {op op' : PutOp} {store : Store} {bytes : Nat}
      (ho : op.step h.faults.landing h.store = some (op', store)) :
      Step h (putting op bytes) (putting op' bytes) store
  | done {bytes : Nat} : Step h (putting (.done (.ok ())) bytes) waking h.store
  | refused {fault : StoreFault} {bytes : Nat} :
      Step h (putting (.done (.error fault)) bytes) (leaving (.refused (.transaction fault)))
        h.store
  | wake : Step h waking (leaving .committed) h.store
  | leave {e : CommitEnd} : Step h (leaving e) (ended e) h.store
  | leaveLast {e : CommitEnd} : Step h (leaving e) (ringing e) h.store
  | ring {e : CommitEnd} : Step h (ringing e) (ended e) h.store

/-- Whether a task holds the lock. -/
def holds : CommitTask → Bool
  | putting op _ => op.holds
  | _ => false

/-- Whether a step of a task commits. -/
def lands : (before after : CommitTask) → Bool
  | putting op _, putting op' _ => op.lands op'
  | _, _ => false

/-- Whether a task may still commit. -/
def pends : CommitTask → Bool
  | starting _ _ => true
  | putting op _ => op.pends
  | _ => false

/-- A task puts an entry, and does not say that it is committed unless it is. -/
def Fits (key value : Bytes) (landed : Prop) (f : Files) : CommitTask → Prop
  | starting k v => k = key ∧ v = value
  | putting op _ => op.Fits key value f ∧ (op = .tallying ∨ op = .done (.ok ()) → landed)
  | waking => landed
  | leaving e | ringing e | ended e => e = .committed → landed

variable {key value : Bytes} {landed landed' : Prop} {f g : Files} {h : Hub} {t t' : CommitTask}
  {store : Store}

/-- A step of a commit task is one of these. -/
theorem step_cases {y : CommitTask × Hub} (ht : t.step h = some y) : Step h t y.1 y.2.store := by
  obtain ⟨t', h'⟩ := y
  cases turn_of_step ht with
  | die => exact .die
  | start => exact .start
  | put ho => exact .put ho
  | done => exact .done
  | refuse => exact .refused
  | wake => exact .wake
  | leave hn =>
    obtain rfl | rfl := hn
    · exact .leaveLast
    · exact .leave
  | ring => exact .ring

/-- Whoever holds the lock has a working copy. -/
theorem Fits.writer_ne_none (hf : t.Fits key value landed f) (hh : t.holds = true) :
    f.writer ≠ none := by
  cases t with
  | putting op bytes => exact PutOp.writer_ne_none hf.1 hh
  | _ => cases hh

/-- A step of somebody else leaves a task as far as it has come. -/
theorem Fits.of_turn {before after : Bool} (hf : t.Fits key value landed f)
    (ht : f.Turn before after g) (hb : t.holds = true → before = false) (hl : landed → landed') :
    t.Fits key value landed' g := by
  cases t with
  | starting k v => exact hf
  | putting op bytes => exact ⟨PutOp.fits_of_turn hf.1 ht hb, fun ho => hl (hf.2 ho)⟩
  | waking => exact hl hf
  | leaving e => exact fun he => hl (hf he)
  | ringing e => exact fun he => hl (hf he)
  | ended e => exact fun he => hl (hf he)

/-- A put that a task begins is about its entry, whatever its faults are. -/
theorem fits_put (faults : Faults) (key value : Bytes) (f : Files) :
    (faults.put key value).Fits key value f ∧ (faults.put key value).holds = false ∧
      faults.put key value ≠ .tallying ∧ faults.put key value ≠ .done (.ok ()) := by
  unfold Faults.put
  split
  · exact ⟨trivial, rfl, nofun, nofun⟩
  · exact ⟨⟨rfl, rfl⟩, rfl, nofun, nofun⟩

namespace Step

/-- A step of a commit task takes and frees the lock in turn. -/
theorem turn (ht : Step h t t' store) : h.store.files.Turn t.holds t'.holds store.files := by
  cases ht with
  | @start key value bytes =>
    show h.store.files.Turn false (h.faults.put key value).holds _
    rw [(fits_put h.faults key value h.store.files).2.1]
    exact .stay rfl
  | put ho => exact PutOp.turn ho
  | _ => exact .stay rfl

/-- What a commit task has made of the files is told by how far it has come, after every step. -/
theorem fits (ht : Step h t t' store) (hf : t.Fits key value landed h.store.files) :
    t'.Fits key value (landed ∨ t.lands t' = true) store.files := by
  cases ht with
  | die => exact nofun
  | @start k v bytes =>
    obtain ⟨rfl, rfl⟩ := hf
    obtain ⟨hfits, -, hne, hne'⟩ := fits_put h.faults k v h.store.files
    exact ⟨hfits, fun ho => (ho.elim hne hne').elim⟩
  | put ho =>
    refine ⟨PutOp.fits_step hf.1 ho, fun hdone => ?_⟩
    rcases PutOp.landed_step ho hdone with hl | hop
    · exact .inr hl
    · exact .inl (hf.2 (.inl hop))
  | done => exact .inl (hf.2 (.inr rfl))
  | refused => exact nofun
  | wake => exact fun _ => .inl hf
  | leave => exact fun he => .inl (hf he)
  | leaveLast => exact fun he => .inl (hf he)
  | ring => exact fun he => .inl (hf he)

/-- Only a commit changes the committed entries. -/
theorem table_eq (ht : Step h t t' store) (hf : t.Fits key value landed h.store.files) :
    if t.lands t' then key ≠ [] ∧ store.table = h.store.table.insert key value
    else store.table = h.store.table := by
  cases ht with
  | put ho => exact PutOp.table_step hf.1 ho
  | _ => rfl

/-- A task that may still commit could do so before, and one that commits does so no more. -/
theorem pends (ht : Step h t t' store) :
    (t'.pends = true → t.pends = true) ∧
      (t.lands t' = true → t.pends = true ∧ t'.pends = false) := by
  cases ht with
  | start => exact ⟨fun _ => rfl, nofun⟩
  | put ho => exact PutOp.pends_step ho
  | _ => exact ⟨nofun, nofun⟩

end Step

end CommitTask

/-! ### Calls -/

namespace Submission

/-- What a step of a call can make of it. -/
inductive CallStep (s : Submission) : Submission → Prop
  | enter {e : Event} (hc : s.call = .entering e) : CallStep s { s with call := .checking e }
  | goOn {e : Event} (hc : s.call = .checking e) : CallStep s { s with call := .sealing e }
  | submit {e : Event} {key value : Bytes} {deadline : Nat} (hc : s.call = .sealing e)
      (hentry : entry s.producer.cipher s.nonce e = .ok (key, value)) :
      CallStep s { s with call := .waiting 1 deadline, task := some (.starting key value) }
  | confirm (ht : s.task = some (.ended .committed)) :
      CallStep s { s with call := .returned (.ok ()) }
  /-- The call waits, or comes to an end without a success. -/
  | other {c : Call} (hb : ∀ e, c ≠ .entering e ∧ c ≠ .checking e ∧ c ≠ .sealing e)
      (hr : c ≠ .returned (.ok ())) : CallStep s { s with call := c }

/-- Whether the task of a call holds the lock. -/
def holds (s : Submission) : Bool :=
  match s.task with
  | some t => t.holds
  | none => false

/-- Whether the entry of a call may still be committed. -/
def pends (s : Submission) : Bool :=
  match s.task, s.call with
  | some t, _ => t.pends
  | none, .entering _ | none, .checking _ | none, .sealing _ => true
  | none, _ => false

/-- The entry that is committed when the task of a call takes a step. -/
def landing (event : Event) (before after : Submission) : Option Entry :=
  match before.task, after.task, entry before.producer.cipher before.nonce event with
  | some t, some t', .ok (key, value) => if t.lands t' then some ⟨key, value⟩ else none
  | _, _, _ => none

/-- A call is about its event, and its task puts the entry of the event; the entries that have been
    committed are those for which `landed` holds. -/
structure Fits (event : Event) (landed : Entry → Prop) (f : Files) (s : Submission) : Prop where
  task : ∀ t, s.task = some t → ∃ key value,
    entry s.producer.cipher s.nonce event = .ok (key, value) ∧
      t.Fits key value (landed ⟨key, value⟩) f
  call : ∀ e, s.call = .entering e ∨ s.call = .checking e ∨ s.call = .sealing e →
    e = event ∧ s.task = none

variable {event : Event} {landed landed' : Entry → Prop} {f g : Files} {h : Hub}
  {s s' : Submission} {now : Nat} {store : Store}

/-- A submission holds the lock when its task does. -/
theorem holds_of_task {t : CommitTask} (ht : s.task = some t) : s.holds = t.holds := by
  unfold holds
  rw [ht]

/-- A submission may still commit when its task may. -/
theorem pends_of_task {t : CommitTask} (ht : s.task = some t) : s.pends = t.pends := by
  unfold pends
  rw [ht]

/-- A call that is about to begin has made nothing of the files. -/
theorem fits_ofEvent (p : Producer) (nonce : Nonce) (event : Event) :
    (ofEvent p nonce event).Fits event landed f where
  task t ht := by cases ht
  call e he := by
    rcases he with he | he | he <;> cases he
    exact ⟨rfl, rfl⟩

/-- Whoever holds the lock has a working copy. -/
theorem Fits.writer_ne_none (hf : s.Fits event landed f) (hh : s.holds = true) :
    f.writer ≠ none := by
  cases ht : s.task with
  | none =>
    unfold holds at hh
    rw [ht] at hh
    cases hh
  | some t =>
    obtain ⟨key, value, -, hf⟩ := hf.task t ht
    rw [holds_of_task ht] at hh
    exact hf.writer_ne_none hh

/-- A step of somebody else leaves a call as far as it has come. -/
theorem Fits.of_turn {before after : Bool} (hf : s.Fits event landed f)
    (ht : f.Turn before after g) (hb : s.holds = true → before = false)
    (hl : ∀ x, landed x → landed' x) : s.Fits event landed' g where
  task t hst := by
    obtain ⟨key, value, hentry, hf⟩ := hf.task t hst
    rw [holds_of_task hst] at hb
    exact ⟨key, value, hentry, hf.of_turn ht hb (hl _)⟩
  call := hf.call

/-- A call that is given up leaves its task alone. -/
theorem task_drop (s : Submission) : s.drop.task = s.task := by
  unfold drop
  split <;> rfl

/-- A call that is given up leaves its task as able to commit as before. -/
theorem pends_drop (s : Submission) : s.drop.pends = s.pends := by
  obtain ⟨producer, nonce, call, task⟩ := s
  cases call <;> cases task <;> rfl

/-- What has been made of the files stays so when the call is given up. -/
theorem fits_drop (hf : s.Fits event landed f) : s.drop.Fits event landed f := by
  unfold drop
  split
  · exact ⟨hf.task, fun e he => by simp at he⟩
  · exact hf

/-- A step of the call leaves the store alone. -/
theorem stepCall_cases {y : Submission × Hub} (hs : s.stepCall now h = some y) :
    CallStep s y.1 ∧ y.2.store = h.store := by
  obtain ⟨s', h'⟩ := y
  have hturn : CallTurn now s h s' h' := callTurn_of_step hs
  refine ⟨?_, hturn.quiet.2.2.1⟩
  cases hturn with
  | enter hc => exact .enter hc
  | pass hc => exact .goOn hc
  | submit hc hentry => exact .submit hc hentry
  | @learn _ _ e hc ht =>
    cases e with
    | committed => exact .confirm ht
    | refused e => exact .other (fun _ => ⟨nofun, nofun, nofun⟩) nofun
    | died => exact .other (fun _ => ⟨nofun, nofun, nofun⟩) nofun
  | leave hc hn =>
    obtain rfl | rfl := hn <;> exact .other (fun _ => ⟨nofun, nofun, nofun⟩) nofun
  | _ => exact .other (fun _ => ⟨nofun, nofun, nofun⟩) nofun

/-- A step of a call keeps up what it has done. -/
theorem CallStep.fits (hs : CallStep s s') (hf : s.Fits event landed f) :
    s'.Fits event landed f := by
  cases hs with
  | @enter e hc =>
    obtain ⟨rfl, ht⟩ := hf.call e (.inl hc)
    refine ⟨hf.task, fun e' he => ?_⟩
    rcases he with he | he | he <;> cases he
    exact ⟨rfl, ht⟩
  | @goOn e hc =>
    obtain ⟨rfl, ht⟩ := hf.call e (.inr (.inl hc))
    refine ⟨hf.task, fun e' he => ?_⟩
    rcases he with he | he | he <;> cases he
    exact ⟨rfl, ht⟩
  | @submit e key value deadline hc hentry =>
    -- the task begins with the entry of the event
    obtain ⟨rfl, -⟩ := hf.call e (.inr (.inr hc))
    refine ⟨fun t ht => ?_, fun e' he => ?_⟩
    · cases ht
      exact ⟨key, value, hentry, rfl, rfl⟩
    · rcases he with he | he | he <;> cases he
  | confirm ht =>
    refine ⟨hf.task, fun e' he => ?_⟩
    rcases he with he | he | he <;> cases he
  | other hb hr =>
    refine ⟨hf.task, fun e' he => ?_⟩
    rcases he with he | he | he
    · exact absurd he (hb e').1
    · exact absurd he (hb e').2.1
    · exact absurd he (hb e').2.2

/-- A call says that the event is committed only when it is. -/
theorem CallStep.landed_of_returned (hs : CallStep s s')
    (hf : s.Fits event landed f) (hr : s'.call = .returned (.ok ())) :
    ∃ key value, entry s.producer.cipher s.nonce event = .ok (key, value) ∧
      landed ⟨key, value⟩ := by
  cases hs with
  | confirm ht =>
    obtain ⟨key, value, hentry, hl⟩ := hf.task _ ht
    exact ⟨key, value, hentry, hl rfl⟩
  | other hb hr' => exact absurd hr hr'
  | _ => cases hr

/-- A call whose entry may still be committed was like this before. -/
theorem CallStep.pends (hs : CallStep s s') (hf : s.Fits event landed f)
    (hp : s'.pends = true) : s.pends = true := by
  have hopen : ∀ {e : Event}, s.call = .entering e ∨ s.call = .checking e ∨ s.call = .sealing e →
      s.pends = true := by
    intro e hc
    unfold Submission.pends
    rw [(hf.call e hc).2]
    rcases hc with hc | hc | hc <;> rw [hc]
  cases hs with
  | enter hc => exact hopen (.inl hc)
  | goOn hc => exact hopen (.inr (.inl hc))
  | submit hc hentry => exact hopen (.inr (.inr hc))
  | confirm ht =>
    rw [pends_of_task (s := { s with call := .returned (.ok ()) }) ht] at hp
    cases hp
  | @other c hb hr =>
    cases ht : s.task with
    | some t =>
      rw [pends_of_task (s := { s with call := c }) ht] at hp
      rw [pends_of_task ht]
      exact hp
    | none =>
      unfold Submission.pends at hp
      rw [ht] at hp
      cases c with
      | entering e => exact absurd rfl (hb e).1
      | checking e => exact absurd rfl (hb e).2.1
      | sealing e => exact absurd rfl (hb e).2.2
      | _ => cases hp

/-! ### Tasks of calls -/

/-- What a step of the task of a call can make of the call and of the store. -/
inductive TaskStep (h : Hub) (s : Submission) : Submission → Store → Prop
  | mk {t t' : CommitTask} {store : Store} (ht : s.task = some t) (hstep : t.Step h t' store) :
      TaskStep h s { s with task := some t' } store

/-- A step of the task of a submission is one of these. -/
theorem stepTask_cases {y : Submission × Hub} (hs : s.stepTask h = some y) :
    TaskStep h s y.1 y.2.store := by
  obtain ⟨s', h'⟩ := y
  obtain ⟨t, t', ht, rfl, hstep⟩ := step_of_stepTask hs
  exact .mk ht (CommitTask.step_cases hstep)

/-- A step lands the entry of the event if the step of the task lands. -/
theorem landing_of_entry {t t' : CommitTask} {key value : Bytes} (ht : s.task = some t)
    (hentry : entry s.producer.cipher s.nonce event = .ok (key, value)) :
    landing event s { s with task := some t' } =
      if t.lands t' then some ⟨key, value⟩ else none := by
  unfold landing
  rw [ht, hentry]

namespace TaskStep

/-- A step of the task takes and frees the lock in turn. -/
theorem turn (hs : TaskStep h s s' store) :
    h.store.files.Turn s.holds s'.holds store.files := by
  obtain ⟨ht, hstep⟩ := hs
  rw [holds_of_task ht, holds_of_task rfl]
  exact hstep.turn

/-- What a submission has made of the files is told by how far it has come, after every step. -/
theorem fits (hs : TaskStep h s s' store) (hf : s.Fits event landed h.store.files) :
    s'.Fits event (fun x => landed x ∨ landing event s s' = some x) store.files := by
  obtain @⟨t, t', store, ht, hstep⟩ := hs
  obtain ⟨key, value, hentry, htask⟩ := hf.task t ht
  refine ⟨fun t'' ht'' => ?_, fun e he => ?_⟩
  · cases ht''
    refine ⟨key, value, hentry, ?_⟩
    have hfits := hstep.fits htask
    rw [landing_of_entry ht hentry]
    refine hfits.of_turn (.stay (b := false) rfl) (fun _ => rfl) fun hl => hl.imp_right fun hl => ?_
    rw [if_pos hl]
  · -- a call that has a task is past its beginning
    have := (hf.call e he).2
    rw [ht] at this
    cases this

/-- Only a commit changes the committed entries. -/
theorem landing_cases (hs : TaskStep h s s' store) (hf : s.Fits event landed h.store.files) :
    (landing event s s' = none ∧ store.table = h.store.table) ∨
      ∃ x, landing event s s' = some x ∧ x.key ≠ [] ∧
        store.table = h.store.table.insert x.key x.value := by
  obtain @⟨t, t', store, ht, hstep⟩ := hs
  obtain ⟨key, value, hentry, htask⟩ := hf.task t ht
  have htable := hstep.table_eq htask
  rw [landing_of_entry ht hentry]
  cases hl : t.lands t' with
  | false =>
    rw [hl] at htable
    exact .inl ⟨rfl, htable⟩
  | true =>
    rw [hl] at htable
    exact .inr ⟨⟨key, value⟩, rfl, htable.1, htable.2⟩

/-- The entry that is committed is that of the event. -/
theorem entry_of_landing {x : Entry} (hl : landing event s s' = some x) :
    entry s.producer.cipher s.nonce event = .ok (x.key, x.value) := by
  unfold landing at hl
  split at hl
  · next hentry =>
    split at hl <;> cases hl
    exact hentry
  · cases hl

/-- A call whose entry may still be committed was like this before. -/
theorem pends (hs : TaskStep h s s' store) (hp : s'.pends = true) : s.pends = true := by
  obtain @⟨t, t', store, ht, hstep⟩ := hs
  rw [pends_of_task ht]
  exact hstep.pends.1 hp

/-- A call whose entry is committed could do so before, and does so no more. -/
theorem pends_of_landing (hs : TaskStep h s s' store) {x : Entry}
    (hl : landing event s s' = some x) : s.pends = true ∧ s'.pends = false := by
  obtain @⟨t, t', store, ht, hstep⟩ := hs
  rw [pends_of_task ht, pends_of_task rfl]
  refine hstep.pends.2 ?_
  unfold landing at hl
  rw [ht] at hl
  cases hentry : entry s.producer.cipher s.nonce event with
  | error e =>
    rw [hentry] at hl
    cases hl
  | ok kv =>
    rw [hentry] at hl
    by_contra hne
    simp only [hne] at hl
    cases hl

end TaskStep

end Submission

end Outbox
