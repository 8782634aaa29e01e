import Outbox.Proofs.Forwarder.Pass
import Outbox.Scenario.World

namespace Outbox.Scenario.Work

/-!
# What a thread that forwards has done

A thread runs passes one after another, or a single one:

* `settings`, `pass?` — how a thread forwards, and the pass that is under way.
* `Step`, `Reply` — a step of the thread is one of its pass, or it leaves the store alone; an answer
  of the sink is one to its pass.
* `account` — the account of the pass after the next step of the thread.
* `Fits`, `Sound` — how far the pass has come, told by its account.
* `Step.fits`, `Reply.fits` — steps and answers keep this up.
-/

/-! ### Steps and answers -/

/-- How a thread forwards. -/
def settings : Work → Forwarder.Settings
  | loop f => f.settings
  | pass s _ => s

/-- The pass that is under way. -/
def pass? : Work → Option Pass
  | loop f =>
    match f.phase with
    | .passing p => some p
    | _ => none
  | pass _ p => some p

/-- What a step of a thread can make of the thread and of the store. -/
inductive Step (h : Hub) (w w' : Work) (store : Store) : Prop
  | goesOn {p p' : Pass} (hs : w'.settings = w.settings) (hp : w.pass? = some p)
      (hp' : w'.pass? = some p') (hstep : Pass.Step w.settings h p p' store)
  /-- A thread outside of a pass may begin one. -/
  | turns (hs : w'.settings = w.settings) (hover : ∀ p, w.pass? = some p → p.isOver = true)
      (fresh : ∀ p, w'.pass? = some p → p = .starting) (same : store = h.store)

/-- What an answer of the sink can make of a thread and of the store. -/
inductive Reply (r : SinkAnswer) (events : List Event) (store : Store) (w w' : Work)
    (store' : Store) : Prop
  | mk {p p' : Pass} (hs : w'.settings = w.settings) (hp : w.pass? = some p)
      (hp' : w'.pass? = some p') (hreply : Pass.Reply store r events p p' store')

variable {w w' : Work} {h h' : Hub} {now : Nat}

/-- A loop that is in a pass has it under way. -/
theorem pass?_of_phase {f : Forwarder} {p : Pass} (hp : f.phase = .passing p) :
    (loop f).pass? = some p := by
  unfold pass?
  dsimp only
  rw [hp]

/-- A thread that has called the sink has done so in its pass, and the answer goes to this pass. -/
theorem exists_pass_of_call {events : List Event} (hc : w.call? = some events) :
    ∃ p, w.pass? = some p ∧ p.call? = some events ∧ ∀ r h,
      (w.answer r h).1.settings = w.settings ∧ (w.answer r h).1.pass? = some (p.answer r h).1 ∧
        (w.answer r h).2 = (p.answer r h).2 := by
  cases w with
  | pass s p => exact ⟨p, rfl, hc, fun r h => ⟨rfl, rfl, rfl⟩⟩
  | loop f =>
    obtain ⟨settings, nextPass, idle, phase⟩ := f
    cases phase with
    | passing p => exact ⟨p, rfl, hc, fun r h => ⟨rfl, rfl, rfl⟩⟩
    | _ => cases hc

/-- A thread that is in no pass afterwards has begun none. -/
theorem Step.of_none {store : Store} (hs : w'.settings = w.settings)
    (hover : ∀ p, w.pass? = some p → p.isOver = true) (hn : w'.pass? = none)
    (same : store = h.store) : Step h w w' store :=
  .turns hs hover (fun p hp => by rw [hn] at hp; cases hp) same

/-- A thread that is in no pass has left none. -/
theorem isOver_of_none (hn : w.pass? = none) (p : Pass) (hp : w.pass? = some p) :
    p.isOver = true := by
  rw [hn] at hp
  cases hp

/-- While a pass is under way, a step of the loop is one of the pass. -/
theorem step_passing {s : Forwarder.Settings} {nextPass : Nat} {idle : Bool} {p : Pass}
    {y : Forwarder × Hub} (hover : ¬ p.isOver = true)
    (hf : Forwarder.step now ⟨s, nextPass, idle, .passing p⟩ h = some y) :
    ∃ x, p.step s h = some x ∧ y = (⟨s, nextPass, idle, .passing x.1⟩, x.2) := by
  have hmap : (p.step s h).map (fun x => (Forwarder.mk s nextPass idle (.passing x.1), x.2)) =
      some y := by
    cases p <;> first | exact hf | exact absurd rfl hover
  obtain ⟨x, hx, rfl⟩ := Option.map_eq_some_iff.1 hmap
  exact ⟨x, hx, rfl⟩

/-- A step of the loop is a step of its pass, or leaves the store alone. -/
theorem loop_step_cases {f : Forwarder} {y : Forwarder × Hub} (hf : f.step now h = some y) :
    Step h (loop f) (loop y.1) y.2.store := by
  obtain ⟨f', h'⟩ := y
  have hstep : Forwarder.Step now f h f' h' := Forwarder.step_cases hf
  obtain ⟨settings, nextPass, idle, phase⟩ := f
  cases hstep with
  | pass hp hs =>
    obtain rfl : phase = _ := hp
    exact .goesOn rfl rfl rfl (Pass.step_cases hs)
  | clear hp =>
    obtain rfl : phase = _ := hp
    exact .turns rfl (isOver_of_none rfl) (fun p hp => by cases hp; rfl) rfl
  | delivered hp | empty hp | refused hp | unreadable hp | die hp =>
    -- the pass that the loop leaves is over
    obtain rfl : phase = _ := hp
    exact .of_none rfl (fun p hp => by cases hp; rfl) rfl rfl
  | wake hp =>
    obtain hp | ⟨deadline, hp⟩ := hp
    · obtain rfl : phase = _ := hp
      exact .of_none rfl (isOver_of_none rfl) rfl rfl
    · obtain rfl : phase = _ := hp
      exact .of_none rfl (isOver_of_none rfl) rfl rfl
  | start hp | halt hp | look hp | rest hp | gather hp | due hp | park hp | heed hp | pause hp
  | hear hp | resume hp =>
    obtain rfl : phase = _ := hp
    exact .of_none rfl (isOver_of_none rfl) rfl rfl

/-- A step of a thread is one of these. -/
theorem step_cases {y : Work × Hub} (hw : w.step now h = some y) : Step h w y.1 y.2.store := by
  cases w with
  | pass s p =>
    obtain ⟨x, hp, rfl⟩ := Option.map_eq_some_iff.1 hw
    exact .goesOn rfl rfl rfl (Pass.step_cases hp)
  | loop f =>
    obtain ⟨x, hf, rfl⟩ := Option.map_eq_some_iff.1 hw
    exact loop_step_cases hf

/-- An answer to a thread that has called the sink is one to its pass. -/
theorem answer_cases {events : List Event} (hc : w.call? = some events) (r : SinkAnswer) (h : Hub) :
    Reply r events h.store w (w.answer r h).1 (w.answer r h).2.store := by
  obtain ⟨p, hp, hcall, hanswer⟩ := exists_pass_of_call hc
  obtain ⟨hs, hp', hhub⟩ := hanswer r h
  rw [hhub]
  exact ⟨hs, hp, hp', Pass.answer_cases hcall r⟩

/-! ### Accounts -/

/-- Whether a thread holds the lock. -/
def holds (w : Work) : Bool :=
  match w.pass? with
  | some p => p.holds
  | none => false

/-- The account of the pass after the next step of the thread. -/
def account (h : Hub) (now : Nat) (a : Account) (w : Work) : Account :=
  match w.pass? with
  | some p => p.account w.settings h now a
  | none => a

/-- How far the pass has come, told by its account. -/
def Fits (a : Account) (f : Files) (w : Work) : Prop :=
  ∀ p, w.pass? = some p → p.Fits w.settings a f

/-- The account of the pass is sound, and the pass has not begun later than now. -/
def Sound (a : Account) (t : Table) (history : List Occurrence) (w : Work) : Prop :=
  a.since ≤ history.length ∧ a.Sound w.settings.cipher t (history.drop a.since)

variable {a : Account} {f g : Files} {store : Store} {history : List Occurrence}

/-- A thread holds the lock when its pass does. -/
theorem holds_of_pass {p : Pass} (hp : w.pass? = some p) : w.holds = p.holds := by
  unfold holds
  rw [hp]

/-- The account of a thread is the one of its pass. -/
theorem account_of_pass {p : Pass} (hp : w.pass? = some p) (h : Hub) (now : Nat) (a : Account) :
    w.account h now a = p.account w.settings h now a := by
  unfold account
  rw [hp]

/-- A thread outside of a pass holds nothing. -/
theorem holds_of_over (hover : ∀ p, w.pass? = some p → p.isOver = true) : w.holds = false := by
  cases hp : w.pass? with
  | none =>
    unfold holds
    rw [hp]
  | some p => rw [holds_of_pass hp, Pass.holds_of_isOver (hover p hp)]

/-- A thread whose pass is about to begin holds nothing. -/
theorem holds_of_fresh (fresh : ∀ p, w.pass? = some p → p = .starting) : w.holds = false := by
  cases hp : w.pass? with
  | none =>
    unfold holds
    rw [hp]
  | some p =>
    rw [holds_of_pass hp, fresh p hp]
    rfl

/-- The account of a thread whose pass is over is closed. -/
theorem account_of_over (hover : ∀ p, w.pass? = some p → p.isOver = true) (h : Hub) (now : Nat)
    (a : Account) : w.account h now a = a := by
  cases hp : w.pass? with
  | none =>
    unfold account
    rw [hp]
  | some p => rw [account_of_pass hp, Pass.account_of_isOver now (hover p hp)]

/-- A thread whose pass is about to begin has done nothing. -/
theorem fits_of_fresh (fresh : ∀ p, w.pass? = some p → p = .starting) : w.Fits a f := by
  intro p hp
  rw [fresh p hp]
  trivial

/-- Whoever holds the lock has a working copy. -/
theorem Fits.writer_ne_none (hf : w.Fits a f) (hh : w.holds = true) : f.writer ≠ none := by
  cases hp : w.pass? with
  | none =>
    unfold holds at hh
    rw [hp] at hh
    cases hh
  | some p =>
    rw [holds_of_pass hp] at hh
    exact (hf p hp).writer_ne_none hh

/-- A step of somebody else leaves a thread as far as it has come. -/
theorem Fits.of_turn {before after : Bool} (hf : w.Fits a f) (ht : f.Turn before after g)
    (hb : w.holds = true → before = false) : w.Fits a g := by
  intro p hp
  rw [holds_of_pass hp] at hb
  exact (hf p hp).of_turn ht hb

/-- What a thread has read it had read before, or it is in the store. -/
theorem Fits.mem_read (hf : w.Fits a h.store.files) {x : Entry}
    (hx : x ∈ (w.account h now a).read) : x ∈ a.read ∨ x ∈ h.store.table.toList := by
  cases hp : w.pass? with
  | none =>
    unfold account at hx
    rw [hp] at hx
    exact .inl hx
  | some p =>
    rw [account_of_pass hp] at hx
    exact (hf p hp).mem_read now hx

/-- An account stays sound while entries are removed, and put with a notice. -/
theorem Sound.mono {t t' : Table} (hs : w.Sound a t history) {news : List Occurrence}
    (ht : ∀ x ∈ t'.toList, x ∈ t.toList ∨ ∃ event, .committed event x ∈ news) :
    w.Sound a t' (history ++ news) := by
  refine ⟨?_, ?_⟩
  · rw [List.length_append]
    exact Nat.le_add_right_of_le hs.1
  · rw [List.drop_append_of_le_length hs.1]
    exact hs.2.mono ht

namespace Step

/-- A thread keeps its settings. -/
theorem settings_eq (hw : Step h w w' store) : w'.settings = w.settings := by
  cases hw with
  | goesOn hs => exact hs
  | turns hs => exact hs

/-- A step of a thread takes and frees the lock in turn. -/
theorem turn (hw : Step h w w' store) : h.store.files.Turn w.holds w'.holds store.files := by
  cases hw with
  | goesOn hs hp hp' hstep =>
    rw [holds_of_pass hp, holds_of_pass hp']
    exact hstep.turn
  | turns hs hover fresh same =>
    rw [holds_of_over hover, holds_of_fresh fresh, same]
    exact .stay rfl

/-- The account is kept with the steps of a thread. -/
theorem fits (hw : Step h w w' store) (hf : w.Fits a h.store.files) (now : Nat) :
    w'.Fits (w.account h now a) store.files := by
  cases hw with
  | goesOn hs hp hp' hstep =>
    intro q hq
    rw [hp'] at hq
    cases hq
    rw [hs, account_of_pass hp]
    exact hstep.fits (hf _ hp) now
  | turns hs hover fresh same => exact fits_of_fresh fresh

/-- A thread puts nothing into the store. -/
theorem mem_of_mem (hw : Step h w w' store) (hf : w.Fits a h.store.files) {x : Entry}
    (hx : x ∈ store.table.toList) : x ∈ h.store.table.toList := by
  cases hw with
  | goesOn hs hp hp' hstep => exact hstep.mem_of_mem (hf _ hp) hx
  | turns hs hover fresh same => rwa [same] at hx

/-- What a thread removes it has read, or it is under the key of what it has read; and nothing waits
    any more then. -/
theorem removes (hw : Step h w w' store) (hf : w.Fits a h.store.files) {x : Entry}
    (hx : x ∈ h.store.table.toList) (hgone : x ∉ store.table.toList) :
    a.waiting = [] ∧ x.key ∈ a.read.map Entry.key ∧ (¬ 1 < w.settings.batchSize → x ∈ a.read) := by
  cases hw with
  | goesOn hs hp hp' hstep => exact hstep.removes (hf _ hp) hx hgone
  | turns hs hover fresh same =>
    rw [same] at hgone
    exact absurd hx hgone

/-- A step keeps the account sound. -/
theorem sound (hw : Step h w w' store) (hf : w.Fits a h.store.files)
    (hs : w.Sound a h.store.table history) :
    w'.Sound (w.account h history.length a) h.store.table history := by
  cases hw with
  | @goesOn p p' hset hp hp' hstep =>
    rw [account_of_pass hp]
    refine ⟨?_, ?_⟩
    · show (p.before history.length a).since ≤ history.length
      cases p <;> first | exact Nat.le_refl _ | exact hs.1
    · rw [hset]
      exact (hf _ hp).sound hs.2
  | turns hset hover fresh same =>
    rw [account_of_over hover]
    refine ⟨hs.1, ?_⟩
    rw [hset]
    exact hs.2

end Step

namespace Reply

variable {r : SinkAnswer} {events : List Event} {store' : Store}

/-- An answer of the sink takes and frees the lock in turn. -/
theorem turn (hw : Reply r events store w w' store') (hf : w.Fits a store.files) :
    store.files.Turn w.holds w'.holds store'.files := by
  obtain ⟨hs, hp, hp', hreply⟩ := hw
  rw [holds_of_pass hp, holds_of_pass hp']
  exact hreply.turn (hf _ hp)

/-- An answer of the sink commits nothing. -/
theorem table_eq (hw : Reply r events store w w' store') : store'.table = store.table := by
  obtain ⟨hs, hp, hp', hreply⟩ := hw
  exact hreply.table_eq

/-- The account is kept with the answers of the sink. -/
theorem fits (hw : Reply r events store w w' store') (hf : w.Fits a store.files) :
    w'.Fits (Pass.answered r events a) store'.files := by
  obtain ⟨hs, hp, hp', hreply⟩ := hw
  intro q hq
  rw [hp'] at hq
  cases hq
  rw [hs]
  exact hreply.fits (hf _ hp)

/-- What the sink answers keeps the account sound, if an acceptance is recorded. -/
theorem sound (hw : Reply r events store w w' store') (hf : w.Fits a f) {t : Table}
    (hs : w.Sound a t history) :
    w'.Sound (Pass.answered r events a) t
      (history ++ if r = .accepted
        then [.accepted w.settings.cipher (a.waiting.take events.length) events] else []) := by
  obtain ⟨hset, hp, hp', hreply⟩ := hw
  cases r with
  | accepted =>
    refine ⟨?_, ?_⟩
    · rw [List.length_append]
      exact Nat.le_add_right_of_le hs.1
    · rw [hset]
      exact hreply.sound (hf _ hp) hs.1 hs.2
  | refused e =>
    rw [if_neg (by simp), List.append_nil]
    refine ⟨hs.1, ?_⟩
    rw [hset]
    exact hs.2
  | died =>
    rw [if_neg (by simp), List.append_nil]
    refine ⟨hs.1, ?_⟩
    rw [hset]
    exact hs.2

end Reply

end Outbox.Scenario.Work
