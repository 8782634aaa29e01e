import Outbox.Proofs.Forwarder.Loop
import Outbox.Proofs.Forwarder.Work

namespace Outbox

/-!
# When the loop begins a pass

The loop is run in any environment: before each of its steps, the count, the wake-ups, the flag and
the store may be anything, and so may the answers of the sink. Only the time does not go back.

* `Forwarder.Mark` — what the loop takes notice of: a count at a time, or a pass that has found
  nothing.
* `Forwarder.Runs` — a run with the marks that it has left, the newest first.
* `Mark.onset?`, `Mark.begun?` — when the entries that now wait were first seen, and when the last
  pass began.
* `Mark.deadline?` — a delay after the later of the two.
* `Forwarder.Punctual` — what the loop remembers is just this.
* `Forwarder.begins_on_time` — so it begins a pass when there is a batch or the deadline has come,
  and at no other time; nothing but the end of the burst or a pass moves the deadline.
-/

namespace Forwarder

/-! ### What the loop takes notice of -/

/-- What the loop takes notice of. -/
inductive Mark where
  /-- It has read a count at a time, and begins a pass or not. -/
  | read (now count : Nat) (begins : Bool)
  /-- A pass has found nothing. -/
  | nothing
  deriving DecidableEq, Repr

namespace Mark

/-- Whether the loop goes on to wait with something to forward. -/
def waits : Mark → Bool
  | read _ count begins => count != 0 && !begins
  | nothing => false

/-- When something to forward was first seen, after there was nothing. -/
def onset? : List Mark → Option Nat
  | [] | nothing :: _ | read _ 0 _ :: _ => none
  | read now (_ + 1) _ :: before => some ((onset? before).getD now)

/-- When the last pass began. -/
def begun? : List Mark → Option Nat
  | [] => none
  | read now _ true :: _ => some now
  | read _ _ false :: before | nothing :: before => begun? before

/-- When a pass is due: a delay after the last one began, or after something was first seen. -/
def deadline? (delay : Nat) (marks : List Mark) : Option Nat :=
  (onset? marks).map fun first => max first ((begun? marks).getD 0) + delay

variable {delay now count : Nat} {before : List Mark}

theorem onset?_read (h : count ≠ 0) (begins : Bool) :
    onset? (read now count begins :: before) = some ((onset? before).getD now) := by
  cases count with
  | zero => exact absurd rfl h
  | succ count => rfl

theorem deadline?_read (h : count ≠ 0) :
    deadline? delay (read now count false :: before) =
      some (max ((onset? before).getD now) ((begun? before).getD 0) + delay) := by
  unfold deadline?
  rw [onset?_read h]
  rfl

/-- While the loop waits, the deadline stays where it is. -/
theorem deadline?_append {newer : List Mark} (h : ∀ m ∈ newer, m.waits = true) {due : Nat}
    (hdue : deadline? delay before = some due) : deadline? delay (newer ++ before) = some due := by
  induction newer with
  | nil => exact hdue
  | cons m newer ih =>
    have ih := ih fun m hm => h m (List.mem_cons_of_mem _ hm)
    have hm := h m List.mem_cons_self
    cases m with
    | nothing => cases hm
    | read now count begins =>
      obtain ⟨hcount, hbegins⟩ : count ≠ 0 ∧ begins = false := by simpa [waits] using hm
      subst hbegins
      obtain ⟨first, hfirst, hlast⟩ := Option.map_eq_some_iff.1 ih
      rw [List.cons_append, deadline?_read hcount, hfirst, ← hlast]
      rfl

end Mark

/-! ### Runs -/

/-- What the loop takes notice of in its next step. -/
def marks (f : Forwarder) (now : Nat) (h : Hub) : List Mark :=
  match f.phase with
  | .counting => [.read now h.count (f.decide h.count now).phase.isClearing]
  | .passing (.ended (.ok .empty)) => [.nothing]
  | _ => []

/-- What can come of a loop from some time on, in any environment, with what it takes notice of and
    the time of its last step. -/
inductive Runs (f₀ : Forwarder) (t₀ : Nat) : List Mark → Forwarder → Nat → Prop
  | refl : Runs f₀ t₀ [] f₀ t₀
  | step {marks : List Mark} {f f' : Forwarder} {t now : Nat} {h h' : Hub}
      (before : Runs f₀ t₀ marks f t) (later : t ≤ now) (hf : f.step now h = some (f', h')) :
      Runs f₀ t₀ (f.marks now h ++ marks) f' now
  | answer {marks : List Mark} {f : Forwarder} {t : Nat} {events : List Event}
      (before : Runs f₀ t₀ marks f t) (hc : f.call? = some events) (r : SinkAnswer) (h : Hub) :
      Runs f₀ t₀ marks (f.answer r h).1 t

theorem Runs.trans {f₀ f₁ f₂ : Forwarder} {t₀ t₁ t₂ : Nat} {older newer : List Mark}
    (h : Runs f₀ t₀ older f₁ t₁) (h' : Runs f₁ t₁ newer f₂ t₂) :
    Runs f₀ t₀ (newer ++ older) f₂ t₂ := by
  induction h' with
  | refl => exact h
  | step before later hf ih =>
    rw [List.append_assoc]
    exact ih.step later hf
  | answer before hc r g ih => exact ih.answer hc r g

/-! ### What the loop remembers -/

/-- The loop remembers whether there was nothing to forward, and else the deadline. So much time has
    gone by. -/
structure Punctual (s : Settings) (marks : List Mark) (t : Nat) (f : Forwarder) : Prop where
  settings : f.settings = s
  idle : f.idle = true ↔ Mark.onset? marks = none
  due : f.idle = false → Mark.deadline? s.delay marks = some f.nextPass
  onset_le : ∀ first, Mark.onset? marks = some first → first ≤ t
  begun_le : ∀ start, Mark.begun? marks = some start → start ≤ t
  /-- The first deadline is overwritten before it is looked at. -/
  starts : f.phase = .starting → f.idle = true
  waits : f.phase = .gathering → f.idle = false

variable {s : Settings} {marks : List Mark} {f f' : Forwarder} {t now : Nat} {h h' : Hub}

/-- The deadline that the loop reads off is the one of its marks. -/
theorem Punctual.deadline?_read {count : Nat} (hf : f.Punctual s marks t) (later : t ≤ now)
    (hcount : count ≠ 0) :
    Mark.deadline? s.delay (.read now count false :: marks) =
      some (if f.idle = true then now + s.delay else f.nextPass) := by
  rw [Mark.deadline?_read hcount]
  cases hidle : f.idle with
  | true =>
    rw [hf.idle.1 hidle]
    have hbegun : (Mark.begun? marks).getD 0 ≤ now := by
      cases hb : Mark.begun? marks with
      | none => exact Nat.zero_le _
      | some start => exact Nat.le_trans (hf.begun_le start hb) later
    rw [Option.getD_none, Nat.max_eq_left hbegun, if_pos rfl]
  | false =>
    obtain ⟨first, hfirst, hlast⟩ := Option.map_eq_some_iff.1 (hf.due hidle)
    rw [hfirst, if_neg Bool.false_ne_true, ← hlast]
    rfl

/-- When the loop has read a count, a pass is due if there is a batch, or if the deadline has
    come. -/
theorem Punctual.isClearing_decide (hf : f.Punctual s marks t) (later : t ≤ now) (count : Nat) :
    (f.decide count now).phase.isClearing = true ↔ count ≠ 0 ∧
      (s.batchSize ≤ count ∨
        ∀ due, Mark.deadline? s.delay (.read now count false :: marks) = some due → due ≤ now) := by
  by_cases hzero : count = 0
  · simp [decide, hzero, Phase.isClearing]
  · rw [hf.deadline?_read later hzero]
    unfold decide
    rw [if_neg hzero, hf.settings]
    generalize (if f.idle = true then now + s.delay else f.nextPass) = next
    dsimp only
    split
    · next hwait =>
      simp only [Phase.isClearing, Bool.false_eq_true, false_iff, Option.some.injEq, forall_eq']
      omega
    · next hdue =>
      simp only [Phase.isClearing, true_iff, Option.some.injEq, forall_eq']
      exact ⟨hzero, by omega⟩

/-- Reading a count, the loop remembers what it has to. -/
theorem Punctual.read (hf : f.Punctual s marks t) (later : t ≤ now) (count : Nat) :
    (f.decide count now).Punctual s
      (.read now count (f.decide count now).phase.isClearing :: marks) now := by
  have hbegun : ∀ start, Mark.begun? marks = some start → start ≤ now := fun start hstart =>
    Nat.le_trans (hf.begun_le start hstart) later
  by_cases hzero : count = 0
  · subst hzero
    exact ⟨hf.settings, ⟨fun _ => rfl, fun _ => rfl⟩, nofun, nofun, hbegun, nofun, nofun⟩
  · have honset : (Mark.onset? marks).getD now ≤ now := by
      cases ho : Mark.onset? marks with
      | none => exact Nat.le_refl _
      | some first => exact Nat.le_trans (hf.onset_le first ho) later
    have hread := hf.deadline?_read later hzero
    unfold decide
    rw [if_neg hzero, hf.settings]
    generalize (if f.idle = true then now + s.delay else f.nextPass) = next at hread ⊢
    dsimp only
    split
    · -- it goes on to wait for the deadline
      refine ⟨rfl, ?_, fun _ => hread, fun first hfirst => ?_, hbegun, nofun, fun _ => rfl⟩
      · simp [Phase.isClearing, Mark.onset?_read hzero]
      · rw [Mark.onset?_read hzero, Option.some.injEq] at hfirst
        exact hfirst ▸ honset
    · -- the pass that begins puts the deadline off
      refine ⟨rfl, ?_, fun _ => ?_, fun first hfirst => ?_, fun start hstart => ?_, nofun,
        nofun⟩
      · simp [Phase.isClearing, Mark.onset?_read hzero]
      · show (Mark.onset? (.read now count true :: marks)).map _ = _
        rw [Mark.onset?_read hzero, Option.map_some]
        show some (max _ now + s.delay) = _
        rw [Nat.max_eq_right honset]
      · rw [Mark.onset?_read hzero, Option.some.injEq] at hfirst
        exact hfirst ▸ honset
      · cases hstart
        exact Nat.le_refl _

/-- Whether nothing more is remembered at a place than anywhere else. -/
def Phase.isPlain : Phase → Bool
  | starting | gathering => false
  | _ => true

/-- A loop that takes notice of nothing remembers what it did. -/
theorem Punctual.goOn (hf : f.Punctual s marks t) (later : t ≤ now) (hs : f'.settings = f.settings)
    (hidle : f'.idle = f.idle) (hnext : f'.idle = false → f'.nextPass = f.nextPass)
    (hplain : f'.phase.isPlain = true) : f'.Punctual s marks now := by
  refine ⟨hs.trans hf.settings, hidle ▸ hf.idle, fun h => ?_,
    fun first hfirst => Nat.le_trans (hf.onset_le first hfirst) later,
    fun start hstart => Nat.le_trans (hf.begun_le start hstart) later, fun h => ?_, fun h => ?_⟩
  · rw [hnext h]
    exact hf.due (hidle ▸ h)
  · rw [h] at hplain
    cases hplain
  · rw [h] at hplain
    cases hplain

/-- A pass that has found nothing makes the queue idle. -/
theorem Punctual.nothing (hf : f.Punctual s marks t) (later : t ≤ now) :
    Punctual s (.nothing :: marks) now { f with idle := true, phase := .emptied } :=
  ⟨hf.settings, ⟨fun _ => rfl, fun _ => rfl⟩, nofun, nofun,
    fun start hstart => Nat.le_trans (hf.begun_le start hstart) later, nofun, nofun⟩

theorem Punctual.step (hf : f.Punctual s marks t) (later : t ≤ now)
    (hstep : f.step now h = some (f', h')) : f'.Punctual s (f.marks now h ++ marks) now := by
  -- only reading a count and ending a pass without an event leave a mark to remember
  have hgo : ∀ {p : Phase}, p.isPlain = true → (f.goto p).Punctual s marks now :=
    fun hplain => hf.goOn later rfl rfl (fun _ => rfl) hplain
  obtain ⟨settings, nextPass, idle, phase⟩ := f
  cases phase with
  | starting =>
    cases hstep
    have hidle : idle = true := hf.starts rfl
    exact hf.goOn later rfl rfl (fun h => by rw [hidle] at h; cases h) rfl
  | counting =>
    cases hstep
    exact hf.read later h.count
  | passing p =>
    by_cases hover : p.isOver = true
    · cases p with
      | ended r =>
        cases r with
        | error e => cases hstep; exact hgo rfl
        | ok o =>
          cases o with
          | empty => cases hstep; exact hf.nothing later
          | delivered n m => cases hstep; exact hgo rfl
          | failed => cases hstep; exact hgo rfl
      | died => cases hstep; exact hgo rfl
      | _ => cases hover
    · obtain ⟨x, -, heq⟩ := Scenario.Work.step_passing hover hstep
      cases heq
      have hnone : Forwarder.marks ⟨settings, nextPass, idle, .passing p⟩ now h = [] := by
        cases p <;> first | rfl | exact absurd rfl hover
      rw [hnone]
      exact hgo rfl
  | checking =>
    cases hstep
    cases h.flag <;> exact hgo rfl
  | pausing deadline =>
    cases hstep
    cases h.flag <;> exact hgo rfl
  | idling deadline =>
    simp only [Forwarder.step] at hstep
    split at hstep <;> cases hstep
    exact hgo rfl
  | gathering =>
    simp only [Forwarder.step] at hstep
    split at hstep <;> cases hstep
    exact hgo rfl
  | paused deadline rings =>
    simp only [Forwarder.step] at hstep
    split at hstep
    · cases hstep; exact hgo rfl
    · split at hstep <;> cases hstep
      exact hgo rfl
  | clearing | emptied => cases hstep; exact hgo rfl
  | stopped | died => cases hstep

theorem Punctual.answer (hf : f.Punctual s marks t) (r : SinkAnswer) (h : Hub) :
    (f.answer r h).1.Punctual s marks t := by
  obtain ⟨settings, nextPass, idle, phase⟩ := f
  cases phase with
  | passing p => exact hf.goOn (Nat.le_refl t) rfl rfl (fun _ => rfl) rfl
  | _ => exact hf

/-- What the loop remembers is what its marks say. -/
theorem Runs.punctual {t₀ : Nat} (h : Runs (create s) t₀ marks f t) : f.Punctual s marks t := by
  induction h with
  | refl => exact ⟨rfl, ⟨fun _ => rfl, fun _ => rfl⟩, nofun, nofun, nofun, fun _ => rfl, nofun⟩
  | step before later hf ih => exact ih.step later hf
  | answer before hc r h ih => exact ih.answer r h

/-! ### When a pass begins -/

theorem marks_cases (f : Forwarder) (now : Nat) (h : Hub) :
    f.marks now h = [] ∨ f.marks now h = [.nothing] ∨
      ∃ count, f.marks now h = [.read now count (f.decide count now).phase.isClearing] := by
  unfold Forwarder.marks
  split
  · exact .inr (.inr ⟨h.count, rfl⟩)
  · exact .inr (.inl rfl)
  · exact .inl rfl

/-- What the loop has made of a count that it has read. -/
theorem Runs.exists_decide {f₀ : Forwarder} {t₀ count : Nat} {begins : Bool}
    {newer older : List Mark} (h : Runs f₀ t₀ marks f t)
    (hm : marks = newer ++ .read now count begins :: older) :
    ∃ f₁ t₁, Runs f₀ t₀ older f₁ t₁ ∧ t₁ ≤ now ∧
      begins = (f₁.decide count now).phase.isClearing := by
  induction h generalizing newer with
  | refl => simp at hm
  | answer before hc r h ih => exact ih hm
  | @step before f f' t now' h h' hbefore later hf ih =>
    rcases f.marks_cases now' h with hnone | hnothing | ⟨count', hread⟩
    · rw [hnone] at hm
      exact ih hm
    · rw [hnothing] at hm
      cases newer with
      | nil => cases hm
      | cons m newer =>
        cases hm
        exact ih rfl
    · rw [hread] at hm
      cases newer with
      | nil =>
        cases hm
        exact ⟨f, t, hbefore, later, rfl⟩
      | cons m newer =>
        cases hm
        exact ih rfl

/-- The deadline is a delay after the last pass began or after something was first seen, and after
    both of them. -/
theorem Mark.deadline?_cases {delay due : Nat} (h : Mark.deadline? delay marks = some due) :
    ∃ first, Mark.onset? marks = some first ∧ first + delay ≤ due ∧
      (∀ start, Mark.begun? marks = some start → start + delay ≤ due) ∧
      (due = first + delay ∨ ∃ start, Mark.begun? marks = some start ∧ due = start + delay) := by
  obtain ⟨first, hfirst, rfl⟩ := Option.map_eq_some_iff.1 h
  refine ⟨first, hfirst, by omega, fun start hstart => ?_, ?_⟩
  · rw [hstart, Option.getD_some]
    omega
  · cases hb : Mark.begun? marks with
    | none => exact .inl (by rw [Option.getD_none]; omega)
    | some start =>
      rw [Option.getD_some]
      by_cases hle : start ≤ first
      · exact .inl (by omega)
      · exact .inr ⟨start, rfl, by omega⟩

/-- Whatever the loop meets with, and whenever, as long as the time does not go back:

    * it begins a pass when it reads that there is a batch, and only when it reads that there is
      something; whatever happens then, its next step is the beginning of the pass;
    * with less than a batch, it begins one no earlier than a delay after the last pass began, and
      no earlier than a delay after something was first seen;
    * while it waits with less than a batch, it does so until a deadline, which is a delay after one
      of these; it is released when the deadline has come, and begins a pass as soon as it reads a
      count then; and however often it is woken before, the deadline stays where it is. -/
theorem begins_on_time {t₀ : Nat} (h : Runs (create s) t₀ marks f t) :
    (∀ newer older now count begins, marks = newer ++ .read now count begins :: older →
      (s.batchSize ≤ count → begins = true) ∧
      (begins = true → count ≠ 0) ∧
      (begins = true → count < s.batchSize →
        (∀ start, Mark.begun? older = some start → start + s.delay ≤ now) ∧
          ∃ first, Mark.onset? (.read now count begins :: older) = some first ∧
            first + s.delay ≤ now) ∧
      (count ≠ 0 → ∀ due, Mark.deadline? s.delay (.read now count false :: older) = some due →
        due ≤ now → begins = true)) ∧
    (f.phase.isClearing = true → ∀ now h,
      ∃ h', f.step now h = some (f.goto (.passing .starting), h')) ∧
    (f.phase = .gathering → ∃ first due, Mark.onset? marks = some first ∧ f.alarm? = some due ∧
      Mark.deadline? s.delay marks = some due ∧
      (due = first + s.delay ∨
        ∃ start, Mark.begun? marks = some start ∧ due = start + s.delay) ∧
      (∀ now h, due ≤ now → (f.step now h).isSome = true) ∧
      ∀ newer f' t', Runs f t newer f' t' → (∀ m ∈ newer, m.waits = true) →
        (∀ now count, count ≠ 0 →
          Mark.deadline? s.delay (.read now count false :: (newer ++ marks)) = some due) ∧
        (f'.phase = .gathering → f'.alarm? = some due)) := by
  refine ⟨?_, ?_, ?_⟩
  · intro newer older now count begins hm
    -- the loop as it was when it read the count: what it remembered then decides
    obtain ⟨f₁, t₁, hbefore, later, hbegins⟩ := h.exists_decide hm
    have hiff := hbefore.punctual.isClearing_decide later count
    rw [← hbegins] at hiff
    have hpos := s.batchSize_pos
    refine ⟨fun hbatch => hiff.2 ⟨by omega, .inl hbatch⟩, fun hb => (hiff.1 hb).1,
      fun hb hless => ?_, fun hcount due hdue hle => hiff.2 ⟨hcount, .inr fun d hd => ?_⟩⟩
    · obtain ⟨hcount, hbatch | hover⟩ := hiff.1 hb
      · omega
      · -- the deadline has come, and it is no earlier than either
        have hdue : Mark.deadline? s.delay (.read now count false :: older) = some _ :=
          Mark.deadline?_read hcount
        obtain ⟨first, hfirst, hle, hstart, -⟩ := Mark.deadline?_cases hdue
        have hnow := hover _ hdue
        refine ⟨fun start hs => Nat.le_trans (hstart start hs) hnow, first, ?_,
          Nat.le_trans hle hnow⟩
        rw [Mark.onset?_read hcount] at hfirst ⊢
        exact hfirst
    · rw [hdue] at hd
      cases hd
      exact hle
  · intro hclearing now h
    obtain ⟨settings, nextPass, idle, phase⟩ := f
    cases phase with
    | clearing => exact ⟨_, rfl⟩
    | _ => cases hclearing
  · intro hwaits
    have hf := h.punctual
    have hdue := hf.due (hf.waits hwaits)
    obtain ⟨first, hfirst, -, -, hcases⟩ := Mark.deadline?_cases hdue
    have halarm : ∀ {g : Forwarder}, g.phase = .gathering → g.alarm? = some g.nextPass := by
      intro g hg
      unfold alarm?
      rw [hg]
    refine ⟨first, f.nextPass, hfirst, halarm hwaits, hdue, hcases, fun now h hle => ?_,
      fun newer f' t' hrun hnewer => ?_⟩
    · have hreleases : h.wake.releases f.nextPass now = true := by
        simp [Wakeups.releases, hle]
      simp [Forwarder.step, hwaits, hreleases]
    · have hlater := Mark.deadline?_append hnewer hdue
      refine ⟨fun now count hcount => ?_, fun hwaits' => ?_⟩
      · have hwait : ∀ m ∈ [Mark.read now count false], m.waits = true := by
          simpa [Mark.waits] using hcount
        exact Mark.deadline?_append hwait hlater
      · have hf' := (h.trans hrun).punctual
        rw [halarm hwaits', ← hf'.due (hf'.waits hwaits'), hlater]

/-! ### A run -/

/-- What comes of a loop that takes steps at some times, each in an environment of its own. -/
def follow (marks : List Mark) (f : Forwarder) (t : Nat) :
    List (Nat × Hub) → Option (List Mark × Forwarder × Nat)
  | [] => some (marks, f, t)
  | (now, h) :: rest =>
    if t ≤ now then
      (f.step now h).bind fun (f', _) => follow (f.marks now h ++ marks) f' now rest
    else none

theorem Runs.follow {f₀ : Forwarder} {t₀ t' : Nat} {marks' : List Mark}
    (h : Runs f₀ t₀ marks f t) (steps : List (Nat × Hub))
    (hf : f.follow marks t steps = some (marks', f', t')) : Runs f₀ t₀ marks' f' t' := by
  induction steps generalizing marks f t with
  | nil => cases hf; exact h
  | cons step steps ih =>
    unfold Forwarder.follow at hf
    split at hf
    · next later =>
      obtain ⟨⟨f₁, h₁⟩, hstep, hf⟩ := Option.bind_eq_some_iff.1 hf
      exact ih (h.step later hstep) hf
    · cases hf

/-- The flag is down, so many entries are counted, and somebody has woken the loop. -/
def astir (count : Nat) : Hub :=
  ⟨{ Store.ofTable .empty 64 with counter := count }, .none, .whole, false,
    Wakeups.empty.push .committed, .idle, []⟩

/-- The loop finds nothing; at 5 there is one entry, and it is woken again at 20. -/
def trickle : List (Nat × Hub) :=
  List.replicate 3 (0, astir 0) ++ List.replicate 3 (5, astir 1) ++ List.replicate 3 (20, astir 1)

/-- One entry in front of a loop that takes two at a time with a delay of 30: it is due at 35, no
    matter that the loop has been woken before, and a pass begins then. -/
theorem begins_on_time_of_trickle :
    let s : Settings := .of .plaintext 2 30
    let marks := [.read 20 1 false, .read 5 1 false, .read 0 0 false]
    ∃ f f', (Runs (create s) 0 marks f 20 ∧ f.phase = .gathering ∧
        Runs (create s) 0 (.read 35 1 true :: marks) f' 35) ∧
      f.alarm? = some 35 ∧ (∀ now h, 35 ≤ now → (f.step now h).isSome = true) ∧
      (∀ start, Mark.begun? marks = some start → start + 30 ≤ 35) ∧
      ∃ first, Mark.onset? (.read 35 1 true :: marks) = some first ∧ first + 30 ≤ 35 := by
  intro s marks
  have h : Runs (create s) 0 marks ⟨s, 35, false, .gathering⟩ 20 :=
    Runs.refl.follow trickle rfl
  have h' : Runs (create s) 0 (.read 35 1 true :: marks) ⟨s, 65, false, .clearing⟩ 35 :=
    h.follow (List.replicate 3 (35, astir 1)) rfl
  obtain ⟨first, due, -, halarm, -, -, hreleased, -⟩ := (begins_on_time h).2.2 rfl
  cases halarm
  obtain ⟨-, -, hlate, -⟩ := (begins_on_time h').1 [] marks 35 1 true rfl
  exact ⟨_, _, ⟨h, rfl, h'⟩, rfl, hreleased, hlate rfl (by decide)⟩

end Forwarder

end Outbox
