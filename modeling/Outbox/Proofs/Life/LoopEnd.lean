import Outbox.Proofs.Life.Drain
import Outbox.Proofs.Life.Setback

namespace Outbox

/-!
# When the forwarder has ended

* `Forwarder.hasStopped` — the loop has come to its end by itself, and has not been killed.
* `Forwarder.flag_of_hasStopped`, `Forwarder.hasStopped_of_raised` — the flag is up when the loop
  comes to its end, and it is the loop that raises it only then.
* `Life.Up` — the flag of a session is up.
* `Life.Stands.stays` — a loop that has ended remains as it is.
* `Life.RaisedByOthers` — in a run, somebody else raises the flag.
* `Life.refuses_after_end` — when the flag is up after the end of a loop, and that the queue then
  takes nothing any more.
* `Life.LeavesOpenQueue`, `Life.accepts_after_death` — a loop that the sink has killed leaves a
  queue that takes events.
-/

/-! ### The end of the loop -/

namespace Forwarder

/-- Whether the loop has come to its end by itself. -/
def hasStopped (f : Forwarder) : Bool :=
  match f.phase with
  | .stopped => true
  | _ => false

variable {now : Nat} {f f' : Forwarder} {h h' : Hub}

/-- A loop that has ended has come to its end by itself, or has been killed. -/
theorem hasDied_eq_false_iff (hended : f.hasEnded = true) :
    f.hasDied = false ↔ f.hasStopped = true := by
  obtain ⟨settings, nextPass, idle, phase⟩ := f
  cases phase with
  | stopped => exact ⟨fun _ => rfl, fun _ => rfl⟩
  | died => exact ⟨nofun, nofun⟩
  | _ => cases hended

theorem hasEnded_of_hasStopped (hstopped : f.hasStopped = true) : f.hasEnded = true := by
  obtain ⟨settings, nextPass, idle, phase⟩ := f
  cases phase with
  | stopped => rfl
  | _ => cases hstopped

/-- When the loop comes to its end, the flag is up. -/
theorem flag_of_hasStopped (hf : f.step now h = some (f', h')) (hstopped : f'.hasStopped = true) :
    h'.flag = true := by
  have hstep : Step now f h f' h' := step_cases hf
  cases hstep with
  | halt hp up => exact up
  | unreadable => rfl
  | start | look | rest | gather | due | wake | clear | pass | delivered | empty | refused | die
    | park | heed | pause | hear | resume => cases hstopped

/-- The loop raises the flag only when it comes to its end. -/
theorem hasStopped_of_raised (hf : f.step now h = some (f', h')) (down : h.flag = false)
    (up : h'.flag = true) : f'.hasStopped = true := by
  have hstep : Step now f h f' h' := step_cases hf
  -- a flag that is as it was is down
  have hsame : ∀ {k : Hub}, k.flag = h.flag → k.flag = true → f'.hasStopped = true := by
    intro k heq hup
    rw [heq, down] at hup
    cases hup
  cases hstep with
  | halt | unreadable => rfl
  | pass hp hs => exact hsame (Pass.step_still hs).flag up
  | _ => exact hsame rfl up

/-- An answer of the sink does not bring the loop to its end. -/
theorem hasStopped_of_answer {events : List Event} (hc : f.call? = some events) (r : SinkAnswer)
    (h : Hub) : (f.answer r h).1.hasStopped = false := by
  obtain ⟨settings, nextPass, idle, phase⟩ := f
  cases phase with
  | passing p => rfl
  | _ => cases hc

end Forwarder

namespace Job

/-- Whether an actor is a loop that has come to its end by itself. -/
def hasStopped : Job → Bool
  | forwarding (.loop f) _ => f.hasStopped
  | _ => false

end Job

namespace Life

variable {allowed : Life → Move → Prop} {t : Table} {l l₀ l' : Life} {m : Move} {ms : List Move}
  {i n : Nat} {f f₀ : Forwarder} {c c₀ : Account} {h h₀ : Hub}

/-- Where a loop has come to its end by itself, the flag is up. -/
theorem stable_hasStopped : Stable fun s j => j.hasStopped = true → s.hub.flag = true where
  begins hj hstopped := by
    cases hj with
    | forwards n s loops => cases loops <;> cases hstopped
    | _ => cases hstopped
  own hstep _ hstopped := by
    cases hstep with
    | loop hf => exact Forwarder.flag_of_hasStopped hf hstopped
    | @answer r w a events hc =>
      cases w with
      | loop f =>
        have hgoing := Forwarder.hasStopped_of_answer (f := f) hc r
        exact absurd ((hgoing _).symm.trans hstopped) Bool.false_ne_true
      | pass => cases hstopped
    | _ => cases hstopped
  other hstep hj hstopped := hstep.onward.flag (hj hstopped)
  raise _ _ := rfl
  spoil _ hj := hj

/-! ### The flag in a run -/

/-- The flag of a session is up. -/
def Up (l : Life) (n : Nat) : Prop := ∃ s, l.sessions[n]? = some s ∧ s.hub.flag = true

theorem Stands.up_iff (hl : l.Stands i n f c h) : l.Up n ↔ h.flag = true := by
  obtain ⟨-, s, hs, rfl⟩ := hl
  constructor
  · rintro ⟨s', hs', up⟩
    cases hs.symm.trans hs'
    exact up
  · exact fun up => ⟨s, hs, up⟩

/-- A flag that is up stays up. -/
theorem Up.run [∀ l m, Decidable (allowed l m)] (up : l.Up n)
    (hrun : l.run (lasting allowed) ms = some l') : l'.Up n := by
  obtain ⟨s, hs, up⟩ := up
  exact (turnedAway_of_run hrun hs up).1

/-- A loop that has ended remains as it is. -/
theorem Stands.stays (hl : l.Stands i n f c h) (hended : f.hasEnded = true)
    (hm : l.move m = some l') (hc : m.isCrash = false) : ∃ c' h', l'.Stands i n f c' h' := by
  obtain ⟨hi, s, hs, rfl⟩ := hl
  obtain ⟨b, s', hb, hs', hbefalls⟩ := (moved_of_move hm).befalls hc hi hs
  cases hbefalls with
  | acts hstep =>
    -- it takes no step, and there is nothing that the sink could answer
    cases hstep with
    | loop hf =>
      rw [Forwarder.hasEnded_of_step hf] at hended
      cases hended
    | @answer r w a events hcall =>
      have hlive : f.hasEnded = false := Scenario.Work.hasEnded_of_call (w := .loop f) hcall
      rw [hlive] at hended
      cases hended
  | _ => exact ⟨c, _, hb, _, hs', rfl⟩

theorem Stands.stays_run [∀ l m, Decidable (allowed l m)] (hl : l.Stands i n f c h)
    (hended : f.hasEnded = true) (hrun : l.run (lasting allowed) ms = some l') :
    ∃ c' h', l'.Stands i n f c' h' := by
  refine run_keeps (P := fun l => ∃ c h, l.Stands i n f c h) ⟨c, h, hl⟩ hrun fun hl₁ ok hm => ?_
  obtain ⟨c₁, h₁, hl₁⟩ := hl₁
  exact hl₁.stays hended hm ok.2

/-- In a run, somebody who is not the loop itself raises the flag of a session. -/
def RaisedByOthers (l₀ : Life) (ms : List Move) (i n : Nat) : Prop :=
  ∃ ms₁ m ms₂ l l', ms = ms₁ ++ m :: ms₂ ∧ l₀.run (lasting anyMove) ms₁ = some l ∧
    l.move m = some l' ∧ (∀ how, m ≠ .acts i how) ∧ ¬ l.Up n ∧ l'.Up n

/-- When the loop raises the flag, it comes to its end by itself. -/
theorem Stands.stopped_of_turning {how : Act} (hl : l.Stands i n f c h)
    (hm : l.move (.acts i how) = some l') (hbefore : ¬ l.Up n) (hafter : l'.Up n) :
    ∃ f' c' h', l'.Stands i n f' c' h' ∧ f'.hasStopped = true := by
  rw [hl.up_iff, Bool.not_eq_true] at hbefore
  obtain ⟨hi, s, hs, rfl⟩ := hl
  obtain ⟨b, s', hb, hs', hbefalls⟩ := (moved_of_move hm).befalls rfl hi hs
  obtain ⟨r, hr, up⟩ := hafter
  cases hr.symm.trans hs'
  cases hbefalls with
  | spared hne => exact absurd rfl (hne _)
  | acts hstep =>
    cases hstep with
    | loop hf =>
      exact ⟨_, _, _, ⟨hb, _, hs', rfl⟩, Forwarder.hasStopped_of_raised hf hbefore up⟩
    | @answer r w a events hcall =>
      -- an answer leaves the flag alone
      have hflag := (Scenario.Work.answer_still r (.loop f) (s.over l.files).hub).flag
      rw [hbefore] at hflag
      exact absurd (hflag.symm.trans up) Bool.false_ne_true
  | other hk => exact absurd rfl hk

/-- Whether the flag is up after a run in which a loop has been killed. -/
theorem flag_iff_of_died (hl₀ : l₀.Stands i n f₀ c₀ h₀) (hr : Reached anyMove t l₀)
    (hrun : l₀.run (lasting anyMove) ms = some l) (hl : l.Stands i n f c h)
    (hdied : f.hasStopped = false) :
    h.flag = true ↔ h₀.flag = true ∨ l₀.RaisedByOthers ms i n := by
  rw [← hl.up_iff, ← hl₀.up_iff]
  constructor
  · intro up
    by_cases hbefore : l₀.Up n
    · exact .inl hbefore
    · obtain ⟨ms₁, m, ms₂, l₁, l₂, rfl, hrun₁, ok, hm, h₁, h₂⟩ :=
        exists_turning (P := fun l => l.Up n) hrun hbefore up
      refine .inr ⟨ms₁, m, ms₂, l₁, l₂, rfl, hrun₁, hm, ?_, h₁, h₂⟩
      -- had the loop raised it, it would have come to its end by itself, and would have stayed so
      rintro how rfl
      obtain ⟨⟨f₁, c₁, k₁, hl₁⟩, -⟩ := hl₀.run hr hrun₁
      obtain ⟨f₂, c₂, k₂, hl₂, hstopped⟩ := hl₁.stopped_of_turning hm h₁ h₂
      have hended : f₂.hasEnded = true := Forwarder.hasEnded_of_hasStopped hstopped
      obtain ⟨c₃, h₃, hl₃⟩ := hl₂.stays_run hended (run_rest hrun hrun₁ hm)
      cases hl.actor.symm.trans hl₃.actor
      rw [hdied] at hstopped
      cases hstopped
  · rintro (up | ⟨ms₁, m, ms₂, l₁, l₂, rfl, hrun₁, hm, -, -, h₂⟩)
    · exact up.run hrun
    · exact h₂.run (run_rest hrun hrun₁ hm)

/-- When a loop has ended, the flag is up if the loop has come to its end by itself, because it has
    read the flag or because the store could not be read. If the sink has killed it, the flag is up
    only if it was so to begin with, or if somebody else has raised it. Once it is up, whoever
    begins to send is turned away. -/
theorem refuses_after_end (hr : Reached anyMove t l₀) (hl₀ : l₀.Stands i n f₀ c₀ h₀)
    (hrun : l₀.run (lasting anyMove) ms = some l) (hl : l.Stands i n f c h)
    (hended : f.hasEnded = true) :
    (h.flag = true ↔ f.hasDied = false ∨ h₀.flag = true ∨ l₀.RaisedByOthers ms i n) ∧
      (h.flag = true → l.TurnsAway n) := by
  refine ⟨?_, fun up => ?_⟩
  · rw [Forwarder.hasDied_eq_false_iff hended]
    cases hstopped : f.hasStopped with
    | true =>
      obtain ⟨s, hs, hup⟩ := (hr.later hrun).each stable_hasStopped hl.actor
      exact iff_of_true (hl.up_iff.1 ⟨s, hs, hup hstopped⟩) (.inl rfl)
    | false =>
      rw [flag_iff_of_died hl₀ hr hrun hl hstopped]
      simp
  · obtain ⟨s, hs, hup⟩ := hl.up_iff.2 up
    exact turnsAway_of_up hs hup

/-! ### Single runs -/

/-- An event is sent, and a loop begins to forward in batches of some size. -/
def withLoop (batchSize : Nat) : List Move :=
  .opens ⟨"", batchSize, ⟨.plaintext, 0⟩, 0, false, some ⟨true⟩⟩ .whole .none 64 ::
    (submitting 0 letter ++ [.forwards 0 (.of .plaintext batchSize 0) true])

/-- The loop hands the event over after so many steps, and the sink kills the thread. -/
def killing (steps : Nat) : List Move :=
  List.replicate steps (.acts 1 (.step 0)) ++ [.acts 1 (.answer .died), .acts 1 (.step 0)]

/-- Somebody raises the flag when the loop has been killed, and from then on nothing is taken. -/
theorem refuses_after_end_of_late_signal :
    let l₀ := after anyMove .empty (withLoop 1)
    let ms := killing 8 ++ [.raises 0]
    let l := l₀.onward (lasting anyMove) ms
    ∃ f₀ f c₀ c h₀ h,
      (Reached anyMove .empty l₀ ∧ l₀.Stands 1 0 f₀ c₀ h₀ ∧
        l₀.run (lasting anyMove) ms = some l ∧ l.Stands 1 0 f c h ∧ f.hasEnded = true) ∧
      h₀.flag = false ∧ f.hasDied = true ∧ h.flag = true ∧ l₀.RaisedByOthers ms 1 0 ∧
        l.TurnsAway 0 := by
  intro l₀ ms l
  have hr : Reached anyMove .empty l₀ := Reached.after (by decide +kernel)
  have hrun : l₀.run (lasting anyMove) ms = some l := run_onward (by decide +kernel)
  obtain ⟨f₀, c₀, h₀, hl₀, -, down⟩ := exists_stands (l := l₀) (i := 1) (n := 0)
    (fun _ => true) (fun h => !h.flag) (by decide +kernel) (by decide +kernel)
  obtain ⟨f, c, h, hl, hf, up⟩ := exists_stands (l := l) (i := 1) (n := 0)
    (fun f => f.hasEnded && f.hasDied) (fun h => h.flag) (by decide +kernel) (by decide +kernel)
  have down : h₀.flag = false := by simpa using down
  obtain ⟨hended, hdied⟩ := Bool.and_eq_true_iff.1 hf
  obtain ⟨hiff, haway⟩ := refuses_after_end hr hl₀ hrun hl hended
  -- the loop has been killed and the flag was down, so that somebody else has raised it
  have hraised : l₀.RaisedByOthers ms 1 0 := by
    rcases hiff.1 up with halive | hup | hraised
    · rw [hdied] at halive
      cases halive
    · rw [down] at hup
      cases hup
    · exact hraised
  exact ⟨f₀, f, c₀, c, h₀, h, ⟨hr, hl₀, hrun, hl, hended⟩, down, hdied, up, hraised, haway up⟩

/-- After some moves, the loop of a queue has ended with the flag down and an entry left behind; an
    event that is sent then is committed, and its producer is told so, while nobody forwards. -/
def LeavesOpenQueue (ms : List Move) : Prop :=
  let l := after anyMove .empty ms
  let l' := l.onward (lasting anyMove) (submitting 2 postcard)
  (Reached anyMove .empty l ∧ (l.loop? 1 0).any Forwarder.hasEnded = true ∧
    l.hasEnded 0 = true ∧ (l.session? 0).map (·.hub.flag) = some false ∧
    l.files.table.size = 1) ∧
  l.run (lasting anyMove) (submitting 2 postcard) = some l' ∧
  l'.history.getLast? = some (.confirmed postcard) ∧ l'.hasEnded 0 = true ∧
  l'.files.table.size = 2

/-- In either protocol, a sink that kills the thread leaves a queue that takes events. -/
theorem accepts_after_death :
    LeavesOpenQueue (withLoop 1 ++ killing 8) ∧ LeavesOpenQueue (withLoop 2 ++ killing 5) := by
  constructor
  all_goals
    refine ⟨⟨Reached.after ?_, ?_, ?_, ?_, ?_⟩, run_onward ?_, ?_, ?_, ?_⟩
    all_goals decide +kernel

end Life

end Outbox
