import Outbox.Proofs.Forwarder.Alone
import Outbox.Proofs.Forwarder.Fate

namespace Outbox

/-!
# The loop by itself

Where the loop gets to when nobody disturbs it, in front of a sink that accepts whatever it is
given:

* `Forwarder.Advances` — its own steps, at times that suit it, and answers that accept.
* `Forwarder.advances_to_end` — a loop that is doomed gets to its end.
* `Forwarder.advances_to_pass` — while the store tells that it holds something, the loop gets to a
  pass.
* `Forwarder.advances_round` — a round of the loop leaves fewer entries.
-/

namespace Forwarder

/-- Where the loop gets to by its own steps and by answers of a sink that accepts. -/
inductive Advances : Forwarder → Hub → Forwarder → Hub → Prop
  | refl {f : Forwarder} {h : Hub} : Advances f h f h
  | step {f f' g : Forwarder} {h h' k : Hub} (now : Nat) (hf : f.step now h = some (f', h'))
      (next : Advances f' h' g k) : Advances f h g k
  | answer {f g : Forwarder} {h k : Hub} {events : List Event} (hc : f.call? = some events)
      (next : Advances (f.answer .accepted h).1 (f.answer .accepted h).2 g k) : Advances f h g k

variable {f g k : Forwarder} {h h' h₁ h₂ : Hub} {style : SinkStyle} {t : Table}

theorem Advances.trans (before : Advances f h g h₁) (after : Advances g h₁ k h₂) :
    Advances f h k h₂ := by
  induction before with
  | refl => exact after
  | step now hf next ih => exact .step now hf (ih after)
  | answer hc next ih => exact .answer hc (ih after)

/-- The loop takes the steps of its pass. -/
theorem step_of_pass {s : Settings} {p p' : Pass} (hp : p.step s h = some (p', h'))
    (now nextPass : Nat) (idle : Bool) :
    step now ⟨s, nextPass, idle, .passing p⟩ h = some (⟨s, nextPass, idle, .passing p'⟩, h') := by
  have hmap : (p.step s h).map (fun x => (Forwarder.mk s nextPass idle (.passing x.1), x.2)) =
      some (⟨s, nextPass, idle, .passing p'⟩, h') := by
    rw [hp]
    rfl
  cases p <;> first | exact hmap | cases hp

/-- A pass that nobody disturbs takes the loop to the end of the pass. -/
theorem advances_of_alone {s : Settings} {p : Pass} {calls : List (List Event)}
    {r : Except Error Outcome} (hp : Pass.Alone s p h calls r h') (nextPass : Nat) (idle : Bool) :
    Advances ⟨s, nextPass, idle, .passing p⟩ h ⟨s, nextPass, idle, .passing (.ended r)⟩ h' := by
  induction hp with
  | ended => exact .refl
  | step hp next ih => exact .step 0 (step_of_pass hp 0 nextPass idle) ih
  | answer hc next ih => exact .answer hc ih

/-- A loop that is doomed gets to its end, and nothing keeps it from that. -/
theorem advances_to_end (hdoomed : f.isDoomed = true) (h : Hub) :
    ∃ g h', Advances f h g h' ∧ g.hasEnded = true := by
  obtain ⟨settings, nextPass, idle, phase⟩ := f
  cases phase with
  | passing p =>
    -- a walk or a recount that failed ends its pass in an error, and that ends the loop
    have hend : ∀ (e : Error) (h : Hub), ∃ g h',
        Advances ⟨settings, nextPass, idle, .passing (.ended (.error e))⟩ h g h' ∧
          g.hasEnded = true :=
      fun e h => ⟨_, _, .step 0 rfl .refl, rfl⟩
    cases p with
    | walking op delivered dropped refused =>
      cases op with
      | done r =>
        cases r with
        | error fault =>
          obtain ⟨g, h', hadvances, hended⟩ := hend (.transaction fault) h
          exact ⟨g, h', .step 0 rfl hadvances, hended⟩
        | ok summary => cases hdoomed
      | _ => cases hdoomed
    | recounting op =>
      cases op with
      | done r =>
        cases r with
        | error fault =>
          obtain ⟨g, h', hadvances, hended⟩ := hend (.transaction fault) h
          exact ⟨g, h', .step 0 rfl hadvances, hended⟩
        | ok actual => cases hdoomed
      | _ => cases hdoomed
    | ended r =>
      cases r with
      | error e => exact hend e h
      | ok o => cases hdoomed
    | died => exact ⟨_, _, .step 0 rfl .refl, rfl⟩
    | _ => cases hdoomed
  | stopped => exact ⟨_, _, .refl, rfl⟩
  | died => exact ⟨_, _, .refl, rfl⟩
  | _ => cases hdoomed

/-! ### Rounds -/

/-- The head of the loop leads to the count. -/
theorem step_checking (down : h.flag = false) (s : Settings) (now nextPass : Nat) (idle : Bool) :
    step now ⟨s, nextPass, idle, .checking⟩ h = some (⟨s, nextPass, idle, .counting⟩, h) := by
  simp [step, goto, down]

/-- When a pass is due, the loop gets to it. -/
theorem advances_when_due (down : h.flag = false) (hcount : h.count ≠ 0) (s : Settings)
    (now nextPass : Nat) (idle : Bool)
    (hdue : h.count < s.batchSize → ¬ now < if idle then now + s.delay else nextPass) :
    Advances ⟨s, nextPass, idle, .checking⟩ h ⟨s, now + s.delay, false, .clearing⟩
      (h.measure (.depth h.count)) := by
  have hdecide : (Forwarder.mk s nextPass idle .counting).decide h.count now =
      ⟨s, now + s.delay, false, .clearing⟩ := by
    unfold decide
    rw [if_neg hcount]
    exact if_neg fun hwait => hdue hwait.1 hwait.2
  have hcounting : step now ⟨s, nextPass, idle, .counting⟩ h =
      some (⟨s, now + s.delay, false, .clearing⟩, h.measure (.depth h.count)) := by
    show some (_, _) = _
    rw [hdecide]
  exact .step now (step_checking down s now nextPass idle) (.step now hcounting .refl)

/-- After a quiet time, the loop may have to wait for the delay. Then it is at its head again. -/
theorem advances_after_idle (down : h.flag = false) (hcount : h.count ≠ 0) {s : Settings}
    (hless : h.count < s.batchSize) (hdelay : 0 < s.delay) (nextPass : Nat) :
    ∃ wake, Advances ⟨s, nextPass, true, .checking⟩ h ⟨s, s.delay, false, .checking⟩
      { h.measure (.depth h.count) with wake } := by
  have hdecide : (Forwarder.mk s nextPass true .counting).decide h.count 0 =
      ⟨s, s.delay, false, .gathering⟩ := by
    simp [decide, hcount, hless, hdelay]
  have hcounting : step 0 ⟨s, nextPass, true, .counting⟩ h =
      some (⟨s, s.delay, false, .gathering⟩, h.measure (.depth h.count)) := by
    show some (_, _) = _
    rw [hdecide]
  have hgathering : step s.delay ⟨s, s.delay, false, .gathering⟩ (h.measure (.depth h.count)) =
      some (⟨s, s.delay, false, .checking⟩,
        { h.measure (.depth h.count) with wake := h.wake.take.2 }) := by
    simp [step, goto, Wakeups.releases, Hub.measure, Hub.report]
  exact ⟨_, .step 0 (step_checking down s 0 nextPass true) <| .step 0 hcounting <|
    .step s.delay hgathering .refl⟩

/-- While the store tells that it holds something, the loop gets from its head to a pass. -/
theorem advances_to_pass (hl : h.Lone style t none) (hcount : h.count ≠ 0) (s : Settings)
    (nextPass : Nat) (idle : Bool) :
    ∃ due h', Advances ⟨s, nextPass, idle, .checking⟩ h ⟨s, due, false, .clearing⟩ h' ∧
      h'.Lone style t none := by
  cases idle with
  | false =>
    have hdue : h.count < s.batchSize → ¬ nextPass < nextPass := fun _ => Nat.lt_irrefl _
    exact ⟨_, _, advances_when_due hl.down hcount s nextPass nextPass false hdue, hl.report _⟩
  | true =>
    -- too few entries are given the delay to become more
    by_cases hwait : h.count < s.batchSize ∧ 0 < s.delay
    · obtain ⟨wake, hadvances⟩ := advances_after_idle hl.down hcount hwait.1 hwait.2 nextPass
      have hl' : Hub.Lone style t none { h.measure (.depth h.count) with wake } :=
        ⟨hl.faults, hl.style, hl.down, hl.isOpen, hl.table, hl.writer⟩
      have hdue : h.count < s.batchSize → ¬ s.delay < s.delay := fun _ => Nat.lt_irrefl _
      exact ⟨_, _, hadvances.trans (advances_when_due hl'.down hcount s s.delay s.delay false hdue),
        hl'.report _⟩
    · have hdue : h.count < s.batchSize → ¬ 0 < 0 + s.delay := by
        intro hless hdelay
        rw [Nat.zero_add] at hdelay
        exact hwait ⟨hless, hdelay⟩
      exact ⟨_, _, advances_when_due hl.down hcount s 0 nextPass true hdue, hl.report _⟩

/-- A pass over a store that holds something takes entries out of it. -/
theorem comes_of_some {s : Settings} (hl : h.Lone style t none)
    (hkeys : ∀ x ∈ t.toList, x.key ≠ []) (hsome : t.toList ≠ []) :
    ∃ calls n m, Pass.Comes s .starting h calls (.ok (.delivered n m))
      fun g => ∃ t' : Table, t'.toList.length < t.toList.length ∧ g.Lone style t' none := by
  by_cases batch : 1 < s.batchSize
  · refine ⟨_, _, _, (Pass.comes_of_batch batch hl hkeys hsome rfl).mono fun g hg => ?_⟩
    obtain ⟨t', ht', hlone⟩ := hg
    refine ⟨t', ?_, hlone⟩
    have hpos := List.length_pos_iff.2 hsome
    have hleft : t'.toList.length = t.toList.length - s.batchSize := by
      rw [ht']
      exact List.length_drop
    omega
  · refine ⟨_, _, _, (Pass.comes_of_single batch hl hsome rfl).mono fun g hg => ?_⟩
    exact ⟨.empty, List.length_pos_iff.2 hsome, hg⟩

/-- A round of the loop takes entries out of a store that holds some. -/
theorem advances_round (hl : h.Lone style t none) (hcount : h.count ≠ 0)
    (hkeys : ∀ x ∈ t.toList, x.key ≠ []) (hsome : t.toList ≠ []) (s : Settings) (nextPass : Nat)
    (idle : Bool) :
    ∃ due h' t', Advances ⟨s, nextPass, idle, .checking⟩ h ⟨s, due, false, .checking⟩ h' ∧
      h'.Lone style t' none ∧ t'.toList.length < t.toList.length := by
  obtain ⟨due, h₁, hadvances, hlone⟩ := advances_to_pass hl hcount s nextPass idle
  have hclear : Hub.Lone style t none { h₁ with wake := h₁.wake.clear } :=
    ⟨hlone.faults, hlone.style, hlone.down, hlone.isOpen, hlone.table, hlone.writer⟩
  obtain ⟨calls, n, m, h', hpass, t', hless, hlone'⟩ := comes_of_some (s := s) hclear hkeys hsome
  refine ⟨due, h', t', hadvances.trans ?_, hlone', hless⟩
  exact .step 0 rfl ((advances_of_alone hpass due false).trans (.step 0 rfl .refl))

end Forwarder

end Outbox
