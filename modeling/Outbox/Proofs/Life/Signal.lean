import Outbox.Proofs.Life.Drain

namespace Outbox

/-!
# What a loop makes of the signal to stop

A signal raises the flag and then wakes the loop:

* `Forwarder.Phase.isDeciding` — the loop has read the flag, and has not yet cleared the wake-ups to
  begin a pass.
* `Forwarder.Phase.ahead` — how many steps between passes a loop has to take until it ends.
* `Forwarder.isParked` — the loop blocks, and nobody has rung for it.
* `Forwarder.Heeding` — how a loop stands once the signal has been given;
  `Forwarder.Heeding.step`, `Forwarder.Heeding.other` keep this up.
* `Life.ownLoop` — a session has one loop at a time.
* `Life.heeds_signal` — a loop ends after a signal without having parked, unless it was deciding and
  its next pass found nothing.
* `Life.signal_missed` — then it parks, with the flag up.
-/

/-! ### Places in the loop -/

namespace Forwarder

namespace Phase

/-- Whether the loop has read the flag and not yet cleared the wake-ups. -/
def isDeciding : Phase → Bool
  | counting | clearing => true
  | _ => false

/-- Whether the next step is not one of a pass. -/
def isBetween : Phase → Bool
  | passing p => p.isOver
  | _ => true

/-- How many steps between passes the loop has to take at most until it ends, if the flag is up. -/
def ahead : Phase → Nat
  | counting => 6
  | clearing => 5
  | passing _ => 4
  | emptied | paused _ _ => 3
  | starting | idling _ | gathering | pausing _ => 2
  | checking => 1
  | stopped | died => 0

theorem ahead_le (p : Phase) : p.ahead ≤ 6 := by
  cases p <;> simp [ahead]

/-- A pass has found nothing. -/
def FoundNothing (p : Phase) : Prop := p = passing (.ended (.ok .empty))

/-- What is left of a signal at a place in the loop; `late` says that it was given when the loop was
    deciding, and `found` that the pass which it then began has found nothing. -/
def Heard (late found : Prop) (h : Hub) : Phase → Prop
  | counting => late ∧ h.wake.isEmpty = false
  | clearing => late
  | gathering => h.wake.isEmpty = false
  | passing _ => h.wake.isEmpty = false ∨ late
  | idling _ | emptied => h.wake.isEmpty = false ∨ late ∧ found
  | paused _ rings => rings < h.wake.rings
  | _ => True

end Phase

/-- Whether the loop is parked and nobody has rung for it. -/
def isParked (f : Forwarder) (h : Hub) : Bool :=
  match f.phase with
  | .idling _ | .gathering => h.wake.isEmpty
  | .paused _ rings => rings == h.wake.rings
  | _ => false

/-! ### Steps once the flag is up -/

/-- How a loop stands to a signal that has been given: so many passes have been begun since then,
    and so many steps have been taken between passes. -/
structure Heeding (deciding : Bool) (found : Prop) (begun taken ahead : Nat) (h : Hub)
    (f : Forwarder) : Prop where
  up : h.flag = true
  heard : f.phase.Heard (deciding = true) found h
  begun_le : begun + f.phase.isDeciding.toNat ≤ deciding.toNat
  taken_le : taken + f.phase.ahead ≤ ahead

variable {now : Nat} {f f' : Forwarder} {h h' : Hub} {deciding : Bool} {found : Prop}
  {begun taken ahead : Nat}

theorem isOver_of_step {s : Settings} {p : Pass} {y : Pass × Hub} (hp : p.step s h = some y) :
    p.isOver = false := by
  cases p with
  | ended r => cases hp
  | died => cases hp
  | _ => rfl

/-- Once the flag is up, every step between passes brings the end of the loop nearer, and the loop
    does not decide anew. -/
theorem Step.nearer (hs : Step now f h f' h') (up : h.flag = true) :
    f.phase.isClearing.toNat + f'.phase.isDeciding.toNat ≤ f.phase.isDeciding.toNat ∧
      f.phase.isBetween.toNat + f'.phase.ahead ≤ f.phase.ahead := by
  cases hs with
  | look hp down | pause hp down =>
    rw [up] at down
    cases down
  | pass hp hstep =>
    rw [hp]
    refine ⟨Nat.le_refl _, ?_⟩
    show (Pass.isOver _).toNat + 4 ≤ 4
    rw [isOver_of_step hstep]
    exact Nat.le_refl _
  | wake hp =>
    rcases hp with hp | ⟨deadline, hp⟩ <;> rw [hp] <;>
      exact ⟨Nat.le_refl _, Nat.le_refl _⟩
  | start hp | halt hp up | rest hp zero | gather hp nonzero | due hp nonzero | clear hp
  | delivered hp | empty hp | refused hp | unreadable hp | die hp | park hp | heed hp up | hear hp
  | resume hp =>
    rw [hp]
    simp [goto, Phase.isClearing, Phase.isDeciding, Phase.isBetween, Phase.ahead, Pass.isOver]

/-- The wake-ups that are left after a signal last until the loop takes them and reads the flag, or
    begins a pass. -/
theorem Step.heard (hs : Step now f h f' h') (up : h.flag = true) {late : Prop}
    (hf : f.phase.Heard late found h) : f'.phase.Heard late (found ∨ f.phase.FoundNothing) h' := by
  cases hs with
  | look hp down | pause hp down =>
    rw [up] at down
    cases down
  | rest hp zero =>
    rw [hp] at hf
    exact .inl hf.2
  | gather hp nonzero =>
    rw [hp] at hf
    exact hf.2
  | due hp nonzero =>
    rw [hp] at hf
    exact hf.1
  | clear hp =>
    -- all wake-ups go; the signal was given while the loop was deciding
    rw [hp] at hf
    exact .inr hf
  | pass hp hstep =>
    rw [hp] at hf
    show _ ∨ _
    rw [(Pass.step_still hstep).wake]
    exact hf
  | empty hp =>
    rw [hp] at hf
    exact hf.imp_right fun hlate => ⟨hlate, .inr hp⟩
  | park hp =>
    rw [hp] at hf
    exact hf.imp_right fun hlate => ⟨hlate.1, .inl hlate.2⟩
  | _ => trivial

theorem Heeding.step (hf : Heeding deciding found begun taken ahead h f) (hs : Step now f h f' h')
    (onward : h.Onward h') :
    Heeding deciding (found ∨ f.phase.FoundNothing) (begun + f.phase.isClearing.toNat)
      (taken + f.phase.isBetween.toNat) ahead h' f' := by
  obtain ⟨hbegun, htaken⟩ := hs.nearer hf.up
  have hbegun' := hf.begun_le
  have htaken' := hf.taken_le
  exact ⟨onward.flag hf.up, hs.heard hf.up hf.heard, by omega, by omega⟩

/-- Somebody else takes no wake-up away. -/
theorem Heeding.other (hf : Heeding deciding found begun taken ahead h f) (onward : h.Onward h')
    (hwake : f.hasEnded = false → h.wake.isEmpty = false → h'.wake.isEmpty = false) :
    Heeding deciding found begun taken ahead h' f := by
  refine ⟨onward.flag hf.up, ?_, hf.begun_le, hf.taken_le⟩
  -- what is left of the signal is a wake-up, or that the bell has rung
  have hheard := hf.heard
  obtain ⟨settings, nextPass, idle, phase⟩ := f
  cases phase with
  | counting => exact ⟨hheard.1, hwake rfl hheard.2⟩
  | clearing => exact hheard
  | gathering => exact hwake rfl hheard
  | passing p => exact hheard.imp_left (hwake rfl)
  | idling deadline => exact hheard.imp_left (hwake rfl)
  | emptied => exact hheard.imp_left (hwake rfl)
  | paused deadline rings => exact Nat.lt_of_lt_of_le hheard onward.rings
  | _ => trivial

theorem Heeding.answer (hf : Heeding deciding found begun taken ahead h f) (r : SinkAnswer) :
    Heeding deciding found begun taken ahead (f.answer r h).2 (f.answer r h).1 := by
  obtain ⟨up, hheard, hbegun, htaken⟩ := hf
  obtain ⟨settings, nextPass, idle, phase⟩ := f
  cases phase with
  | passing p =>
    have still := Pass.answer_still r p h
    refine ⟨still.flag.trans up, ?_, hbegun, htaken⟩
    show (p.answer r h).2.wake.isEmpty = false ∨ _
    rw [still.wake]
    exact hheard
  | _ => exact ⟨up, hheard, hbegun, htaken⟩

theorem Heeding.mono {found' : Prop} (hf : Heeding deciding found begun taken ahead h f)
    (hfound : found → found') : Heeding deciding found' begun taken ahead h f := by
  refine ⟨hf.up, ?_, hf.begun_le, hf.taken_le⟩
  have hheard := hf.heard
  obtain ⟨settings, nextPass, idle, phase⟩ := f
  cases phase with
  | idling deadline => exact hheard.imp_right (And.imp_right hfound)
  | emptied => exact hheard.imp_right (And.imp_right hfound)
  | _ => exact hheard

/-- The signal leaves a wake-up, and rings the bell. -/
theorem heeding_of_signal (up : h.flag = true)
    (hlistens : ∀ deadline rings, f.phase = .paused deadline rings → rings ≤ h.wake.rings) :
    Heeding f.phase.isDeciding found 0 0 f.phase.ahead
      { h with wake := h.wake.pushShutdown } f := by
  have hwake := Wakeups.isEmpty_pushShutdown h.wake
  refine ⟨up, ?_, Nat.le_of_eq (Nat.zero_add _), Nat.le_of_eq (Nat.zero_add _)⟩
  obtain ⟨settings, nextPass, idle, phase⟩ := f
  cases phase with
  | counting => exact ⟨rfl, hwake⟩
  | clearing => rfl
  | gathering => exact hwake
  | paused deadline rings => exact Nat.lt_succ_of_le (hlistens deadline rings rfl)
  | passing p => exact .inl hwake
  | idling deadline => exact .inl hwake
  | emptied => exact .inl hwake
  | _ => trivial

/-- A loop that heeds a signal is parked only after a pass that found nothing, which it had decided
    on before the signal. -/
theorem Heeding.of_isParked (hf : Heeding deciding found begun taken ahead h f)
    (hp : f.isParked h = true) : deciding = true ∧ found := by
  have hheard := hf.heard
  obtain ⟨settings, nextPass, idle, phase⟩ := f
  cases phase with
  | idling deadline =>
    have hempty : h.wake.isEmpty = true := hp
    rcases hheard with hwake | hlate
    · rw [hempty] at hwake
      cases hwake
    · exact hlate
  | gathering =>
    have hempty : h.wake.isEmpty = true := hp
    have hwake : h.wake.isEmpty = false := hheard
    rw [hempty] at hwake
    cases hwake
  | paused deadline rings =>
    have heq : rings = h.wake.rings := by simpa [isParked] using hp
    have hlt : rings < h.wake.rings := hheard
    omega
  | _ => cases hp

/-- A loop that is neither in a pass nor parked nor at its end goes on at any time. -/
theorem step_isSome (hbetween : f.phase.isBetween = true) (hended : f.hasEnded = false)
    (hparked : f.isParked h = false) (now : Nat) : (f.step now h).isSome = true := by
  obtain ⟨settings, nextPass, idle, phase⟩ := f
  cases phase with
  | idling deadline =>
    have hempty : h.wake.isEmpty = false := hparked
    simp [Forwarder.step, Wakeups.releases, hempty]
  | gathering =>
    have hempty : h.wake.isEmpty = false := hparked
    simp [Forwarder.step, Wakeups.releases, hempty]
  | passing p =>
    cases p with
    | ended r => rfl
    | died => rfl
    | _ => cases hbetween
  | paused deadline rings =>
    have hrings : h.wake.rings ≠ rings := fun heq => by simp [isParked, heq] at hparked
    simp [Forwarder.step, hrings]
  | stopped => cases hended
  | died => cases hended
  | _ => rfl

end Forwarder

/-- Only a loop that is over has no step between passes to take any more. -/
theorem Forwarder.hasEnded_of_ahead {f : Forwarder} (h : f.phase.ahead = 0) :
    f.hasEnded = true := by
  obtain ⟨settings, nextPass, idle, phase⟩ := f
  cases phase with
  | stopped => rfl
  | died => rfl
  | _ => cases h

/-! ### Sessions with one loop at a time -/

namespace Job

/-- Whether an actor is a loop that has not ended. -/
def isLooping : Job → Bool
  | forwarding (.loop f) _ => !f.hasEnded
  | _ => false

/-- Whether the next step of an actor is one of a loop between passes. -/
def isBetween : Job → Bool
  | forwarding (.loop f) _ => f.phase.isBetween
  | _ => false

/-- Whether the next step of an actor is one of a loop that begins a pass. -/
def isClearing : Job → Bool
  | forwarding (.loop f) _ => f.phase.isClearing
  | _ => false

/-- A loop that listens for the bell has heard it no more often than it has rung. -/
def Listens (rings : Nat) : Job → Prop
  | forwarding (.loop f) _ => ∀ deadline heard, f.phase = .paused deadline heard → heard ≤ rings
  | _ => True

variable {ended died : Bool} {past : Nat} {s s' : Session} {how : Act} {j j' : Job}
  {news : List Occurrence}

/-- Only a loop takes wake-ups away. -/
theorem Stride.wake_of_other (h : Stride ended died past s how j j' s' news)
    (hj : j.isLooping = false) (hwake : s.hub.wake.isEmpty = false) :
    s'.hub.wake.isEmpty = false := by
  have hsame : ∀ {h : Hub}, h.wake = s.hub.wake → h.wake.isEmpty = false := by
    intro h heq
    rwa [heq]
  cases h with
  | loop hf =>
    have hlive : (!_) = false := hj
    rw [Forwarder.hasEnded_of_step hf] at hlive
    cases hlive
  | pass hp => exact hsame (Pass.step_still hp).wake
  | answer hc => exact hsame (Scenario.Work.answer_still _ _ _).wake
  | call hs => exact hsame (Submission.callTurn_of_step hs).quiet.2.1
  | task hs =>
    obtain ⟨t, t', -, -, hturn⟩ := Submission.turn_of_stepTask hs
    cases hturn with
    | wake => exact Wakeups.isEmpty_push _ _
    | _ => exact hwake
  | drop => exact hwake
  | stop hs =>
    cases Stop.turn_of_step hs with
    | wake => exact Wakeups.isEmpty_pushShutdown _
    | _ => exact hwake

end Job

namespace Life

/-- What may happen where a session has one loop at a time. -/
def ownLoop (l : Life) : Move → Prop
  | .forwards n _ true => ∀ a ∈ l.actors, a.session = n → a.job.isLooping = false
  | _ => True

instance (l : Life) : (m : Move) → Decidable (ownLoop l m)
  | .forwards n _ true =>
    inferInstanceAs (Decidable (∀ a ∈ l.actors, a.session = n → a.job.isLooping = false))
  | .forwards _ _ false | .opens _ _ _ _ | .sends _ _ _ _ | .stops _ _ | .acts _ _ | .raises _
  | .spoils _ _ | .crashes => inferInstanceAs (Decidable True)

theorem stable_listens : Stable fun s j => j.Listens s.hub.wake.rings where
  begins hj := by
    cases hj with
    | forwards n s loops =>
      cases loops with
      | false => trivial
      | true => exact fun deadline heard hphase => by cases hphase
    | _ => trivial
  own hstep hj := by
    cases hstep with
    | @loop now f f' a h hf =>
      intro deadline heard hphase
      cases Forwarder.step_cases hf with
      | pause hp down =>
        cases hphase
        exact Nat.le_refl _
      | _ => cases hphase
    | @answer r w a events hc =>
      cases w with
      | pass c p => trivial
      | loop f =>
        obtain ⟨settings, nextPass, idle, phase⟩ := f
        cases phase with
        | passing p => exact nofun
        | _ => cases hc
    | _ => trivial
  other {_ _ _ _ _ _ _ i _ _ _} hstep hj := by
    cases i with
    | forwarding w a =>
      cases w with
      | loop f =>
        -- what others do takes no ring back
        exact fun deadline heard hphase =>
          Nat.le_trans (hj deadline heard hphase) hstep.onward.rings
      | pass c p => trivial
    | _ => trivial
  raise hj := hj
  spoil _ hj := hj

variable {t : Table} {l l' : Life} {m : Move} {n i k : Nat} {ms : List Move}

/-- While a loop of a session runs, no other one does. -/
theorem Reached.isLooping_eq_false {j j' : Job} (h : Reached ownLoop t l) (hik : i ≠ k)
    (hi : l.actors[i]? = some ⟨n, j⟩) (hk : l.actors[k]? = some ⟨n, j'⟩)
    (hj : j.isLooping = true) : j'.isLooping = false := by
  refine h.only_one (fun hstep hlive => ?_) (fun ok hnew hlive => ?_) hik hi hk hj
  · cases hstep with
    | loop hf =>
      show (!_) = true
      rw [Forwarder.hasEnded_of_step hf]
      rfl
    | @answer r w a events hc =>
      cases w with
      | pass c p => exact hlive
      | loop f =>
        show (!f.hasEnded) = true
        rw [show f.hasEnded = false from Scenario.Work.hasEnded_of_call (w := .loop f) hc]
        rfl
    | _ => exact hlive
  · cases hnew with
    | forwards n s loops =>
      cases loops with
      | false => cases hlive
      | true => exact ok
    | _ => cases hlive

/-! ### After the signal -/

/-- In a run of some moves, a pass of a loop finds nothing. -/
def FindsNothing (l : Life) (i : Nat) (ms : List Move) : Prop :=
  ∃ (before rest : List Move) (l₁ : Life) (n : Nat) (f : Forwarder) (a : Account),
    ms = before ++ rest ∧ l.run (lasting ownLoop) before = some l₁ ∧
      l₁.actors[i]? = some ⟨n, .forwarding (.loop f) a⟩ ∧ f.phase.FoundNothing

theorem FindsNothing.concat (h : l.FindsNothing i ms) (m : Move) :
    l.FindsNothing i (ms ++ [m]) := by
  obtain ⟨before, rest, l₁, n, f, a, rfl, h⟩ := h
  exact ⟨before, rest ++ [m], l₁, n, f, a, by rw [List.append_assoc], h⟩

/-- How a loop stands to a signal that was given before a run of some moves, when its job was that
    of `f₀`. -/
def Heeds (l : Life) (i : Nat) (f₀ : Forwarder) (ms : List Move) (h : Hub) (f : Forwarder) :
    Prop :=
  f.Heeding f₀.phase.isDeciding (l.FindsNothing i ms) (l.tally i Job.isClearing ms)
    (l.tally i Job.isBetween ms) f₀.phase.ahead h

/-- A loop to which the signal is given. -/
theorem heeds_of_signal {graceful : Bool} {now : Nat} {f : Forwarder} {a : Account}
    (h : Reached ownLoop t l) (hk : l.actors[k]? = some ⟨n, .stopping graceful .waking⟩)
    (hm : l.move (.acts k (.step now)) = some l')
    (hi : l.actors[i]? = some ⟨n, .forwarding (.loop f) a⟩) :
    ∃ s, l'.actors[i]? = some ⟨n, .forwarding (.loop f) a⟩ ∧ l'.sessions[n]? = some s ∧
      l'.Heeds i f [] s.hub f := by
  obtain ⟨s, hs, hup⟩ := h.each stable_hasRaised hk
  obtain ⟨s₁, hs₁, hlistens⟩ := h.each stable_listens hi
  obtain rfl := Option.some.inj (hs.symm.trans hs₁)
  have hn : n < l.sessions.length := (List.getElem?_eq_some_iff.1 hs).1
  have hki : k ≠ i := by
    rintro rfl
    cases hk.symm.trans hi
  cases moved_of_move hm with
  | enlists hj => cases hj
  | acts hb ht hstep =>
    obtain rfl := Option.some.inj (hk.symm.trans hb)
    obtain rfl := Option.some.inj (hs.symm.trans ht)
    cases hstep with
    | stop hstop =>
      cases Stop.turn_of_step hstop with
      | wake =>
        exact ⟨_, (List.getElem?_set_ne hki).trans hi, List.getElem?_set_self hn,
          Forwarder.heeding_of_signal (hup rfl) hlistens⟩

/-- Whatever happens then, the loop goes on to heed the signal. -/
theorem Heeds.move {f₀ f : Forwarder} {a : Account} {s : Session} {l₁ : Life}
    (hf : l.Heeds i f₀ ms s.hub f) (h : Reached ownLoop t l₁)
    (hrun : l.run (lasting ownLoop) ms = some l₁) (ok : m.isCrash = false)
    (hm : l₁.move m = some l') (hi : l₁.actors[i]? = some ⟨n, .forwarding (.loop f) a⟩)
    (hs : l₁.sessions[n]? = some s) :
    ∃ f' a' s', l'.actors[i]? = some ⟨n, .forwarding (.loop f') a'⟩ ∧ l'.sessions[n]? = some s' ∧
      l.Heeds i f₀ (ms ++ [m]) s'.hub f' := by
  obtain ⟨b, s', hb, hs', hbefalls⟩ := (moved_of_move hm).befalls ok hi hs
  have hover : l.Heeds i f₀ ms (s.over l₁.files).hub f :=
    Forwarder.Heeding.other hf ⟨id, id, Nat.le_refl _⟩ fun _ => id
  -- unless the loop itself goes on, it stays where it is
  have hstay : ∀ {h : Hub}, s.hub.Onward h →
      (f.hasEnded = false → s.hub.wake.isEmpty = false → h.wake.isEmpty = false) →
      (∀ kind, l₁.goesOn i kind m = false) → l.Heeds i f₀ (ms ++ [m]) h f := by
    intro h onward hwake hadvances
    unfold Heeds
    rw [tally_concat _ hrun, tally_concat _ hrun, hadvances, hadvances]
    exact (hf.other onward hwake).mono fun hfound => hfound.concat m
  cases hbefalls with
  | spared hne =>
    exact ⟨f, a, s, hb, hs', hstay ⟨id, id, Nat.le_refl _⟩ (fun _ => id) fun _ => goesOn_of_ne hne⟩
  | raised =>
    exact ⟨f, a, _, hb, hs', hstay ⟨fun _ => rfl, id, Nat.le_refl _⟩ (fun _ => id) fun _ => rfl⟩
  | spoiled faults =>
    exact ⟨f, a, _, hb, hs', hstay ⟨id, id, Nat.le_refl _⟩ (fun _ => id) fun _ => rfl⟩
  | @other k c how j _ news hk hc same hstep =>
    have honward := hstep.onward
    refine ⟨f, a, s', hb, hs', hstay ⟨honward.flag, honward.closed, honward.rings⟩ (fun hlive => ?_)
      fun _ => goesOn_of_ne fun how heq => hk (by cases heq; rfl)⟩
    -- it is not a loop, for there is only one
    obtain ⟨_, job⟩ := c
    obtain rfl : _ = n := same
    refine hstep.wake_of_other (h.isLooping_eq_false hk.symm hi hc ?_)
    show (!f.hasEnded) = true
    rw [hlive]
    rfl
  | acts hstep =>
    cases hstep with
    | @loop now _ f' _ h' hstep =>
      refine ⟨f', _, _, hb, hs', ?_⟩
      unfold Heeds
      rw [tally_concat _ hrun, tally_concat _ hrun, goesOn_self hi, goesOn_self hi]
      have hstep' := Forwarder.step_cases hstep
      refine (Forwarder.Heeding.step hover hstep'
        (hstep'.onward (Forwarder.step_keeps hstep))).mono fun hfound => ?_
      rcases hfound with hfound | hnothing
      · exact hfound.concat _
      · exact ⟨ms, [_], l₁, n, f, a, rfl, hrun, hi, hnothing⟩
    | @answer r =>
      refine ⟨(f.answer r (s.over l₁.files).hub).1, _, _, hb, hs', ?_⟩
      unfold Heeds
      rw [tally_concat _ hrun, tally_concat _ hrun]
      exact (Forwarder.Heeding.answer hover r).mono fun hfound => hfound.concat _

/-- A loop heeds the signal throughout a run. -/
theorem heeds_of_run {graceful : Bool} {now : Nat} {f₀ : Forwarder} {a₀ : Account} {l₀ : Life}
    (h : Reached ownLoop t l₀) (hk : l₀.actors[k]? = some ⟨n, .stopping graceful .waking⟩)
    (hsignal : l₀.move (.acts k (.step now)) = some l)
    (hi : l₀.actors[i]? = some ⟨n, .forwarding (.loop f₀) a₀⟩)
    (hrun : l.run (lasting ownLoop) ms = some l') :
    ∃ f a s, l'.actors[i]? = some ⟨n, .forwarding (.loop f) a⟩ ∧ l'.sessions[n]? = some s ∧
      l.Heeds i f₀ ms s.hub f := by
  have hl : Reached ownLoop t l := h.move (m := .acts k (.step now)) trivial hsignal
  induction ms using List.reverseRecOn generalizing l' with
  | nil =>
    cases hrun
    obtain ⟨s, hs⟩ := heeds_of_signal h hk hsignal hi
    exact ⟨f₀, a₀, s, hs⟩
  | append_singleton ms m ih =>
    obtain ⟨l₁, hrun₁, ok, hm⟩ := run_concat.1 hrun
    obtain ⟨f, a, s, ha, hs, hf⟩ := ih hrun₁
    exact hf.move (hl.later hrun₁) hrun₁ ok.2 hm ha hs

/-- A signal is given to the loop of a session, and then anything happens but a crash. The loop goes
    on as one:

    * it blocks without anybody having rung for it only if it was deciding when the signal was given
      and the pass that it then began has found nothing;
    * it begins a pass only if it was deciding, and then only that one;
    * it ends after six steps between passes at most, and is kept from taking them only when it is
      parked so. -/
theorem heeds_signal {graceful : Bool} {now : Nat} {f₀ : Forwarder} {a₀ : Account} {l₀ : Life}
    (h : Reached ownLoop t l₀) (hk : l₀.actors[k]? = some ⟨n, .stopping graceful .waking⟩)
    (hsignal : l₀.move (.acts k (.step now)) = some l)
    (hi : l₀.actors[i]? = some ⟨n, .forwarding (.loop f₀) a₀⟩)
    (hrun : l.run (lasting ownLoop) ms = some l') :
    ∃ f a s, l'.actors[i]? = some ⟨n, .forwarding (.loop f) a⟩ ∧ l'.session? n = some s ∧
      (f.isParked s.hub = true → f₀.phase.isDeciding = true ∧ l.FindsNothing i ms) ∧
      l.tally i Job.isClearing ms ≤ f₀.phase.isDeciding.toNat ∧
      (f.hasEnded = true ∨ l.tally i Job.isBetween ms < 6 ∧
        (f.phase.isBetween = false ∨ f.isParked s.hub = true ∨
          ∀ now, (l'.act i (.step now)).isSome = true)) := by
  obtain ⟨f, a, s, ha, hs, hf⟩ := heeds_of_run h hk hsignal hi hrun
  have hsession : l'.session? n = some (s.over l'.files) := congrArg _ hs
  have hbegun := hf.begun_le
  refine ⟨f, a, _, ha, hsession, hf.of_isParked, by omega, ?_⟩
  by_cases hended : f.hasEnded = true
  · exact .inl hended
  · -- it has a step ahead of it, so that it has not taken all six
    have htaken := hf.taken_le
    have hsix := f₀.phase.ahead_le
    have hahead : f.phase.ahead ≠ 0 := fun hzero => hended (Forwarder.hasEnded_of_ahead hzero)
    refine .inr ⟨by omega, ?_⟩
    by_cases hbetween : f.phase.isBetween = true
    · right
      by_cases hparked : f.isParked s.hub = true
      · exact .inl hparked
      · refine .inr fun now => ?_
        have hfree : f.isParked (s.over l'.files).hub = false := Bool.eq_false_iff.2 hparked
        have hstep := Forwarder.step_isSome hbetween (Bool.eq_false_iff.2 hended) hfree now
        obtain ⟨y, hy⟩ := Option.isSome_iff_exists.1 hstep
        simp [act, ha, hsession, Job.act, Scenario.Work.step, hy]
    · exact .inl (Bool.eq_false_iff.2 hbetween)

/-- A queue with a loop that goes some steps; then a shutdown raises the flag and is about to wake
    the loop. -/
def shuttingDown (faults : Faults) (steps : Nat) : List Move :=
  .opens ⟨"", 1, ⟨.plaintext, 0⟩, 0, false, some ⟨true⟩⟩ .whole faults 64 ::
    .forwards 0 (.of .plaintext 1 30) true ::
    (List.replicate steps (.acts 0 (.step 0)) ++ .stops 0 true ::
      List.replicate 2 (.acts 1 (.step 0)))

/-- A loop that is parked because there is nothing to forward. -/
def parked : Forwarder := ⟨.of .plaintext 1 30, 30, true, .idling 30⟩

/-- It hears the signal. -/
theorem heeds_signal_of_parked :
    let l₀ := after ownLoop .empty (shuttingDown .none 3)
    let l := l₀.onward ownLoop [.acts 1 (.step 0)]
    let ms := [.acts 0 (.step 0), .acts 0 (.step 0)]
    let l' := l.onward (lasting ownLoop) ms
    (Reached ownLoop .empty l₀ ∧ l₀.actors[1]? = some ⟨0, .stopping true .waking⟩ ∧
      l₀.move (.acts 1 (.step 0)) = some l ∧
      l₀.actors[0]? = some ⟨0, .forwarding (.loop parked) (.opened 0)⟩ ∧
      l.run (lasting ownLoop) ms = some l') ∧
    ∃ f a s, l'.actors[0]? = some ⟨0, .forwarding (.loop f) a⟩ ∧ l'.session? 0 = some s ∧
      (f.isParked s.hub = true → parked.phase.isDeciding = true ∧ l.FindsNothing 0 ms) ∧
      l.tally 0 Job.isClearing ms ≤ parked.phase.isDeciding.toNat ∧
      (f.hasEnded = true ∨ l.tally 0 Job.isBetween ms < 6 ∧
        (f.phase.isBetween = false ∨ f.isParked s.hub = true ∨
          ∀ now, (l'.act 0 (.step now)).isSome = true)) := by
  intro l₀ l ms l'
  have hl : Reached ownLoop .empty l₀ := Reached.after rfl
  have hk : l₀.actors[1]? = some ⟨0, .stopping true .waking⟩ := rfl
  have hsignal : l₀.move (.acts 1 (.step 0)) = some l := rfl
  have hi : l₀.actors[0]? = some ⟨0, .forwarding (.loop parked) (.opened 0)⟩ := rfl
  have hrun : l.run (lasting ownLoop) ms = some l' := run_onward rfl
  exact ⟨⟨hl, hk, hsignal, hi, hrun⟩, heeds_signal hl hk hsignal hi hrun⟩

/-- A loop that has read the flag, in front of a store that tells one entry too many, takes the
    signal away when it begins a pass. The pass finds nothing, and the loop parks although the flag
    is up, until the time is over. -/
theorem signal_missed :
    let l₀ := after ownLoop .empty (shuttingDown { Faults.none with overstated := 1 } 2)
    let l := l₀.onward ownLoop [.acts 1 (.step 0)]
    let ms := List.replicate 17 (.acts 0 (.step 0))
    let l' := l.onward (lasting ownLoop) ms
    Reached ownLoop .empty l₀ ∧ l₀.actors[1]? = some ⟨0, .stopping true .waking⟩ ∧
      l₀.move (.acts 1 (.step 0)) = some l ∧ l.run (lasting ownLoop) ms = some l' ∧
      ∃ a s, l'.actors[0]? = some ⟨0, .forwarding (.loop parked) a⟩ ∧ l'.session? 0 = some s ∧
        s.hub.flag = true ∧ s.hub.wake.isEmpty = true ∧ parked.isParked s.hub = true ∧
        ∀ now < 30, (l'.act 0 (.step now)).isNone = true :=
  ⟨Reached.after rfl, rfl, rfl, run_onward rfl, _, _, rfl, rfl, rfl, rfl, rfl, by decide +kernel⟩

end Life

end Outbox
