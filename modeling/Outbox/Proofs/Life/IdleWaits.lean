import Outbox.Proofs.Life.Onlooker
import Outbox.Proofs.Life.Receipts

namespace Outbox

/-!
# Waiting until nothing is running

Who waits for the running commits listens for the bell before it reads how many there are; the last
one to end counts itself out before it rings:

* `Submission.isLeaving`, `Submission.isRinging` — a call or its task is about to count itself out,
  or has done so as the last one and is about to ring.
* `Commits.RingsLast`, `Life.Moved.ringsLast` — nobody ends the last commit without being about to
  ring.
* `IdleWait.Hears` — who is parked has been rung for, or something runs, or somebody is about to
  ring; the wait of a shutdown stands so by `Life.Reached.hears_stop`.
* `Life.HasReadIdle` — what a shutdown that found nothing running has read.
* `Waiter`, `waiters` — any number of those who wait, apart from the shutdowns of queues.
* `Life.RingCovered`, `Life.misses_no_ring` — what holds of the commits of a session and of all who
  wait for them.
-/

/-! ### Who is about to ring -/

/-- Whether a task is about to count itself out. -/
def CommitTask.isLeaving : CommitTask → Bool
  | leaving _ => true
  | _ => false

/-- Whether a task is about to ring. -/
def CommitTask.isRinging : CommitTask → Bool
  | ringing _ => true
  | _ => false

/-- Whether a call is about to count itself out. -/
def Call.isLeaving : Call → Bool
  | leaving _ => true
  | _ => false

/-- Whether a call is about to ring. -/
def Call.isRinging : Call → Bool
  | ringing _ => true
  | _ => false

/-- What a step of somebody does to the running commits: it rings, or it leaves alone who is about
    to ring, and ends the last commit only in order to ring. -/
def Commits.RingsLast (c c' : Commits) (before after : Prop) : Prop :=
  c'.rings = c.rings + 1 ∨
    c'.rings = c.rings ∧ (before → after) ∧ (c.running ≠ 0 → c'.running ≠ 0 ∨ after)

namespace Commits.RingsLast

variable {c c' : Commits} {before after : Prop}

/-- Where the running commits stay as they are, so does who is about to ring. -/
theorem of_eq (heq : c' = c) (hkeep : before → after) : c.RingsLast c' before after := by
  subst heq
  exact .inr ⟨rfl, hkeep, .inl⟩

/-- What is known of who is about to ring may be told with others. -/
theorem mono {before' after' : Prop} (h : c.RingsLast c' before after)
    (hkeep : (before → after) → before' → after') (hafter : after → after') :
    c.RingsLast c' before' after' := by
  rcases h with hring | ⟨hrings, hsame, hlast⟩
  · exact .inl hring
  · exact .inr ⟨hrings, hkeep hsame, fun hrun => (hlast hrun).imp_right hafter⟩

/-- The bell is never unrung. -/
theorem rings_le (h : c.RingsLast c' before after) : c.rings ≤ c'.rings := by
  rcases h with hring | ⟨hrings, -⟩ <;> omega

end Commits.RingsLast

namespace Submission

/-- Whether a call, or its task, is about to count itself out. -/
def isLeaving (s : Submission) : Bool :=
  s.call.isLeaving || s.task.elim false CommitTask.isLeaving

/-- Whether a call, or its task, is about to ring. -/
def isRinging (s : Submission) : Bool :=
  s.call.isRinging || s.task.elim false CommitTask.isRinging

variable {now : Nat} {s s' : Submission} {h h' : Hub}

/-- Who is about to count itself out counts as running. -/
theorem running_of_isLeaving (hs : s.isLeaving = true) : 0 < s.running := by
  obtain ⟨producer, nonce, call, task⟩ := s
  rcases Bool.or_eq_true_iff.1 hs with hcall | htask
  · cases call with
    | leaving e => exact Nat.lt_of_lt_of_le Nat.zero_lt_one (Nat.le_add_right 1 _)
    | _ => cases hcall
  · cases task with
    | none => cases htask
    | some t =>
      cases t with
      | leaving e => exact Nat.lt_of_lt_of_le Nat.zero_lt_one (Nat.le_add_left 1 _)
      | _ => cases htask

/-- A call that is given up leaves its task as near to ringing as before. -/
theorem isRinging_drop (s : Submission) : s.drop.isRinging = s.isRinging := by
  obtain ⟨producer, nonce, call, task⟩ := s
  cases call <;> rfl

/-- A call that counts itself out as the last one is about to ring. -/
theorem call_of_leaving {e : Error} (hc : s.call = .leaving e)
    (hs : s.stepCall now h = some (s', h')) (hone : h.commits.running = 1) :
    s'.call = .ringing e := by
  unfold stepCall at hs
  rw [hc] at hs
  cases hs
  exact if_pos hone

/-- So is a task. -/
theorem isRinging_of_leaving {e : CommitEnd} {t : CommitTask}
    (ht : (CommitTask.leaving e).step h = some (t, h')) (hone : h.commits.running = 1) :
    t.isRinging = true := by
  cases ht
  rw [if_pos hone]
  rfl

/-- A step of a call ends the last commit only in order to ring. -/
theorem ringsLast_of_call (hs : s.stepCall now h = some (s', h'))
    (hnone : ∀ e, s.call = .sealing e → s.task = none) :
    h.commits.RingsLast h'.commits (s.isRinging = true) (s'.isRinging = true) := by
  -- a call that is not about to ring leaves its task as it is
  have hkeep : ∀ {c : Call}, s.call.isRinging = false → s.isRinging = true →
      ({ s with call := c } : Submission).isRinging = true := by
    intro c hc hr
    unfold isRinging at hr ⊢
    rw [hc, Bool.false_or] at hr
    rw [hr, Bool.or_true]
  cases callTurn_of_step hs with
  | enter hc => exact .inr ⟨rfl, hkeep (by rw [hc]; rfl), fun _ => .inl (Nat.succ_ne_zero _)⟩
  | ring hc => exact .inl rfl
  | @leave e c hc hn =>
    refine .inr ⟨rfl, hkeep (by rw [hc]; rfl), fun hrun => ?_⟩
    by_cases hone : h.commits.running = 1
    · have hcall : c = .ringing e := call_of_leaving hc hs hone
      right
      rw [hcall]
      rfl
    · left
      show h.commits.running - 1 ≠ 0
      omega
  | submit hc =>
    refine .of_eq rfl fun hr => ?_
    unfold isRinging at hr
    rw [hnone _ hc, hc] at hr
    cases hr
  | _ hc => exact .of_eq rfl (hkeep (by rw [hc]; rfl))

/-- So does a step of its task. -/
theorem ringsLast_of_task (hs : s.stepTask h = some (s', h')) :
    h.commits.RingsLast h'.commits (s.isRinging = true) (s'.isRinging = true) := by
  obtain ⟨t, t', ht, rfl, hstep⟩ := step_of_stepTask hs
  -- a task that is not about to ring leaves its call as it is
  have hkeep : t.isRinging = false → s.isRinging = true →
      ({ s with task := some t' } : Submission).isRinging = true := by
    intro hquiet hr
    unfold isRinging at hr ⊢
    rw [ht] at hr
    have hcall : s.call.isRinging = true := by simpa [hquiet] using hr
    rw [hcall, Bool.true_or]
  cases CommitTask.turn_of_step hstep with
  | ring => exact .inl rfl
  | @leave e t' hn =>
    refine .inr ⟨rfl, hkeep rfl, fun hrun => ?_⟩
    by_cases hone : h.commits.running = 1
    · right
      show (s.call.isRinging || t'.isRinging) = true
      rw [isRinging_of_leaving hstep hone, Bool.or_true]
    · left
      show h.commits.running - 1 ≠ 0
      omega
  | _ => exact .of_eq rfl (hkeep rfl)

end Submission

/-- Whether an actor is about to count itself out. -/
def Job.isLeaving : Job → Bool
  | sending _ sub => sub.isLeaving
  | _ => false

/-- Whether an actor is about to ring. -/
def Job.isRinging : Job → Bool
  | sending _ sub => sub.isRinging
  | _ => false

/-- Who is about to count itself out is counted. -/
theorem Job.running_of_isLeaving {j : Job} (hj : j.isLeaving = true) : 0 < j.running := by
  cases j with
  | sending e sub => exact Submission.running_of_isLeaving hj
  | _ => cases hj

/-- No actor ends the last commit without being about to ring. -/
theorem Job.Stride.ringsLast {ended died : Bool} {past : Nat} {s s' : Session} {how : Act}
    {j j' : Job} {news : List Occurrence} (hj : Stride ended died past s how j j' s' news)
    (hnone : ∀ e sub, j = .sending e sub → ∀ e', sub.call = .sealing e' → sub.task = none) :
    s.hub.commits.RingsLast s'.hub.commits (j.isRinging = true) (j'.isRinging = true) := by
  cases hj with
  | loop hf => exact .of_eq (Forwarder.step_cases hf).commits_eq nofun
  | pass hp => exact .of_eq (Pass.step_still hp).commits nofun
  | answer hc => exact .of_eq (Scenario.Work.answer_still _ _ _).commits nofun
  | call hs => exact Submission.ringsLast_of_call hs (hnone _ _ rfl)
  | task hs => exact Submission.ringsLast_of_task hs
  | @drop e sub => exact .of_eq rfl fun hr => sub.isRinging_drop.trans hr
  | stop hs => exact .of_eq (Stop.turn_of_step hs).steady.1 nofun

/-! ### Who is rung for -/

/-- How a wait stands with the running commits: once it is parked and the bell has not rung since,
    something runs, or somebody is about to ring. -/
def IdleWait.Hears (c : Commits) (ringer : Prop) : IdleWait → Prop
  | checking rings => rings ≤ c.rings
  | parked rings => rings ≤ c.rings ∧ (c.rings = rings → c.running ≠ 0 ∨ ringer)
  | _ => True

namespace IdleWait.Hears

variable {c c' : Commits} {before after : Prop} {wait wait' : IdleWait}

/-- A wait that goes on has listened before it reads how many are running. -/
theorem step {now deadline : Nat} (h : wait.Hears c before)
    (hs : wait.step now deadline c = some wait') : wait'.Hears c before := by
  cases wait with
  | listening =>
    cases hs
    exact Nat.le_refl c.rings
  | checking rings =>
    cases hs
    by_cases hzero : c.running = 0
    · rw [if_pos hzero]
      trivial
    · rw [if_neg hzero]
      exact ⟨h, fun _ => .inl hzero⟩
  | parked rings =>
    simp only [IdleWait.step] at hs
    split at hs
    · cases hs
      trivial
    · split at hs <;> cases hs
      trivial
  | idle => cases hs
  | expired => cases hs

/-- Whatever somebody else does, a wait stands as it should. -/
theorem of_ringsLast (h : wait.Hears c before) (hc : c.RingsLast c' before after) :
    wait.Hears c' after := by
  have hle := hc.rings_le
  cases wait with
  | checking rings => exact Nat.le_trans h hle
  | parked rings =>
    obtain ⟨hrings, hheard⟩ := h
    refine ⟨Nat.le_trans hrings hle, fun heq => ?_⟩
    rcases hc with hring | ⟨hsame, hkeep, hlast⟩
    · -- it has rung since
      omega
    · rcases hheard (hsame ▸ heq) with hrun | hbefore
      · exact hlast hrun
      · exact .inr (hkeep hbefore)
  | _ => trivial

end IdleWait.Hears

/-- A wait that finds nothing running has just read so. -/
theorem IdleWait.checking_of_idle {now deadline : Nat} {c : Commits} {wait : IdleWait}
    (hs : wait.step now deadline c = some .idle) :
    (∃ rings, wait = .checking rings) ∧ c.running = 0 := by
  cases wait with
  | checking rings =>
    refine ⟨⟨rings, rfl⟩, ?_⟩
    by_contra hne
    simp only [step] at hs
    rw [if_neg hne] at hs
    cases hs
  | parked rings =>
    simp only [step] at hs
    split at hs
    · cases hs
    · split at hs <;> cases hs
  | _ => cases hs

namespace Life

variable {t : Table} {l l' : Life} {m : Move} {i n : Nat} {a : Actor} {s : Session}

/-- Somebody in a session is about to ring. -/
def HasRinger (l : Life) (n : Nat) : Prop :=
  ∃ a ∈ l.actors, a.session = n ∧ a.job.isRinging = true

/-- A move that crashes nothing ends the last commit of a session only where somebody is about to
    ring. -/
theorem Moved.ringsLast (h : Moved l m l') (hl : l.Sound) (hc : m.isCrash = false)
    (hs : l.sessions[n]? = some s) :
    ∃ s', l'.sessions[n]? = some s' ∧
      s.hub.commits.RingsLast s'.hub.commits (l.HasRinger n) (l'.HasRinger n) := by
  have hn : n < l.sessions.length := (List.getElem?_eq_some_iff.1 hs).1
  cases h with
  | opens => exact ⟨s, by rwa [List.getElem?_append_left hn], .of_eq rfl id⟩
  | enlists =>
    exact ⟨s, hs, .of_eq rfl fun ⟨a, ha, hr⟩ => ⟨a, List.mem_append_left _ ha, hr⟩⟩
  | @acts i how a t s' j news ha ht hstep =>
    by_cases hsame : a.session = n
    · subst hsame
      obtain rfl : s = t := Option.some.inj (hs.symm.trans ht)
      -- the actor that moved may be the ringer itself, before the step or after it
      have hlast := hstep.ringsLast fun e sub hj e' hcall => by
        have hfits := hl.fits ha
        rw [hj] at hfits
        exact (Submission.Fits.call hfits e' (.inr (.inr hcall))).2
      have hi : i < l.actors.length := (List.getElem?_eq_some_iff.1 ha).1
      exact ⟨s', List.getElem?_set_self hn,
        hlast.mono (fun hown => exists_mem_set ha fun ⟨hin, hr⟩ => ⟨hin, hown hr⟩)
          fun hr => ⟨_, List.mem_set hi _, rfl, hr⟩⟩
    · exact ⟨s, (List.getElem?_set_ne hsame).trans hs,
        .of_eq rfl (exists_mem_set ha fun ⟨hin, _⟩ => absurd hin hsame)⟩
  | @raises k t ht =>
    by_cases hsame : k = n
    · subst hsame
      obtain rfl : s = t := Option.some.inj (hs.symm.trans ht)
      exact ⟨_, List.getElem?_set_self hn, .of_eq rfl id⟩
    · exact ⟨s, (List.getElem?_set_ne hsame).trans hs, .of_eq rfl id⟩
  | @spoils k t faults ht =>
    by_cases hsame : k = n
    · subst hsame
      obtain rfl : s = t := Option.some.inj (hs.symm.trans ht)
      exact ⟨_, List.getElem?_set_self hn, .of_eq rfl id⟩
    · exact ⟨s, (List.getElem?_set_ne hsame).trans hs, .of_eq rfl id⟩
  | crashes => cases hc

/-- The wait of a shutdown has just begun, is what it was, or has gone on. -/
theorem Moved.settling_cases {graceful : Bool} {wait : IdleWait} {deadline : Nat}
    (h : Moved l m l') (before : Reached anyMove t l)
    (ha : l'.actors[i]? = some ⟨n, .stopping graceful (.settling wait deadline)⟩) :
    m.isCrash = false ∧ ∃ s, l.sessions[n]? = some s ∧
      (wait = .listening ∨
        l.actors[i]? = some ⟨n, .stopping graceful (.settling wait deadline)⟩ ∨
        ∃ now earlier, l.actors[i]? = some ⟨n, .stopping graceful (.settling earlier deadline)⟩ ∧
          earlier.step now deadline s.hub.commits = some wait) := by
  obtain ⟨hc, ⟨⟨k, j₀⟩, s, s', ha₀, hs, hs', hbefalls⟩ | ⟨-, hj, -, -⟩⟩ :=
    h.befallen_or_new ha before.session_of_actor
  · obtain rfl : n = k := hbefalls.session
    refine ⟨hc, s, hs, ?_⟩
    rcases hbefalls.spared_or_own with ⟨-, heq⟩ | ⟨how, j, news, -, heq, hstep⟩
    · cases heq
      exact .inr (.inl ha₀)
    · cases heq
      cases hstep with
      | @stop now _ stop stop' queue g hstop =>
        generalize hnext : Stop.settling wait deadline = next at hstop
        cases Stop.turn_of_step hstop with
        | wait hw =>
          cases hnext
          exact .inr (.inr ⟨now, _, ha₀, hw⟩)
        | wake =>
          split at hnext <;> cases hnext
          exact .inl rfl
        | join => split at hnext <;> cases hnext
        | _ => cases hnext
  · cases hj

/-- The wait of a shutdown stands as it should. -/
theorem Reached.hears_stop {graceful : Bool} {wait : IdleWait} {deadline : Nat}
    (h : Reached anyMove t l)
    (ha : l.actors[i]? = some ⟨n, .stopping graceful (.settling wait deadline)⟩)
    (hs : l.sessions[n]? = some s) : wait.Hears s.hub.commits (l.HasRinger n) := by
  induction h generalizing s wait with
  | new => cases ha
  | @move l l' m before ok hm ih =>
    have hmoved := moved_of_move hm
    obtain ⟨hc, s₀, hs₀, hcases⟩ := hmoved.settling_cases before ha
    obtain ⟨s₁, hs₁, hlast⟩ := hmoved.ringsLast before.sound hc hs₀
    obtain rfl := Option.some.inj (hs₁.symm.trans hs)
    -- what the wait itself does, and then what becomes of the session
    refine IdleWait.Hears.of_ringsLast ?_ hlast
    rcases hcases with rfl | ha₀ | ⟨now, earlier, ha₀, hstep⟩
    · trivial
    · exact ih ha₀ hs₀
    · exact (ih ha₀ hs₀).step hstep

/-- At some time before, a shutdown was about to read how many were running, and nothing was. -/
def HasReadIdle (l : Life) (t : Table) (i n : Nat) (graceful : Bool) (deadline : Nat) : Prop :=
  ∃ l₀ ms rings s, Reached anyMove t l₀ ∧ l₀.run (lasting anyMove) ms = some l ∧
    l₀.actors[i]? = some ⟨n, .stopping graceful (.settling (.checking rings) deadline)⟩ ∧
    l₀.sessions[n]? = some s ∧ s.hub.commits.running = 0

/-- A shutdown that has found nothing running has read so. -/
theorem Reached.hasReadIdle {graceful : Bool} {deadline : Nat} (h : Reached anyMove t l)
    (ha : l.actors[i]? = some ⟨n, .stopping graceful (.settling .idle deadline)⟩) :
    l.HasReadIdle t i n graceful deadline := by
  induction h with
  | new => cases ha
  | @move l l' m before ok hm ih =>
    obtain ⟨hc, s, hs, heq | ha₀ | ⟨now, earlier, ha₀, hstep⟩⟩ :=
      (moved_of_move hm).settling_cases before ha
    · cases heq
    · obtain ⟨l₀, ms, rings, s, hl₀, hrun, hfound⟩ := ih ha₀
      exact ⟨l₀, ms ++ [m], rings, s, hl₀, run_concat.2 ⟨l, hrun, ⟨ok, hc⟩, hm⟩, hfound⟩
    · obtain ⟨⟨rings, rfl⟩, hzero⟩ := IdleWait.checking_of_idle hstep
      have hrun : l.run (lasting anyMove) ([] ++ [m]) = some l' :=
        run_concat.2 ⟨l, rfl, ⟨ok, hc⟩, hm⟩
      exact ⟨l, [m], rings, s, before, hrun, ha₀, hs, hzero⟩

end Life

/-! ### Those who wait -/

/-- Somebody who waits until nothing is running in a session. -/
structure Waiter where
  session : Nat
  deadline : Nat
  wait : IdleWait
  /-- How many were running when it last read. -/
  seen? : Option Nat
  deriving DecidableEq

/-- The next step of who waits, unless it is parked or its wait is over. -/
def Waiter.step (now : Nat) (c : Commits) (w : Waiter) : Option Waiter :=
  (w.wait.step now w.deadline c).map fun wait =>
    { w with wait, seen? := match w.wait with
      | .checking _ => some c.running
      | _ => w.seen? }

/-- What those who wait do. -/
inductive Waiting where
  /-- One more begins to wait in a session, until a deadline. -/
  | begins (session deadline : Nat)
  /-- One of them goes on, at a time. -/
  | goesOn (k now : Nat)
  /-- One of them waits no longer. -/
  | leaves (k : Nat)

/-- Any number of those who wait. -/
def waiters : Onlooker (List Waiter) Waiting where
  start := []
  look l b ws :=
    match b with
    | .begins n deadline =>
      (l.sessions[n]?).map fun _ => ws ++ [⟨n, deadline, .listening, none⟩]
    | .goesOn k now => do
      let w ← ws[k]?
      let s ← l.sessions[w.session]?
      (w.step now s.hub.commits).map (ws.set k)
    | .leaves k => some (ws.eraseIdx k)

/-- What holds of one who waits: it has not missed the bell, and has read that nothing was running
    if it says so. -/
structure Waiter.HearsBell (l : Life) (w : Waiter) : Prop where
  hears : ∃ s, l.sessions[w.session]? = some s ∧ w.wait.Hears s.hub.commits (l.HasRinger w.session)
  idle : w.wait.result? = some true → w.seen? = some 0

namespace Waiter.HearsBell

variable {l l' : Life} {m : Move} {w w' : Waiter}

/-- Whoever waits goes on to hear the bell, whatever others do. -/
theorem moved (h : w.HearsBell l) (hl : l.Sound) (hm : l.Moved m l') (hc : m.isCrash = false) :
    w.HearsBell l' := by
  obtain ⟨s, hs, hhears⟩ := h.hears
  obtain ⟨s', hs', hlast⟩ := hm.ringsLast hl hc hs
  exact ⟨⟨s', hs', hhears.of_ringsLast hlast⟩, h.idle⟩

/-- Whoever waits goes on to hear the bell with its own steps. -/
theorem step {now : Nat} {s : Session} (h : w.HearsBell l) (hs : l.sessions[w.session]? = some s)
    (hw : w.step now s.hub.commits = some w') : w'.HearsBell l := by
  obtain ⟨wait, hwait, rfl⟩ := Option.map_eq_some_iff.1 hw
  obtain ⟨s₀, hs₀, hhears⟩ := h.hears
  obtain rfl := Option.some.inj (hs₀.symm.trans hs)
  refine ⟨⟨s₀, hs, hhears.step hwait⟩, fun hidle => ?_⟩
  cases wait with
  | idle =>
    obtain ⟨⟨rings, hbefore⟩, hzero⟩ := IdleWait.checking_of_idle hwait
    simp only [hbefore, hzero]
  | _ => cases hidle

end Waiter.HearsBell

namespace Life

variable {t : Table} {l : Life} {ws : List Waiter}

/-- All who wait have missed no bell. -/
theorem Watched.hearsBell (h : Watched waiters t l ws) : ∀ w ∈ ws, w.HearsBell l := by
  refine h.induct (P := fun l ws => ∀ w ∈ ws, Waiter.HearsBell l w) (fun l => nofun)
    (fun hl ih hm hc w hw => (ih w hw).moved hl.sound (moved_of_move hm) hc)
    fun {l b ws ws'} hl ih hb w hw => ?_
  cases b with
  | begins n deadline =>
    obtain ⟨s, hs, rfl⟩ := Option.map_eq_some_iff.1 hb
    rcases List.mem_append.1 hw with hold | hnew
    · exact ih w hold
    · obtain rfl := List.mem_singleton.1 hnew
      exact ⟨⟨s, hs, trivial⟩, nofun⟩
  | goesOn k now =>
    obtain ⟨w₀, hw₀, hb⟩ := Option.bind_eq_some_iff.1 hb
    obtain ⟨s, hs, hb⟩ := Option.bind_eq_some_iff.1 hb
    obtain ⟨w', hstep, rfl⟩ := Option.map_eq_some_iff.1 hb
    rcases List.mem_or_eq_of_mem_set hw with hold | rfl
    · exact ih w hold
    · exact (ih w₀ (List.mem_of_getElem? hw₀)).step hs hstep
  | leaves k =>
    cases hb
    exact ih w (List.mem_of_mem_eraseIdx hw)

/-- Somebody waits in a session, or the shutdown of its queue does. -/
inductive Awaits (l : Life) (ws : List Waiter) (n : Nat) (wait : IdleWait) : Prop
  | waiter {deadline : Nat} {seen? : Option Nat} (hw : ⟨n, deadline, wait, seen?⟩ ∈ ws)
  | shutdown {i deadline : Nat} {graceful : Bool}
      (ha : l.actors[i]? = some ⟨n, .stopping graceful (.settling wait deadline)⟩)

/-- How a session stands with the commits that run in it and with those who wait for them. -/
structure RingCovered (l : Life) (ws : List Waiter) (n : Nat) (s : Session) : Prop where
  /-- What is told as running is what runs. -/
  counted : s.hub.commits.running = l.total n Job.running
  /-- Who is about to count itself out is still among them. -/
  counts : ∀ (i : Nat) (j : Job), l.actors[i]? = some ⟨n, j⟩ → j.isLeaving = true →
    0 < s.hub.commits.running
  /-- Nobody is parked without having been rung for while nothing is running, unless somebody is
      about to ring. -/
  heard : ∀ rings, l.Awaits ws n (.parked rings) → s.hub.commits.rings = rings →
    s.hub.commits.running = 0 → l.HasRinger n

/-- This holds of every session and of all who wait for it. -/
theorem Watched.ringCovered {n : Nat} {s : Session} (h : Watched waiters t l ws)
    (hs : l.sessions[n]? = some s) : l.RingCovered ws n s := by
  have hl := h.reached
  constructor
  case counted => exact hl.running_eq hs
  case counts =>
    intro i j hi hleaving
    rw [hl.running_eq hs]
    exact Nat.lt_of_lt_of_le (Job.running_of_isLeaving hleaving) (le_total hi)
  case heard =>
    intro rings hwait heq hzero
    have hears : (IdleWait.parked rings).Hears s.hub.commits (l.HasRinger n) := by
      cases hwait with
      | waiter hw =>
        obtain ⟨s₀, hs₀, hhears⟩ := (h.hearsBell _ hw).hears
        obtain rfl := Option.some.inj (hs₀.symm.trans hs)
        exact hhears
      | shutdown ha => exact hl.hears_stop ha hs
    exact (hears.2 heq).resolve_left (absurd hzero)

/-- Whatever the calls, their tasks and those who wait do, in any order: nobody who waits until
    nothing is running misses the bell, and who says so has read that nothing was running. -/
theorem misses_no_ring (h : Watched waiters t l ws) :
    (∀ (n : Nat) (s : Session), l.sessions[n]? = some s → l.RingCovered ws n s) ∧
    (∀ w ∈ ws, w.wait.result? = some true → w.seen? = some 0) ∧
    ∀ (i n : Nat) (graceful : Bool) (deadline : Nat),
      l.actors[i]? = some ⟨n, .stopping graceful (.settling .idle deadline)⟩ →
      l.HasReadIdle t i n graceful deadline :=
  ⟨fun _ _ => h.ringCovered, fun w hw => (h.hearsBell w hw).idle,
    fun _ _ _ _ => h.reached.hasReadIdle⟩

/-- One commit runs while somebody begins to wait, and has counted itself out when it is about to
    ring. -/
def lastCommit : List (Move ⊕ Waiting) :=
  [.inl (reopening 1), .inl (.sends 0 ⟨.plaintext, 1000⟩ (.ofNat 0) letter)] ++
    List.replicate 3 (.inl (.acts 0 (.step 0))) ++
    [.inr (.begins 0 5000), .inr (.goesOn 0 0), .inr (.goesOn 0 0)] ++
    List.replicate 10 (.inl (.acts 0 .task))

/-- Somebody is parked, the last commit counts itself out, and its task is about to ring. -/
theorem misses_no_ring_of_lastCommit :
    let l := (waiters.played .empty lastCommit).1
    let ws := (waiters.played .empty lastCommit).2
    Watched waiters .empty l ws ∧ ws = [⟨0, 5000, .parked 0, some 1⟩] ∧
      ∃ s, l.sessions[0]? = some s ∧ s.hub.commits.running = 0 ∧ s.hub.commits.rings = 0 ∧
        l.RingCovered ws 0 s ∧ l.HasRinger 0 := by
  intro l ws
  have h : Watched waiters .empty l ws := Watched.played (by decide +kernel)
  have hws : ws = [⟨0, 5000, .parked 0, some 1⟩] := by decide +kernel
  have hcommits : (l.sessions[0]?.map fun s => (s.hub.commits.running, s.hub.commits.rings)) =
      some (0, 0) := by decide +kernel
  obtain ⟨s, hs, heq⟩ := Option.map_eq_some_iff.1 hcommits
  obtain ⟨hrunning, hrings⟩ := Prod.mk.inj heq
  have hcovered := (misses_no_ring h).1 0 s hs
  have hparked : l.Awaits ws 0 (.parked 0) := .waiter (by rw [hws]; exact List.mem_singleton_self _)
  exact ⟨h, hws, s, hs, hrunning, hrings, hcovered,
    hcovered.heard 0 hparked hrings hrunning⟩

end Life

end Outbox
