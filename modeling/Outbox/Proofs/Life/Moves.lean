import Mathlib.Data.List.Induction
import Outbox.Proofs.Life.Sound
import Outbox.Proofs.Turns

namespace Outbox

/-!
# Moves, one by one

What a move makes of a life, told with the steps of the machines behind it:

* `Job.Stride` — a step of an actor, and the step of its machine.
* `Hub.Onward` — what no step takes back.
* `Life.Moved` — every move is of this kind.
* `Life.Befalls` — what a move means to one actor and its session, unless everything crashes.
* `Life.Each` — something holds of every actor in its session; `Life.Stable` says that moves keep it
  up.
* `Life.total`, `Life.Tallied` — a sum over the actors of a session, and a bound that moves keep up.
* `Life.run_append`, `Life.exists_turning` — runs, one after another, and where something turns.
* `Life.run_keeps` — what every allowed move keeps up, a run keeps up.
* `Life.lasting`, `Life.Reached.later` — runs in which nothing crashes.
* `Life.tally` — how often an actor has gone on while it stood at some place.
-/

/-- A session over files that others may have changed. -/
def Session.over (s : Session) (f : Files) : Session :=
  { s with hub := { s.hub with store := s.hub.store.over f } }

/-! ### Steps of actors -/

namespace Job

/-- A step of an actor with the step of its machine, what becomes of the session, and what
    occurs. -/
inductive Stride (ended died : Bool) (past : Nat) (s : Session) :
    Act → Job → Job → Session → List Occurrence → Prop
  | loop {now : Nat} {f f' : Forwarder} {a : Account} {h : Hub}
      (hf : f.step now s.hub = some (f', h)) :
      Stride ended died past s (.step now) (forwarding (.loop f) a)
        (forwarding (.loop f') ((Scenario.Work.loop f).account s.hub past a)) ⟨h, s.queue⟩
        (removals f.settings.cipher s.hub.store.table h.store.table)
  | pass {now : Nat} {c : Forwarder.Settings} {p p' : Pass} {a : Account} {h : Hub}
      (hp : p.step c s.hub = some (p', h)) :
      Stride ended died past s (.step now) (forwarding (.pass c p) a)
        (forwarding (.pass c p') ((Scenario.Work.pass c p).account s.hub past a)) ⟨h, s.queue⟩
        (removals c.cipher s.hub.store.table h.store.table)
  | answer {r : SinkAnswer} {w : Scenario.Work} {a : Account} {events : List Event}
      (hc : w.call? = some events) :
      Stride ended died past s (.answer r) (forwarding w a)
        (forwarding (w.answer r s.hub).1 (Pass.answered r events a)) ⟨(w.answer r s.hub).2, s.queue⟩
        (acceptance r w.settings.cipher a events)
  | call {now : Nat} {e : Event} {sub sub' : Submission} {h : Hub}
      (hs : sub.stepCall now s.hub = some (sub', h)) :
      Stride ended died past s (.step now) (sending e sub) (sending e sub') ⟨h, s.queue⟩
        (confirmation e sub')
  | task {e : Event} {sub sub' : Submission} {h : Hub} (hs : sub.stepTask s.hub = some (sub', h)) :
      Stride ended died past s .task (sending e sub) (sending e sub') ⟨h, s.queue⟩
        ((Submission.landing e sub sub').map (.committed e)).toList
  | drop {e : Event} {sub : Submission} :
      Stride ended died past s .drop (sending e sub) (sending e sub.drop) s []
  | stop {now : Nat} {graceful : Bool} {stop stop' : Stop} {queue : Queue} {h : Hub}
      (hs : stop.step graceful ended died now s.queue s.hub = some (stop', queue, h)) :
      Stride ended died past s (.step now) (stopping graceful stop) (stopping graceful stop')
        ⟨h, queue⟩ []

/-- Every step of an actor is a stride. -/
theorem stride_of_act {ended died : Bool} {past : Nat} {s s' : Session} {how : Act} {j j' : Job}
    {news : List Occurrence} (h : j.act ended died past s how = some (j', s', news)) :
    Stride ended died past s how j j' s' news := by
  cases j with
  | forwarding w a =>
    cases how with
    | step now =>
      obtain ⟨⟨w', h'⟩, hw, heq⟩ := Option.map_eq_some_iff.1 h
      cases heq
      cases w with
      | loop f =>
        obtain ⟨⟨f', g⟩, hf, heq⟩ := Option.map_eq_some_iff.1 hw
        cases heq
        exact .loop hf
      | pass c p =>
        obtain ⟨⟨p', g⟩, hp, heq⟩ := Option.map_eq_some_iff.1 hw
        cases heq
        exact .pass hp
    | answer r =>
      obtain ⟨events, hc, heq⟩ := Option.map_eq_some_iff.1 h
      cases heq
      exact .answer hc
    | task => cases h
    | drop => cases h
  | sending e sub =>
    cases how with
    | step now =>
      obtain ⟨⟨sub', h'⟩, hs, heq⟩ := Option.map_eq_some_iff.1 h
      cases heq
      exact .call hs
    | task =>
      obtain ⟨⟨sub', h'⟩, hs, heq⟩ := Option.map_eq_some_iff.1 h
      cases heq
      exact .task hs
    | drop => cases h; exact .drop
    | answer r => cases h
  | stopping graceful stop =>
    cases how with
    | step now =>
      obtain ⟨⟨stop', queue, h'⟩, hs, heq⟩ := Option.map_eq_some_iff.1 h
      cases heq
      exact .stop hs
    | task => cases h
    | drop => cases h
    | answer r => cases h

end Job

/-! ### What no step takes back -/

/-- The flag stays up, the store stays closed, and the bell has rung no less often. -/
structure Hub.Onward (h h' : Hub) : Prop where
  flag : h.flag = true → h'.flag = true
  closed : h.store.closed = true → h'.store.closed = true
  rings : h.wake.rings ≤ h'.wake.rings

/-- A step that tells nobody anything takes nothing back. -/
theorem Hub.Still.onward {h h' : Hub} (still : h.Still h') (keeps : h.Keeps h') : h.Onward h' where
  flag up := by rw [still.flag, up]
  closed hc := by rw [keeps.closed, hc]
  rings := Nat.le_of_eq (congrArg Wakeups.rings still.wake.symm)

/-- The loop takes nothing back; it raises the flag when it finds the store unreadable. -/
theorem Forwarder.Step.onward {now : Nat} {f f' : Forwarder} {h h' : Hub}
    (hf : Step now f h f' h') (keeps : h.Keeps h') : h.Onward h' := by
  have hclosed : h.store.closed = true → h'.store.closed = true := by
    intro hc
    rw [keeps.closed, hc]
  cases hf with
  | pass hp hs => exact (Pass.step_still hs).onward keeps
  | unreadable hp => exact ⟨fun _ => rfl, hclosed, Nat.le_refl _⟩
  | _ => exact ⟨id, hclosed, Nat.le_refl _⟩

/-- A commit task takes nothing back; it wakes the loop when it has committed. -/
theorem CommitTask.Turn.onward {h h' : Hub} {t t' : CommitTask} (ht : t.Turn h t' h')
    (keeps : h.Keeps h') : h.Onward h' := by
  refine ⟨fun up => by rw [ht.flag_eq, up], fun hc => by rw [keeps.closed, hc], ?_⟩
  cases ht with
  | wake => exact Nat.le_succ _
  | _ => exact Nat.le_refl _

/-- The end of a queue takes nothing back: it raises the flag, wakes the loop and closes the
    store. -/
theorem Stop.Turn.onward {graceful ended : Bool} {now : Nat} {q q' : Queue} {h h' : Hub}
    {stop stop' : Stop} (hs : Turn graceful ended now q h stop stop' q' h') : h.Onward h' := by
  cases hs with
  | raise => exact ⟨fun _ => rfl, id, Nat.le_refl _⟩
  | wake => exact ⟨id, id, Nat.le_succ _⟩
  | @close store j hc =>
    refine ⟨id, fun hclosed => ?_, Nat.le_refl _⟩
    subst hc
    show (h.faults.close h.store).2.closed = true
    unfold Faults.close
    split
    · exact hclosed
    · rfl
  | _ => exact ⟨id, id, Nat.le_refl _⟩

/-- No actor takes anything back. -/
theorem Job.Stride.onward {ended died : Bool} {past : Nat} {s s' : Session} {how : Act} {j j' : Job}
    {news : List Occurrence} (hj : Stride ended died past s how j j' s' news) :
    s.hub.Onward s'.hub := by
  cases hj with
  | loop hf => exact (Forwarder.step_cases hf).onward (Forwarder.step_keeps hf)
  | pass hp => exact (Pass.step_still hp).onward (Pass.step_keeps hp)
  | answer hc =>
    exact (Scenario.Work.answer_still _ _ _).onward (Scenario.Work.answer_keeps _ _ _)
  | call hs =>
    obtain ⟨hflag, hwake, hstore, -⟩ := (Submission.callTurn_of_step hs).quiet
    exact ⟨hflag.trans, fun hc => (congrArg Store.closed hstore).trans hc,
      Nat.le_of_eq (congrArg Wakeups.rings hwake.symm)⟩
  | task hs =>
    obtain ⟨t, t', -, -, ht⟩ := Submission.turn_of_stepTask hs
    exact ht.onward (Submission.stepTask_keeps hs)
  | drop => exact ⟨id, id, Nat.le_refl _⟩
  | stop hs => exact (Stop.turn_of_step hs).onward

/-- No step of an actor makes the store misbehave. -/
theorem Job.Stride.faults_eq {ended died : Bool} {past : Nat} {s s' : Session} {how : Act}
    {j j' : Job} {news : List Occurrence} (h : Stride ended died past s how j j' s' news) :
    s'.hub.faults = s.hub.faults := by
  cases h with
  | loop hf => exact (Forwarder.step_keeps hf).faults
  | pass hp => exact (Pass.step_keeps hp).faults
  | answer => exact (Scenario.Work.answer_keeps _ _ _).faults
  | call hs => exact (Submission.stepCall_keeps hs).faults
  | task hs => exact (Submission.stepTask_keeps hs).faults
  | drop => rfl
  | stop hs => cases Stop.turn_of_step hs <;> rfl

/-! ### Moves -/

/-- A move by which an actor begins its job in a session. -/
inductive Move.Enlists : Move → Nat → Job → Prop
  | sends (n : Nat) (p : Producer) (nonce : Nonce) (e : Event) :
      Enlists (.sends n p nonce e) n (.sending e (.ofEvent p nonce e))
  | forwards (n : Nat) (s : Forwarder.Settings) (loops : Bool) :
      Enlists (.forwards n s loops) n
        (.forwarding (if loops then .loop (.create s) else .pass s .starting) (.opened 0))
  | stops (n : Nat) (graceful : Bool) : Enlists (.stops n graceful) n (.stopping graceful .entering)

/-- Whether everything crashes. -/
def Move.isCrash : Move → Bool
  | crashes => true
  | _ => false

namespace Life

/-- What can become of a life. -/
inductive Moved (l : Life) : Move → Life → Prop
  | opens (queue : Queue) (style : SinkStyle) (faults : Faults) (mapSize : Nat) :
      Moved l (.opens queue style faults mapSize)
        { l with sessions := l.sessions ++ [opened l.files queue style faults mapSize] }
  | enlists {m : Move} {n : Nat} {j : Job} {news : List Occurrence} (hj : m.Enlists n j)
      (hn : n < l.sessions.length) :
      Moved l m ⟨l.files, l.sessions, l.actors ++ [⟨n, j⟩], l.history ++ news⟩
  | acts {i : Nat} {how : Act} {a : Actor} {s s' : Session} {j : Job} {news : List Occurrence}
      (ha : l.actors[i]? = some a) (hs : l.sessions[a.session]? = some s)
      (hstep : Job.Stride (l.hasEnded a.session) (l.hasDied a.session) l.history.length
        (s.over l.files) how a.job j s' news) :
      Moved l (.acts i how) ⟨s'.hub.store.files, l.sessions.set a.session s',
        l.actors.set i { a with job := j }, l.history ++ news⟩
  | raises {n : Nat} {s : Session} (hs : l.sessions[n]? = some s) :
      Moved l (.raises n) { l with sessions := l.sessions.set n { s with hub := s.hub.raise } }
  | spoils {n : Nat} {s : Session} (faults : Faults) (hs : l.sessions[n]? = some s) :
      Moved l (.spoils n faults)
        { l with sessions := l.sessions.set n { s with hub := { s.hub with faults } } }
  | crashes : Moved l .crashes ⟨⟨l.files.table, none⟩, [], [], l.history⟩

variable {l l' : Life} {m : Move} {i n : Nat} {a : Actor} {s : Session}

/-- Every move is one of these. -/
theorem moved_of_move (h : l.move m = some l') : Moved l m l' := by
  cases m with
  | opens queue style faults mapSize => cases h; exact .opens queue style faults mapSize
  | sends n p nonce e =>
    obtain ⟨l₁, h₁, rfl⟩ := Option.map_eq_some_iff.1 h
    obtain ⟨hn, rfl⟩ := enlist_cases h₁
    exact .enlists (.sends n p nonce e) hn
  | forwards n s loops =>
    obtain ⟨hn, rfl⟩ := enlist_cases h
    have hmoved : Moved l (.forwards n s loops)
        ⟨l.files, l.sessions, l.actors ++ [⟨n, _⟩], l.history ++ []⟩ :=
      .enlists (.forwards n s loops) hn
    rwa [List.append_nil] at hmoved
  | stops n graceful =>
    obtain ⟨hn, rfl⟩ := enlist_cases h
    have hmoved : Moved l (.stops n graceful)
        ⟨l.files, l.sessions, l.actors ++ [⟨n, _⟩], l.history ++ []⟩ :=
      .enlists (.stops n graceful) hn
    rwa [List.append_nil] at hmoved
  | acts i how =>
    obtain ⟨a, ha, h⟩ := Option.bind_eq_some_iff.1 h
    obtain ⟨t, ht, h⟩ := Option.bind_eq_some_iff.1 h
    obtain ⟨⟨j, s', news⟩, hj, h⟩ := Option.bind_eq_some_iff.1 h
    cases h
    obtain ⟨s, hs, rfl⟩ := Option.map_eq_some_iff.1 ht
    exact .acts ha hs (Job.stride_of_act hj)
  | raises n =>
    obtain ⟨s, hs, rfl⟩ := Option.map_eq_some_iff.1 h
    exact .raises hs
  | spoils n faults =>
    obtain ⟨s, hs, rfl⟩ := Option.map_eq_some_iff.1 h
    exact .spoils faults hs
  | crashes => cases h; exact .crashes

/-- What a move can mean to an actor and its session. -/
inductive Befalls (l : Life) (i : Nat) (a : Actor) (s : Session) : Move → Actor → Session → Prop
  | spared {m : Move} (hm : ∀ how, m ≠ .acts i how) : Befalls l i a s m a s
  | acts {how : Act} {j : Job} {s' : Session} {news : List Occurrence}
      (hstep : Job.Stride (l.hasEnded a.session) (l.hasDied a.session) l.history.length
        (s.over l.files) how a.job j s' news) :
      Befalls l i a s (.acts i how) { a with job := j } s'
  | other {k : Nat} {b : Actor} {how : Act} {j : Job} {s' : Session} {news : List Occurrence}
      (hk : k ≠ i) (hb : l.actors[k]? = some b) (same : b.session = a.session)
      (hstep : Job.Stride (l.hasEnded b.session) (l.hasDied b.session) l.history.length
        (s.over l.files) how b.job j s' news) :
      Befalls l i a s (.acts k how) a s'
  | raised : Befalls l i a s (.raises a.session) a { s with hub := s.hub.raise }
  | spoiled (faults : Faults) :
      Befalls l i a s (.spoils a.session faults) a { s with hub := { s.hub with faults } }

/-- An actor stays in its session. -/
theorem Befalls.session {a' : Actor} {s' : Session} (h : Befalls l i a s m a' s') :
    a'.session = a.session := by
  cases h <;> rfl

/-- Actors and sessions stay until everything crashes. -/
theorem Moved.befalls (h : Moved l m l') (hc : m.isCrash = false) (ha : l.actors[i]? = some a)
    (hs : l.sessions[a.session]? = some s) :
    ∃ a' s', l'.actors[i]? = some a' ∧ l'.sessions[a.session]? = some s' ∧
      Befalls l i a s m a' s' := by
  have hi : i < l.actors.length := (List.getElem?_eq_some_iff.1 ha).1
  have hn : a.session < l.sessions.length := (List.getElem?_eq_some_iff.1 hs).1
  cases h with
  | opens => exact ⟨a, s, ha, by rwa [List.getElem?_append_left hn], .spared nofun⟩
  | enlists hj =>
    refine ⟨a, s, by rwa [List.getElem?_append_left hi], hs, .spared ?_⟩
    cases hj <;> exact nofun
  | @acts k how b t s' j news hb ht hstep =>
    by_cases hk : k = i
    · -- the actor itself goes on
      subst hk
      obtain rfl : a = b := Option.some.inj (ha.symm.trans hb)
      obtain rfl : s = t := Option.some.inj (hs.symm.trans ht)
      exact ⟨_, s', List.getElem?_set_self hi, List.getElem?_set_self hn, .acts hstep⟩
    · have ha' := (List.getElem?_set_ne (a := { b with job := j }) hk).trans ha
      by_cases hsame : b.session = a.session
      · -- somebody else in the session goes on
        rw [hsame] at ht
        obtain rfl : s = t := Option.some.inj (hs.symm.trans ht)
        refine ⟨a, s', ha', ?_, .other hk hb hsame hstep⟩
        show (l.sessions.set b.session s')[a.session]? = some s'
        rw [hsame]
        exact List.getElem?_set_self hn
      · refine ⟨a, s, ha', (List.getElem?_set_ne hsame).trans hs, .spared fun how' heq => ?_⟩
        cases heq
        exact hk rfl
  | @raises n t ht =>
    by_cases hsame : n = a.session
    · subst hsame
      obtain rfl : s = t := Option.some.inj (hs.symm.trans ht)
      exact ⟨a, _, ha, List.getElem?_set_self hn, .raised⟩
    · exact ⟨a, s, ha, (List.getElem?_set_ne hsame).trans hs, .spared nofun⟩
  | @spoils n t faults ht =>
    by_cases hsame : n = a.session
    · subst hsame
      obtain rfl : s = t := Option.some.inj (hs.symm.trans ht)
      exact ⟨a, _, ha, List.getElem?_set_self hn, .spoiled faults⟩
    · exact ⟨a, s, ha, (List.getElem?_set_ne hsame).trans hs, .spared nofun⟩
  | crashes => cases hc

/-- What no step takes back stays until everything crashes. -/
theorem Moved.onward (h : Moved l m l') (hc : m.isCrash = false) (hs : l.sessions[n]? = some s) :
    ∃ s', l'.sessions[n]? = some s' ∧ s.hub.Onward s'.hub := by
  have hn : n < l.sessions.length := (List.getElem?_eq_some_iff.1 hs).1
  have hrefl : s.hub.Onward s.hub := ⟨id, id, Nat.le_refl _⟩
  cases h with
  | opens => exact ⟨s, by rwa [List.getElem?_append_left hn], hrefl⟩
  | enlists => exact ⟨s, hs, hrefl⟩
  | @acts k how b t s' j news hb ht hstep =>
    by_cases hsame : b.session = n
    · subst hsame
      obtain rfl : s = t := Option.some.inj (hs.symm.trans ht)
      exact ⟨s', List.getElem?_set_self hn, hstep.onward.flag, hstep.onward.closed,
        hstep.onward.rings⟩
    · exact ⟨s, (List.getElem?_set_ne hsame).trans hs, hrefl⟩
  | @raises k t ht =>
    by_cases hsame : k = n
    · subst hsame
      obtain rfl : s = t := Option.some.inj (hs.symm.trans ht)
      exact ⟨_, List.getElem?_set_self hn, fun _ => rfl, id, Nat.le_refl _⟩
    · exact ⟨s, (List.getElem?_set_ne hsame).trans hs, hrefl⟩
  | @spoils k t faults ht =>
    by_cases hsame : k = n
    · subst hsame
      obtain rfl : s = t := Option.some.inj (hs.symm.trans ht)
      exact ⟨_, List.getElem?_set_self hn, id, id, Nat.le_refl _⟩
    · exact ⟨s, (List.getElem?_set_ne hsame).trans hs, hrefl⟩
  | crashes => cases hc

/-- An actor has been there, or begins its job. -/
theorem Moved.known_or_new {a' : Actor} (h : Moved l m l') (ha : l'.actors[i]? = some a') :
    m.isCrash = false ∧ ((∃ a, l.actors[i]? = some a ∧ a.session = a'.session) ∨
      i = l.actors.length ∧ m.Enlists a'.session a'.job ∧ l'.sessions = l.sessions ∧
        a'.session < l.sessions.length) := by
  cases h with
  | opens => exact ⟨rfl, .inl ⟨a', ha, rfl⟩⟩
  | enlists hj hn =>
    refine ⟨by cases hj <;> rfl, ?_⟩
    rcases getElem?_concat_cases ha with ha | ⟨hi, rfl⟩
    · exact .inl ⟨a', ha, rfl⟩
    · exact .inr ⟨hi, hj, rfl, hn⟩
  | acts hb hs hstep =>
    refine ⟨rfl, .inl ?_⟩
    rcases getElem?_set_cases ha with ⟨rfl, rfl⟩ | ⟨-, ha⟩
    · exact ⟨_, hb, rfl⟩
    · exact ⟨_, ha, rfl⟩
  | raises => exact ⟨rfl, .inl ⟨a', ha, rfl⟩⟩
  | spoils => exact ⟨rfl, .inl ⟨a', ha, rfl⟩⟩
  | crashes => cases ha

/-- What a move means to an actor that has been there, where every actor works in a session. -/
theorem Moved.befallen_or_new {a' : Actor} (h : Moved l m l') (ha' : l'.actors[i]? = some a')
    (hsession : ∀ {a : Actor}, l.actors[i]? = some a → ∃ s, l.sessions[a.session]? = some s) :
    m.isCrash = false ∧ ((∃ a s s', l.actors[i]? = some a ∧ l.sessions[a.session]? = some s ∧
        l'.sessions[a.session]? = some s' ∧ Befalls l i a s m a' s') ∨
      i = l.actors.length ∧ m.Enlists a'.session a'.job ∧ l'.sessions = l.sessions ∧
        a'.session < l.sessions.length) := by
  obtain ⟨hc, ⟨a, ha, -⟩ | hnew⟩ := h.known_or_new ha'
  · obtain ⟨s, hs⟩ := hsession ha
    obtain ⟨b, s', hb, hs', hbefalls⟩ := h.befalls hc ha hs
    obtain rfl := Option.some.inj (ha'.symm.trans hb)
    exact ⟨hc, .inl ⟨a, s, s', ha, hs, hs', hbefalls⟩⟩
  · exact ⟨hc, .inr hnew⟩

/-- Nobody goes away until everything crashes. -/
theorem Moved.length_le (h : Moved l m l') (hc : m.isCrash = false) :
    l.actors.length ≤ l'.actors.length := by
  cases h with
  | enlists => simp
  | acts => simp
  | crashes => cases hc
  | _ => exact Nat.le_refl _

/-! ### What holds of every actor -/

/-- Something holds of every actor in its session. -/
def Each (P : Session → Job → Prop) (l : Life) : Prop :=
  ∀ {i : Nat} {a : Actor}, l.actors[i]? = some a →
    ∃ s, l.sessions[a.session]? = some s ∧ P s a.job

/-- What holds when an actor begins, and is kept up by its own steps, by those of others in its
    session, and by what else happens to the session. -/
structure Stable (P : Session → Job → Prop) : Prop where
  begins : ∀ {m : Move} {n : Nat} {s : Session} {j : Job}, m.Enlists n j → P s j
  own : ∀ {ended died : Bool} {past : Nat} {s s' : Session} {f : Files} {how : Act} {j j' : Job}
    {news : List Occurrence}, Job.Stride ended died past (s.over f) how j j' s' news → P s j →
      P s' j'
  other : ∀ {ended died : Bool} {past : Nat} {s s' : Session} {f : Files} {how : Act} {i j j' : Job}
    {news : List Occurrence}, Job.Stride ended died past (s.over f) how j j' s' news → P s i →
      P s' i
  raise : ∀ {s : Session} {j : Job}, P s j → P { s with hub := s.hub.raise } j
  spoil : ∀ {s : Session} {j : Job} (faults : Faults), P s j →
    P { s with hub := { s.hub with faults } } j

section

variable {P : Session → Job → Prop}

/-- What moves keep up of one actor is kept up whatever befalls it. -/
theorem Stable.befalls {a' : Actor} {s' : Session} (hP : Stable P) (h : Befalls l i a s m a' s')
    (ha : P s a.job) : P s' a'.job := by
  cases h with
  | spared hm => exact ha
  | acts hstep => exact hP.own hstep ha
  | other hk hb same hstep => exact hP.other hstep ha
  | raised => exact hP.raise ha
  | spoiled faults => exact hP.spoil faults ha

/-- What moves keep up of one actor is kept up of all actors. -/
theorem Each.moved (hl : l.Each P) (hP : Stable P) (h : Moved l m l') : l'.Each P := by
  intro i a' ha'
  obtain ⟨-, ⟨a, s, s', ha, hs, hs', hbefalls⟩ | ⟨-, hj, hsessions, hn⟩⟩ :=
    h.befallen_or_new ha' fun ha => (hl ha).imp fun _ => And.left
  · obtain ⟨r, hr, hPa⟩ := hl ha
    obtain rfl := Option.some.inj (hs.symm.trans hr)
    rw [hbefalls.session]
    exact ⟨s', hs', hP.befalls hbefalls hPa⟩
  · rw [hsessions]
    exact ⟨_, List.getElem?_eq_getElem hn, hP.begins hj⟩

/-- What moves keep up holds throughout. -/
theorem Reached.each {allowed : Life → Move → Prop} {t : Table} (h : Reached allowed t l)
    (hP : Stable P) : l.Each P := by
  induction h with
  | new => intro i a ha; cases ha
  | move _ _ hm ih => exact ih.moved hP (moved_of_move hm)

/-- Every actor works in a session. -/
theorem Reached.session_of_actor {allowed : Life → Move → Prop} {t : Table}
    (h : Reached allowed t l) (ha : l.actors[i]? = some a) :
    ∃ s, l.sessions[a.session]? = some s := by
  have heach : l.Each fun _ _ => True :=
    h.each ⟨fun _ => trivial, fun _ _ => trivial, fun _ _ => trivial, fun _ => trivial,
      fun _ _ => trivial⟩
  obtain ⟨s, hs, -⟩ := heach ha
  exact ⟨s, hs⟩

end

/-! ### Sums over the actors of a session -/

/-- A sum over the actors of a session. -/
def total (l : Life) (n : Nat) (f : Job → Nat) : Nat :=
  (l.actors.map fun a => if a.session = n then f a.job else 0).sum

/-- The sum over the actors of each session is as it should be. -/
def Tallied (f : Job → Nat) (R : Session → Nat → Prop) (l : Life) : Prop :=
  ∀ {n : Nat} {s : Session}, l.sessions[n]? = some s → R s (l.total n f)

/-- What a session owes its actors, when it is opened and after every step of one of them. -/
structure Tallying (f : Job → Nat) (R : Session → Nat → Prop) : Prop where
  opens : ∀ (g : Files) (queue : Queue) (style : SinkStyle) (faults : Faults) (mapSize : Nat),
    R (opened g queue style faults mapSize) 0
  step : ∀ {ended died : Bool} {past : Nat} {s s' : Session} {g : Files} {how : Act} {j j' : Job}
    {news : List Occurrence} {x : Nat}, Job.Stride ended died past (s.over g) how j j' s' news →
      R s (x + f j) → R s' (x + f j')
  raise : ∀ {s : Session} {x : Nat}, R s x → R { s with hub := s.hub.raise } x
  spoil : ∀ {s : Session} {x : Nat} (faults : Faults), R s x →
    R { s with hub := { s.hub with faults } } x

section

variable {f : Job → Nat} {R : Session → Nat → Prop}

/-- A part of a sum is no greater than the sum. -/
theorem le_total (ha : l.actors[i]? = some a) : f a.job ≤ l.total a.session f := by
  have hle := le_sum_map (fun b : Actor => if b.session = a.session then f b.job else 0)
    (List.mem_of_getElem? ha)
  rwa [if_pos rfl] at hle

/-- So are two parts of a sum together. -/
theorem add_le_total {k : Nat} {b : Actor} (hik : i ≠ k) (ha : l.actors[i]? = some a)
    (hb : l.actors[k]? = some b) (same : b.session = a.session) :
    f a.job + f b.job ≤ l.total a.session f := by
  -- without the first of the two, the second one is still there
  have hsum := sum_map_set (fun c : Actor => if c.session = a.session then f c.job else 0)
    ⟨a.session + 1, a.job⟩ ha
  have hle := le_sum_map (fun c : Actor => if c.session = a.session then f c.job else 0)
    (List.mem_of_getElem? ((List.getElem?_set_ne (a := ⟨a.session + 1, a.job⟩) hik).trans hb))
  dsimp only at hsum hle
  rw [if_pos rfl, if_neg (Nat.succ_ne_self _)] at hsum
  rw [if_pos same] at hle
  unfold total
  omega

/-- A sum over actors with nothing to count is zero. -/
theorem total_eq_zero (h : ∀ a ∈ l.actors, a.session = n → f a.job = 0) : l.total n f = 0 := by
  unfold total
  rw [List.sum_eq_zero_iff_forall_eq_nat]
  intro x hx
  obtain ⟨a, ha, rfl⟩ := List.mem_map.1 hx
  split
  · next hn => exact h a ha hn
  · rfl

/-- One more actor adds to the sum of its session. -/
theorem total_concat (j : Job) (g : Files) (history : List Occurrence) (k : Nat) :
    total ⟨g, l.sessions, l.actors ++ [⟨k, j⟩], history⟩ n f =
      l.total n f + if k = n then f j else 0 := by
  unfold total
  rw [List.map_append, List.sum_append, List.map_singleton, List.sum_singleton]

/-- Replacing the job of an actor changes the sum of its session by the difference. -/
theorem total_set (ha : l.actors[i]? = some a) (j : Job) (g : Files) (sessions : List Session)
    (history : List Occurrence) :
    (a.session ≠ n →
      total ⟨g, sessions, l.actors.set i { a with job := j }, history⟩ n f = l.total n f) ∧
    ∃ x, l.total a.session f = x + f a.job ∧
      total ⟨g, sessions, l.actors.set i { a with job := j }, history⟩ a.session f = x + f j := by
  have hsum := fun n => sum_map_set (fun b : Actor => if b.session = n then f b.job else 0)
    { a with job := j } ha
  constructor
  · intro hne
    have := hsum n
    simp only [if_neg hne, Nat.add_zero] at this
    exact this
  · have := hsum a.session
    have hle := le_total (f := f) ha
    simp only [if_pos] at this
    unfold total at hle ⊢
    exact ⟨_, (Nat.sub_add_cancel hle).symm, by dsimp only at this ⊢; omega⟩

/-- A move keeps up what each session owes its actors, if the steps of these very actors do. -/
theorem Tallied.moved_of_steps (hl : l.Tallied f R)
    (opens : ∀ (g : Files) (queue : Queue) (style : SinkStyle) (faults : Faults) (mapSize : Nat),
      R (opened g queue style faults mapSize) 0)
    (step : ∀ {ended died : Bool} {past : Nat} {s s' : Session} {g : Files} {how : Act} {i : Nat}
      {a : Actor} {j : Job} {news : List Occurrence} {x : Nat}, l.actors[i]? = some a →
        Job.Stride ended died past (s.over g) how a.job j s' news → R s (x + f a.job) →
        R s' (x + f j))
    (raise : ∀ {s : Session} {x : Nat}, R s x → R { s with hub := s.hub.raise } x)
    (spoil : ∀ {s : Session} {x : Nat} (faults : Faults), R s x →
      R { s with hub := { s.hub with faults } } x)
    (h : Moved l m l') (heach : l.Each fun _ _ => True)
    (born : ∀ {n : Nat} {s : Session} {j : Job}, m.Enlists n j → l.sessions[n]? = some s →
      R s (l.total n f + f j)) : l'.Tallied f R := by
  intro n s hs
  cases h with
  | opens queue style faults mapSize =>
    rcases getElem?_concat_cases hs with hs | ⟨hn, rfl⟩
    · exact hl hs
    · -- nobody works in the new session yet
      have hnone : l.total n f = 0 := by
        refine total_eq_zero fun a ha hsession => ?_
        obtain ⟨i, hi⟩ := List.mem_iff_getElem?.1 ha
        obtain ⟨t, ht, -⟩ := heach hi
        have := (List.getElem?_eq_some_iff.1 ht).1
        omega
      show R _ (l.total n f)
      rw [hnone]
      exact opens _ _ _ _ _
  | @enlists m k j news hj hn =>
    rw [total_concat]
    by_cases hkn : k = n
    · subst hkn
      rw [if_pos rfl]
      exact born hj hs
    · rw [if_neg hkn]
      exact hl hs
  | @acts i how a t s' j news ha ht hstep =>
    -- `x` is what the session owes to everybody but the actor
    obtain ⟨hother, x, hbefore, hafter⟩ := total_set (f := f) (n := n) ha j s'.hub.store.files
      (l.sessions.set a.session s') (l.history ++ news)
    rcases getElem?_set_cases hs with ⟨rfl, rfl⟩ | ⟨hne, hs⟩
    · rw [hafter]
      refine step ha hstep ?_
      rw [← hbefore]
      exact hl ht
    · rw [hother hne.symm]
      exact hl hs
  | raises ht =>
    rcases getElem?_set_cases hs with ⟨rfl, rfl⟩ | ⟨hne, hs⟩
    · exact raise (hl ht)
    · exact hl hs
  | spoils faults ht =>
    rcases getElem?_set_cases hs with ⟨rfl, rfl⟩ | ⟨hne, hs⟩
    · exact spoil faults (hl ht)
    · exact hl hs
  | crashes => cases hs

/-- A bound on the sum is kept up by a move, if it is when an actor begins. -/
theorem Tallied.moved (hl : l.Tallied f R) (hR : Tallying f R) (h : Moved l m l')
    (heach : l.Each fun _ _ => True)
    (born : ∀ {n : Nat} {s : Session} {j : Job}, m.Enlists n j → l.sessions[n]? = some s →
      R s (l.total n f + f j)) : l'.Tallied f R :=
  hl.moved_of_steps hR.opens (fun _ hstep hx => hR.step hstep hx) hR.raise hR.spoil h heach born

/-- A bound on the sum holds throughout, if an actor that begins has nothing to count. -/
theorem Reached.tallied {allowed : Life → Move → Prop} {t : Table} (h : Reached allowed t l)
    (hR : Tallying f R) (born : ∀ {m : Move} {n : Nat} {j : Job}, m.Enlists n j → f j = 0) :
    l.Tallied f R := by
  induction h with
  | new => intro n s hs; cases hs
  | move before _ hm ih =>
    refine ih.moved hR (moved_of_move hm) (fun ha => ?_) fun hj hs => ?_
    · obtain ⟨s, hs⟩ := before.session_of_actor ha
      exact ⟨s, hs, trivial⟩
    · rw [born hj]
      exact ih hs

/-- Actors of a kind go on to be so, or cease to, and one of them begins in a session where there is
    none: then there is never more than one. -/
theorem Reached.only_one {allowed : Life → Move → Prop} {t : Table} {kind : Job → Bool}
    (h : Reached allowed t l)
    (keeps : ∀ {ended died : Bool} {past : Nat} {s s' : Session} {how : Act} {j j' : Job}
      {news : List Occurrence}, Job.Stride ended died past s how j j' s' news →
        kind j' = true → kind j = true)
    (born : ∀ {l : Life} {m : Move} {n : Nat} {j : Job}, allowed l m → m.Enlists n j →
      kind j = true → ∀ a ∈ l.actors, a.session = n → kind a.job = false)
    {k : Nat} {j j' : Job} (hik : i ≠ k) (hi : l.actors[i]? = some ⟨n, j⟩)
    (hk : l.actors[k]? = some ⟨n, j'⟩) (hj : kind j = true) : kind j' = false := by
  -- counted in a session, the actors of the kind are at most one
  have htally : Tallying (fun j => (kind j).toNat) fun _ x => x ≤ 1 := by
    refine ⟨fun _ _ _ _ _ => Nat.zero_le _, fun {_ _ _ _ _ _ _ j j' _ x} hstep hx => ?_,
      fun hx => hx, fun _ hx => hx⟩
    have hle : (kind j').toNat ≤ (kind j).toNat := by
      cases hj' : kind j' with
      | false => exact Nat.zero_le _
      | true => exact Nat.le_of_eq (congrArg Bool.toNat (keeps hstep hj').symm)
    omega
  have hone : l.Tallied (fun j => (kind j).toNat) fun _ x => x ≤ 1 := by
    clear hi hk hj
    induction h with
    | new => intro n s hs; cases hs
    | @move l l' m before ok hm ih =>
      refine ih.moved htally (moved_of_move hm) (fun ha => ?_) fun {n s j} hj hs => ?_
      · obtain ⟨s, hs⟩ := before.session_of_actor ha
        exact ⟨s, hs, trivial⟩
      · cases hnew : kind j with
        | false => exact ih hs
        | true =>
          rw [total_eq_zero fun a ha hn => by rw [born ok hj hnew a ha hn]; rfl]
          exact Nat.le_refl _
  obtain ⟨s, hs⟩ := h.session_of_actor hi
  have hle : l.total n (fun j => (kind j).toNat) ≤ 1 := hone hs
  have htwo := add_le_total (f := fun j => (kind j).toNat) hik hi hk rfl
  cases hj' : kind j' with
  | false => rfl
  | true =>
    simp only [hj, hj', Bool.toNat_true] at htwo
    omega

end

/-! ### Runs in which nothing crashes -/

/-- What is allowed, unless everything crashes. -/
def lasting (allowed : Life → Move → Prop) (l : Life) (m : Move) : Prop :=
  allowed l m ∧ m.isCrash = false

section

variable {allowed : Life → Move → Prop} [∀ l m, Decidable (allowed l m)]

instance (l : Life) (m : Move) : Decidable (lasting allowed l m) :=
  inferInstanceAs (Decidable (_ ∧ _))

/-- The first move of a run. -/
theorem run_cons {ms : List Move} : l.run allowed (m :: ms) = some l' ↔
    ∃ l₁, allowed l m ∧ l.move m = some l₁ ∧ l₁.run allowed ms = some l' := by
  show (if allowed l m then (l.move m).bind fun l => run allowed l ms else none) = some l' ↔ _
  by_cases ok : allowed l m
  · rw [if_pos ok, Option.bind_eq_some_iff]
    simp only [ok, true_and]
  · simp [ok]

/-- One run after another. -/
theorem run_append {ms ms' : List Move} : l.run allowed (ms ++ ms') = some l' ↔
    ∃ l₁, l.run allowed ms = some l₁ ∧ l₁.run allowed ms' = some l' := by
  induction ms generalizing l with
  | nil => simp [run]
  | cons m ms ih =>
    rw [List.cons_append, run_cons]
    constructor
    · rintro ⟨l₁, ok, hm, hrun⟩
      obtain ⟨l₂, hrun, hrest⟩ := ih.1 hrun
      exact ⟨l₂, run_cons.2 ⟨l₁, ok, hm, hrun⟩, hrest⟩
    · rintro ⟨l₂, hrun, hrest⟩
      obtain ⟨l₁, ok, hm, hrun⟩ := run_cons.1 hrun
      exact ⟨l₁, ok, hm, ih.2 ⟨l₂, hrun, hrest⟩⟩

/-- The last move of a run. -/
theorem run_concat {ms : List Move} : l.run allowed (ms ++ [m]) = some l' ↔
    ∃ l₁, l.run allowed ms = some l₁ ∧ allowed l₁ m ∧ l₁.move m = some l' := by
  rw [run_append]
  simp [run]

/-- What is left of a run after a move that is known. -/
theorem run_rest {l₁ l₂ : Life} {ms₁ ms₂ : List Move}
    (hrun : l.run allowed (ms₁ ++ m :: ms₂) = some l') (hfirst : l.run allowed ms₁ = some l₁)
    (hm : l₁.move m = some l₂) :
    l₂.run allowed ms₂ = some l' := by
  obtain ⟨k, hk, hrest⟩ := run_append.1 hrun
  obtain rfl : l₁ = k := Option.some.inj (hfirst.symm.trans hk)
  obtain ⟨k', -, hk', hrest⟩ := run_cons.1 hrest
  obtain rfl : l₂ = k' := Option.some.inj (hm.symm.trans hk')
  exact hrest

/-- What comes to hold in a run does so by one of its moves. -/
theorem exists_turning {P : Life → Prop} {ms : List Move} (hrun : l.run allowed ms = some l')
    (hbefore : ¬ P l) (hafter : P l') :
    ∃ ms₁ m ms₂ l₁ l₂, ms = ms₁ ++ m :: ms₂ ∧ l.run allowed ms₁ = some l₁ ∧ allowed l₁ m ∧
      l₁.move m = some l₂ ∧ ¬ P l₁ ∧ P l₂ := by
  induction ms generalizing l with
  | nil =>
    cases hrun
    exact absurd hafter hbefore
  | cons m ms ih =>
    obtain ⟨l₁, ok, hm, hrun⟩ := run_cons.1 hrun
    by_cases h₁ : P l₁
    · exact ⟨[], m, ms, l, l₁, rfl, rfl, ok, hm, hbefore, h₁⟩
    · obtain ⟨ms₁, m', ms₂, l₂, l₃, rfl, hrun₁, ok', hm', h₂, h₃⟩ := ih hrun h₁
      exact ⟨m :: ms₁, m', ms₂, l₂, l₃, rfl, run_cons.2 ⟨l₁, ok, hm, hrun₁⟩, ok', hm', h₂, h₃⟩

/-- What may happen where less is allowed may happen where more is. -/
theorem run_mono {more : Life → Move → Prop} [∀ l m, Decidable (more l m)] {ms : List Move}
    (hle : ∀ l m, allowed l m → more l m) (hrun : l.run allowed ms = some l') :
    l.run more ms = some l' := by
  induction ms generalizing l with
  | nil => exact hrun
  | cons m ms ih =>
    obtain ⟨l₁, ok, hm, hrun⟩ := run_cons.1 hrun
    exact run_cons.2 ⟨l₁, hle _ _ ok, hm, ih hrun⟩

/-- What every allowed move keeps up, a run keeps up. -/
theorem run_keeps {P : Life → Prop} {ms : List Move} (hl : P l)
    (hrun : l.run allowed ms = some l')
    (keeps : ∀ {l₁ l₂ : Life} {m : Move}, P l₁ → allowed l₁ m → l₁.move m = some l₂ → P l₂) :
    P l' := by
  induction ms generalizing l with
  | nil =>
    cases hrun
    exact hl
  | cons m ms ih =>
    obtain ⟨l₁, ok, hm, hrun⟩ := run_cons.1 hrun
    exact ih (keeps hl ok hm) hrun

/-- A run that does not crash can come after whatever comes before it. -/
theorem Reached.later {t : Table} {ms : List Move} (h : Reached allowed t l)
    (hrun : l.run (lasting allowed) ms = some l') : Reached allowed t l' :=
  run_keeps (P := Reached allowed t) h hrun fun h ok hm => h.move ok.1 hm

/-- What a run comes to, if it can be made. -/
def onward (allowed : Life → Move → Prop) [∀ l m, Decidable (allowed l m)] (l : Life)
    (ms : List Move) : Life :=
  (l.run allowed ms).getD l

/-- Moves that can be made lead to where they lead. -/
theorem run_onward {ms : List Move} (h : (l.run allowed ms).isSome = true) :
    l.run allowed ms = some (l.onward allowed ms) := by
  obtain ⟨l', hl⟩ := Option.isSome_iff_exists.1 h
  unfold onward
  rw [hl]
  rfl

/-- The last move of a run leads to what the run comes to. -/
theorem move_after {t : Table} {ms : List Move}
    (h : ((new t).run allowed (ms ++ [m])).isSome = true) :
    (after allowed t ms).move m = some (after allowed t (ms ++ [m])) := by
  obtain ⟨l', hrun⟩ := Option.isSome_iff_exists.1 h
  obtain ⟨l₁, hfirst, -, hm⟩ := run_concat.1 hrun
  unfold after
  rw [hfirst, hrun]
  exact hm

end

/-- Whether a move lets an actor go on while its job is of a kind. -/
def goesOn (l : Life) (i : Nat) (kind : Job → Bool) : Move → Bool
  | .acts k (.step _) => k == i && l.actors[i]?.any fun a => kind a.job
  | _ => false

/-- A move of somebody else is no step of the actor. -/
theorem goesOn_of_ne {kind : Job → Bool} (hm : ∀ how, m ≠ .acts i how) :
    l.goesOn i kind m = false := by
  unfold goesOn
  split
  · next k now =>
    have hk : k ≠ i := by
      rintro rfl
      exact hm _ rfl
    simp [hk]
  · rfl

/-- A step of the actor counts if the actor stands at the place. -/
theorem goesOn_self {kind : Job → Bool} {now : Nat} (ha : l.actors[i]? = some a) :
    l.goesOn i kind (.acts i (.step now)) = kind a.job := by
  unfold goesOn
  simp [ha]

/-- Who is not there does not go on. -/
theorem goesOn_of_length_le {kind : Job → Bool} (hi : l.actors.length ≤ i) :
    l.goesOn i kind m = false := by
  unfold goesOn
  split
  · rw [List.getElem?_eq_none hi, Option.any_none, Bool.and_false]
  · rfl

/-- How often some moves let an actor go on while its job is of a kind. -/
def tally (l : Life) (i : Nat) (kind : Job → Bool) : List Move → Nat
  | [] => 0
  | m :: ms =>
    (l.goesOn i kind m).toNat + match l.move m with
      | some l => l.tally i kind ms
      | none => 0

/-- One more move adds its step to the tally. -/
theorem tally_concat {allowed : Life → Move → Prop} [∀ l m, Decidable (allowed l m)]
    {ms : List Move} (kind : Job → Bool) (h : l.run allowed ms = some l') :
    l.tally i kind (ms ++ [m]) = l.tally i kind ms + (l'.goesOn i kind m).toNat := by
  induction ms generalizing l with
  | nil =>
    cases h
    show (l'.goesOn i kind m).toNat + (match l'.move m with | some _ => 0 | none => 0) = 0 + _
    rw [Nat.zero_add]
    cases l'.move m <;> rfl
  | cons m₁ ms ih =>
    obtain ⟨l₁, -, hm, h⟩ := run_cons.1 h
    show _ + (match l.move m₁ with | some l => l.tally i kind (ms ++ [m]) | none => 0) =
      _ + (match l.move m₁ with | some l => l.tally i kind ms | none => 0) + _
    rw [hm, Nat.add_assoc]
    exact congrArg _ (ih h)

end Life

end Outbox
