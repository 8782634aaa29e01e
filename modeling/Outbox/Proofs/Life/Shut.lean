import Outbox.Proofs.Life.Unhindered
import Outbox.Proofs.Life.Drain
import Outbox.Proofs.Life.Replay

namespace Outbox

/-!
# After a shutdown

* `Life.tended` — queues are opened with a forwarder, and end at the hands of those who own them.
* `Life.Owned` — only who ends a queue lets go of its forwarder, and nobody shuts down a queue that
  is being dropped.
* `Life.expires`, `Life.patient` — a shutdown goes on because its time is over, or never does so.
* `Life.Ends` — how far the first shutdown of a queue has come, and what is so by then.
* `Life.Ends.begin`, `Life.Ends.move`, `Life.Ends.run`, `Life.Ends.rest` — it begins, goes on, and
  stays over.
* `Life.Ends.closed_of_run` — by then it has closed the store, unless the store cannot be reached.
* `Life.Finds`, `Life.StaysShut` — what the next to open a store finds, and that those who work for
  a queue that is shut do nothing about it.
* `Life.shut_for_good` — a shutdown leaves a queue closed, complete, and as it is.
-/

/-! ### Who ends a queue -/

namespace Stop

/-- Whether the wait for the running commits is over. -/
def hasSettled : Stop → Bool
  | joining _ | closing | done => true
  | _ => false

/-- Whether the wait for the forwarder is over. -/
def hasJoined : Stop → Bool
  | closing | done => true
  | _ => false

/-- Whether the time of the wait for the running commits was over. -/
def hasExpired : Stop → Bool
  | settling .expired _ => true
  | _ => false

end Stop

namespace Job

/-- Whether an actor is about to shut a queue down. -/
def isEntering : Job → Bool
  | stopping true .entering => true
  | _ => false

/-- Whether an actor is a shutdown that has looked whether it is the first one. -/
def hasBegun : Job → Bool
  | stopping true .entering => false
  | stopping true _ => true
  | _ => false

/-- Whether an actor drops a queue. -/
def isDropping : Job → Bool
  | stopping false _ => true
  | _ => false

/-- Whether the time was over when an actor waited for the running commits. -/
def hasExpired : Job → Bool
  | stopping _ stop => stop.hasExpired
  | _ => false

/-- An actor that has nothing to do with the end of its queue once somebody else has begun it. -/
def Yields : Job → Prop
  | stopping _ stop => stop = .entering ∨ stop = .done
  | _ => True

namespace Stride

variable {ended died : Bool} {past : Nat} {s s' : Session} {how : Act} {j j' : Job}
  {news : List Occurrence}

/-- A queue that is closed stays closed, and only who waits for its forwarder lets go of it. -/
theorem queue_cases (h : Stride ended died past s how j j' s' news) :
    (s.queue.closed = true → s'.queue.closed = true) ∧
      (s'.queue.handle = s.queue.handle ∨ ∃ g deadline, j = .stopping g (.joining deadline)) := by
  cases h with
  | stop hs =>
    cases Stop.turn_of_step hs with
    | begin hq =>
      refine ⟨fun hclosed => ?_, .inl rfl⟩
      rw [hq] at hclosed
      cases hclosed
    | join => exact ⟨id, .inr ⟨_, _, rfl⟩⟩
    | _ => exact ⟨id, .inl rfl⟩
  | _ => exact ⟨id, .inl rfl⟩

/-- Who drops a queue goes on to do so, and nobody is about to shut it down after a step. -/
theorem ends (h : Stride ended died past s how j j' s' news) :
    j'.isDropping = j.isDropping ∧ j'.isEntering = false := by
  cases h with
  | @stop now graceful stop stop' queue h hs =>
    refine ⟨by cases graceful <;> rfl, ?_⟩
    cases Stop.turn_of_step hs with
    | wake => cases graceful <;> rfl
    | join => cases graceful <;> rfl
    | _ => cases graceful <;> rfl
  | _ => exact ⟨rfl, rfl⟩

/-- Where a queue is closed, others than who has closed it leave it as it is. -/
theorem yields (h : Stride ended died past s how j j' s' news) (hq : s.queue.closed = true)
    (hj : j.Yields) : j'.Yields ∧ s'.queue = s.queue := by
  cases h with
  | stop hs =>
    rcases hj with rfl | rfl
    · cases Stop.turn_of_step hs with
      | forget => exact ⟨.inr rfl, rfl⟩
      | begin hopen =>
        rw [hq] at hopen
        cases hopen
    · cases hs
  | _ => exact ⟨trivial, rfl⟩

end Stride

end Job

namespace Life

variable {l l' : Life} {m : Move} {t : Table} {i k n : Nat} {j : Job} {stop : Stop}

/-- A queue in which a shutdown has begun is closed. -/
theorem stable_hasBegun : Stable fun s j => j.hasBegun = true → s.queue.closed = true where
  begins hj hr := by
    cases hj with
    | stops n graceful => cases graceful <;> cases hr
    | _ => cases hr
  own hstep hj hr := by
    cases hstep with
    | @stop now graceful stop stop' queue h hs =>
      cases graceful with
      | false => cases hr
      | true =>
        cases Stop.turn_of_step hs with
        | forget hq => exact hq
        | begin => rfl
        | _ => exact hj rfl
    | _ => cases hr
  other hstep hj hr := hstep.queue_cases.1 (hj hr)
  raise hj := hj
  spoil _ hj := hj

/-- What may happen where queues are opened with a forwarder, and end at the hands of those who own
    them: no thread begins to forward for a queue that has begun to end, and a queue is dropped when
    nobody is about to shut it down, and neither dropped nor shut down any more after that. -/
def tended (l : Life) : Move → Prop
  | .opens queue _ _ _ => queue.handle ≠ none
  | .forwards n _ _ => ∀ a ∈ l.actors, a.session = n → a.job.isStopping = false
  | .stops n graceful => ∀ a ∈ l.actors, a.session = n →
      a.job.isDropping = false ∧ (graceful = false → a.job.isEntering = false)
  | .sends _ _ _ _ | .acts _ _ | .raises _ | .spoils _ _ | .crashes => True

instance : (m : Move) → Decidable (tended l m)
  | .opens queue _ _ _ => inferInstanceAs (Decidable (queue.handle ≠ none))
  | .forwards n _ _ =>
    inferInstanceAs (Decidable (∀ a ∈ l.actors, a.session = n → a.job.isStopping = false))
  | .stops n graceful =>
    inferInstanceAs (Decidable (∀ a ∈ l.actors, a.session = n →
      a.job.isDropping = false ∧ (graceful = false → a.job.isEntering = false)))
  | .sends _ _ _ _ | .acts _ _ | .raises _ | .spoils _ _ | .crashes =>
    inferInstanceAs (Decidable True)

/-- Who has let go of a forwarder has closed the queue or drops it, and nobody is about to shut down
    a queue that is being dropped. -/
structure Owned (l : Life) : Prop where
  handle : ∀ {n : Nat} {s : Session}, l.sessions[n]? = some s → s.queue.handle = none →
    s.queue.closed = true ∨ ∃ a ∈ l.actors, a.session = n ∧ a.job.isDropping = true
  apart : ∀ {a b : Actor}, a ∈ l.actors → b ∈ l.actors → a.session = b.session →
    a.job.isDropping = true → b.job.isEntering = false

theorem Owned.act {how : Act} (hl : l.Owned) (hr : Reached tended t l)
    (h : Moved l (.acts i how) l') : l'.Owned := by
  cases h with
  | enlists hj => cases hj
  | @acts _ _ a s s' j news ha hs hstep =>
    obtain ⟨hdropping, hentering⟩ := hstep.ends
    have hmem := List.mem_of_getElem? ha
    -- who drops a queue does so afterwards
    have hkeep : ∀ {n : Nat}, (∃ b ∈ l.actors, b.session = n ∧ b.job.isDropping = true) →
        ∃ b ∈ l.actors.set i { a with job := j }, b.session = n ∧ b.job.isDropping = true :=
      exists_mem_set ha fun ⟨hn, hd⟩ => ⟨hn, hdropping.trans hd⟩
    refine ⟨fun {n r} hr' hnone => ?_, fun {b c} hb hc hbc hd => ?_⟩
    · rcases getElem?_set_cases hr' with ⟨rfl, rfl⟩ | ⟨-, hr'⟩
      · obtain ⟨hclosed, hhandle | ⟨g, deadline, hj⟩⟩ := hstep.queue_cases
        · rw [hhandle] at hnone
          exact (hl.handle hs hnone).imp hclosed hkeep
        · cases g with
          | false => exact .inr (hkeep ⟨a, hmem, rfl, by rw [hj]; rfl⟩)
          | true =>
            obtain ⟨s₁, hs₁, hbegun⟩ := hr.each stable_hasBegun ha
            obtain rfl := Option.some.inj (hs.symm.trans hs₁)
            exact .inl (hclosed (hbegun (by rw [hj]; rfl)))
      · exact (hl.handle hr' hnone).imp id hkeep
    · rcases List.mem_or_eq_of_mem_set hc with hc | rfl
      · rcases List.mem_or_eq_of_mem_set hb with hb | rfl
        · exact hl.apart hb hc hbc hd
        · exact hl.apart hmem hc hbc (hdropping.symm.trans hd)
      · exact hentering

theorem Owned.enlist {n : Nat} {news : List Occurrence} (hl : l.Owned) (ok : tended l m)
    (hj : m.Enlists n j) :
    Owned ⟨l.files, l.sessions, l.actors ++ [⟨n, j⟩], l.history ++ news⟩ := by
  refine ⟨fun hs hnone => (hl.handle hs hnone).imp id ?_, fun {a b} ha hb hab hd => ?_⟩
  · rintro ⟨a, ha, hrest⟩
    exact ⟨a, List.mem_append_left _ ha, hrest⟩
  · cases hj with
    | stops n graceful =>
      rcases List.mem_append.1 ha with ha | ha
      · rcases List.mem_append.1 hb with hb | hb
        · exact hl.apart ha hb hab hd
        · rw [List.mem_singleton.1 hb] at hab
          rw [(ok a ha hab).1] at hd
          cases hd
      · obtain rfl := List.mem_singleton.1 ha
        cases graceful with
        | true => cases hd
        | false =>
          rcases List.mem_append.1 hb with hb | hb
          · exact (ok b hb hab.symm).2 rfl
          · rw [List.mem_singleton.1 hb]
            rfl
    | _ =>
      rcases List.mem_append.1 ha with ha | ha
      · rcases List.mem_append.1 hb with hb | hb
        · exact hl.apart ha hb hab hd
        · rw [List.mem_singleton.1 hb]
          rfl
      · rw [List.mem_singleton.1 ha] at hd
        cases hd

theorem Owned.setSession {s s' : Session} (hl : l.Owned) (hs : l.sessions[n]? = some s)
    (hq : s'.queue = s.queue) : Owned { l with sessions := l.sessions.set n s' } := by
  refine ⟨fun {k r} hr hnone => ?_, hl.apart⟩
  rcases getElem?_set_cases hr with ⟨rfl, rfl⟩ | ⟨-, hr⟩
  · rw [hq] at hnone ⊢
    exact hl.handle hs hnone
  · exact hl.handle hr hnone

theorem Reached.owned (h : Reached tended t l) : l.Owned := by
  induction h with
  | new => exact ⟨nofun, fun ha => (List.not_mem_nil ha).elim⟩
  | @move l l' m before ok hm ih =>
    have hmoved := moved_of_move hm
    cases m with
    | acts i how => exact ih.act before hmoved
    | opens queue style faults mapSize =>
      cases hm
      refine ⟨fun hs hnone => ?_, ih.apart⟩
      rcases getElem?_concat_cases hs with hs | ⟨-, rfl⟩
      · exact ih.handle hs hnone
      · exact absurd hnone ok
    | raises n =>
      obtain ⟨s, hs, rfl⟩ := Option.map_eq_some_iff.1 hm
      exact ih.setSession hs rfl
    | spoils n faults =>
      obtain ⟨s, hs, rfl⟩ := Option.map_eq_some_iff.1 hm
      exact ih.setSession hs rfl
    | crashes =>
      cases hm
      exact ⟨nofun, fun ha => (List.not_mem_nil ha).elim⟩
    | _ =>
      cases hmoved with
      | enlists hj => exact ih.enlist ok hj

/-! ### How far a shutdown has come -/

/-- Whether an actor goes on by a move because the time of one of its waits is over. -/
def expires (l : Life) (i : Nat) : Move → Bool
  | .acts k (.step now) =>
    k = i && (l.actors[i]?.any (fun a => a.job.hasExpired) || decide (l.GivesUp i now))
  | _ => false

/-- What may happen where queues are tended, unless one actor goes on because the time of one of its
    waits is over. -/
def patient (i : Nat) (l : Life) (m : Move) : Prop := tended l m ∧ l.expires i m = false

instance (i : Nat) (l : Life) (m : Move) : Decidable (patient i l m) :=
  inferInstanceAs (Decidable (_ ∧ _))

/-- The first shutdown of a queue has come as far as this. The queue is closed, its forwarder is
    held until it has ended, and any other shutdown has nothing to do; once it has been seen that no
    commit is running, no put is under way or to come, and once the wait for the forwarder is over,
    nobody forwards any more. -/
structure Ends (l : Life) (i n : Nat) (stop : Stop) : Prop where
  actor : l.actors[i]? = some ⟨n, .stopping true stop⟩
  begun : stop ≠ .entering
  queue : ∃ s, l.sessions[n]? = some s ∧ s.queue.closed = true ∧
    (s.queue.handle = none → stop.hasJoined = true)
  others : ∀ {k : Nat} {j : Job}, k ≠ i → l.actors[k]? = some ⟨n, j⟩ → j.Yields
  settled : stop.hasSettled = true → l.Drained n (· ≠ .refused (.transaction .closed))
  joined : stop.hasJoined = true → l.Left n

/-- The first step of a shutdown that is the first one of its queue. -/
theorem Ends.begin {now : Nat} {s : Session} (hr : Reached tended t l)
    (ha : l.actors[i]? = some ⟨n, .stopping true .entering⟩) (hs : l.sessions[n]? = some s)
    (hq : s.queue.closed = false) (hm : l.move (.acts i (.step now)) = some l') :
    l'.Ends i n .raising := by
  have hmem := List.mem_of_getElem? ha
  have hopen : s.queue.closed ≠ true := by
    rw [hq]
    exact nofun
  have hdropped : ∀ a ∈ l.actors, a.session = n → a.job.isDropping ≠ true := fun a hb hn hd =>
    absurd (hr.owned.apart hb hmem hn hd) nofun
  cases moved_of_move hm with
  | enlists hj => cases hj
  | @acts _ _ a s₁ s' j news hb hs₁ hstep =>
    obtain rfl := Option.some.inj (ha.symm.trans hb)
    obtain rfl := Option.some.inj (hs.symm.trans hs₁)
    cases hstep with
    | stop hstop =>
      cases Stop.turn_of_step hstop with
      | forget hclosed => exact absurd hclosed hopen
      | begin =>
        have hi := (List.getElem?_eq_some_iff.1 ha).1
        have hn := (List.getElem?_eq_some_iff.1 hs).1
        refine ⟨List.getElem?_set_self hi, nofun,
          ⟨_, List.getElem?_set_self hn, rfl, fun hnone => ?_⟩, fun {k j} hk hb => ?_, nofun, nofun⟩
        · -- nobody has let go of the forwarder
          rcases hr.owned.handle hs hnone with hclosed | ⟨a, ha, hsession, hd⟩
          · exact absurd hclosed hopen
          · exact absurd hd (hdropped a ha hsession)
        · rw [List.getElem?_set_ne hk.symm] at hb
          cases j with
          | stopping graceful stop =>
            cases graceful with
            | false => exact absurd rfl (hdropped _ (List.mem_of_getElem? hb) rfl)
            | true =>
              obtain ⟨s₂, hs₂, hbegun⟩ := hr.each stable_hasBegun hb
              obtain rfl := Option.some.inj (hs.symm.trans hs₂)
              cases stop with
              | entering => exact .inl rfl
              | _ => exact absurd (hbegun rfl) hopen
          | _ => trivial

/-- Nobody begins to forward for a queue that has begun to end. -/
theorem Left.move (hl : l.Left n) (ok : tended l m) (hc : m.isCrash = false)
    (hm : l.move m = some l') : l'.Left n := by
  cases m with
  | acts i how => exact hl.act hm
  | sends n' p nonce e =>
    obtain ⟨l₁, h₁, rfl⟩ := Option.map_eq_some_iff.1 hm
    obtain ⟨-, rfl⟩ := enlist_cases h₁
    exact hl.enlist nofun
  | forwards n' s loops =>
    obtain ⟨-, rfl⟩ := enlist_cases hm
    refine hl.enlist fun _ hn => ?_
    obtain ⟨a, ha, hsession, hstop⟩ := hl.stopping
    rw [ok a ha (hsession.trans hn.symm)] at hstop
    cases hstop
  | stops n' graceful =>
    obtain ⟨-, rfl⟩ := enlist_cases hm
    exact hl.enlist nofun
  | opens queue style faults mapSize =>
    cases hm
    exact hl.of_actors rfl
  | raises n' =>
    obtain ⟨s, hs, rfl⟩ := Option.map_eq_some_iff.1 hm
    exact hl.of_actors rfl
  | spoils n' faults =>
    obtain ⟨s, hs, rfl⟩ := Option.map_eq_some_iff.1 hm
    exact hl.of_actors rfl
  | crashes => cases hc

namespace Ends

/-- Others have nothing to do with the end of the queue afterwards. -/
theorem others_moved (he : l.Ends i n stop) (hr : Reached tended t l) (h : Moved l m l')
    (hk : k ≠ i) (ha' : l'.actors[k]? = some ⟨n, j⟩) : j.Yields := by
  obtain ⟨-, ⟨⟨n', job⟩, s, s', ha, hs, -, hbefalls⟩ | ⟨-, hj, -⟩⟩ :=
    h.befallen_or_new ha' hr.session_of_actor
  · obtain rfl : n = n' := hbefalls.session
    obtain ⟨s₁, hs₁, hq, -⟩ := he.queue
    obtain rfl := Option.some.inj (hs.symm.trans hs₁)
    have hbefore := he.others hk ha
    cases hbefalls with
    | acts hstep => exact (hstep.yields hq hbefore).1
    | _ => exact hbefore
  · cases hj with
    | stops => exact .inl rfl
    | _ => trivial

/-- A shutdown that does not go on because its time is over has waited until nobody forwards any
    more. -/
theorem left_of_join {now deadline : Nat} {died : Bool} {s : Session} {y : Stop × Queue × Hub}
    (he : l.Ends i n (.joining deadline)) (hs : l.sessions[n]? = some s)
    (hp : l.expires i (.acts i (.step now)) = false)
    (hstep : Stop.step true (l.hasEnded n) died now (s.over l.files).queue (s.over l.files).hub
      (.joining deadline) = some y) : l.Left n := by
  have hended : l.hasEnded n = true := by
    obtain ⟨-, hend⟩ := Job.stop_cases hstep
    obtain ⟨s₁, hs₁, -, hhandle⟩ := he.queue
    obtain rfl := Option.some.inj (hs.symm.trans hs₁)
    cases hend with
    | goOn keeps handle hc =>
      simp only [Stop.step] at hstep
      split at hstep
      · next hnone => cases hhandle hnone
      · split at hstep
        · cases hstep
          exact absurd rfl hc
        · cases hstep
    | join keeps hover =>
      rcases hover with hnone | hended | hlate
      · cases hhandle hnone
      · exact hended
      · by_contra hne
        have hgives : l.GivesUp i now := ⟨_, he.actor, deadline, rfl, hlate, by simpa using hne⟩
        simp [expires, hgives] at hp
  exact ⟨hasEnded_eq_true_iff.1 hended, _, List.mem_of_getElem? he.actor, rfl, rfl⟩

/-- Its own step takes a shutdown on. -/
theorem act {now : Nat} {s : Session} {queue : Queue} {h : Hub} {stop' : Stop}
    (he : l.Ends i n stop) (hr : Reached tended t l) (hs : l.sessions[n]? = some s)
    (hp : l.expires i (.acts i (.step now)) = false)
    (hstop : stop.step true (l.hasEnded n) (l.hasDied n) now (s.over l.files).queue
      (s.over l.files).hub = some (stop', queue, h))
    (hm : l.move (.acts i (.step now)) = some l')
    (ha' : l'.actors[i]? = some ⟨n, .stopping true stop'⟩)
    (hs' : l'.sessions[n]? = some ⟨h, queue⟩) : l'.Ends i n stop' := by
  have hmoved := moved_of_move hm
  obtain ⟨s₁, hs₁, hq, hhandle⟩ := he.queue
  obtain rfl := Option.some.inj (hs.symm.trans hs₁)
  have hothers := fun {k j} => he.others_moved (k := k) (j := j) hr hmoved
  have hdrained := fun hsettled => (he.settled hsettled).moved hmoved rfl
  have hleft : l.Left n → l'.Left n := fun hl => hl.act hm
  cases Stop.turn_of_step hstop with
  | forget => exact absurd rfl he.begun
  | begin => exact absurd rfl he.begun
  | raise => exact ⟨ha', nofun, ⟨_, hs', hq, hhandle⟩, hothers, nofun, nofun⟩
  | wake => exact ⟨ha', nofun, ⟨_, hs', hq, hhandle⟩, hothers, nofun, nofun⟩
  | wait => exact ⟨ha', nofun, ⟨_, hs', hq, hhandle⟩, hothers, nofun, nofun⟩
  | settle =>
    -- it has just seen that no commit is running
    have hsettled := (hr.drained_of_settled he.actor).moved hmoved rfl
    exact ⟨ha', nofun, ⟨_, hs', hq, hhandle⟩, hothers, fun _ => hsettled, nofun⟩
  | expire => simp [expires, he.actor, Job.hasExpired, Stop.hasExpired] at hp
  | join =>
    have hjoined := hleft (he.left_of_join hs hp hstop)
    exact ⟨ha', nofun, ⟨_, hs', hq, fun _ => rfl⟩, hothers, fun _ => hdrained rfl, fun _ => hjoined⟩
  | close =>
    exact ⟨ha', nofun, ⟨_, hs', hq, fun _ => rfl⟩, hothers, fun _ => hdrained rfl,
      fun _ => hleft (he.joined rfl)⟩

/-- A move takes a shutdown on, or leaves it where it is. -/
theorem move (he : l.Ends i n stop) (hr : Reached tended t l) (ok : patient i l m)
    (hc : m.isCrash = false) (hm : l.move m = some l') :
    ∃ stop', l'.Ends i n stop' ∧ (stop = .done → stop' = .done) := by
  have hmoved := moved_of_move hm
  obtain ⟨s, hs, hq, hhandle⟩ := he.queue
  obtain ⟨⟨n', j⟩, s', ha', hs', hbefalls⟩ := hmoved.befalls hc he.actor hs
  obtain rfl : n' = n := hbefalls.session
  -- unless the shutdown itself goes on
  have hstay : j = .stopping true stop → s'.queue = s.queue →
      ∃ stop', l'.Ends i n' stop' ∧ (stop = .done → stop' = .done) := by
    rintro rfl hqueue
    refine ⟨stop, ⟨ha', he.begun, ⟨s', hs', ?_⟩, he.others_moved hr hmoved,
      fun hsettled => (he.settled hsettled).moved hmoved hc,
      fun hjoined => (he.joined hjoined).move ok.1 hc hm⟩, id⟩
    rw [hqueue]
    exact ⟨hq, hhandle⟩
  cases hbefalls with
  | spared => exact hstay rfl rfl
  | @other k b how _ _ _ hk hb same hstep =>
    obtain ⟨n, job⟩ := b
    obtain rfl : n = n' := same
    exact hstay rfl (hstep.yields hq (he.others hk hb)).2
  | raised => exact hstay rfl rfl
  | spoiled faults => exact hstay rfl rfl
  | acts hstep =>
    cases hstep with
    | stop hstop =>
      refine ⟨_, he.act hr hs ok.2 hstop hm ha' hs', fun hdone => ?_⟩
      subst hdone
      cases hstop

variable {ms : List Move}

/-- A run takes a shutdown on, or leaves it where it is. -/
theorem run (he : l.Ends i n stop) (hr : Reached tended t l)
    (hrun : l.run (lasting (patient i)) ms = some l') : ∃ stop', l'.Ends i n stop' := by
  refine (run_keeps (P := fun l => Reached tended t l ∧ ∃ stop, l.Ends i n stop) ⟨hr, stop, he⟩ hrun
    fun hl₁ ok hm => ?_).2
  obtain ⟨hr₁, stop₁, he₁⟩ := hl₁
  obtain ⟨stop₂, he₂, -⟩ := he₁.move hr₁ ok.1 ok.2 hm
  exact ⟨hr₁.move ok.1.1 hm, stop₂, he₂⟩

/-- A shutdown that is over does not wait. -/
theorem expires_eq_false (he : l.Ends i n .done) (m : Move) : l.expires i m = false := by
  have hgives : ∀ now, ¬ l.GivesUp i now := by
    rintro now ⟨a, ha, deadline, hdeadline, -⟩
    obtain rfl := Option.some.inj (he.actor.symm.trans ha)
    cases hdeadline
  unfold expires
  split
  · simp [he.actor, hgives, Job.hasExpired, Stop.hasExpired]
  · rfl

/-- A shutdown that is over stays so. -/
theorem rest_move (he : l.Ends i n .done) (hr : Reached tended t l) (ok : tended l m)
    (hc : m.isCrash = false) (hm : l.move m = some l') : l'.Ends i n .done := by
  obtain ⟨stop, he', hdone⟩ := he.move hr ⟨ok, he.expires_eq_false m⟩ hc hm
  obtain rfl := hdone rfl
  exact he'

theorem rest (he : l.Ends i n .done) (hr : Reached tended t l)
    (hrun : l.run (lasting tended) ms = some l') : l'.Ends i n .done :=
  (run_keeps (P := fun l => Reached tended t l ∧ l.Ends i n .done) ⟨hr, he⟩ hrun
    fun ⟨hr₁, he₁⟩ ok hm => ⟨hr₁.move ok.1 hm, he₁.rest_move hr₁ ok.1 ok.2 hm⟩).2

end Ends

end Life

/-! ### The store is closed -/

/-- A task that is over but for the bell leaves the store alone. -/
theorem CommitTask.Step.store_of_over {h : Hub} {task task' : CommitTask} {store : Store}
    {e : CommitEnd} (hs : Step h task task' store) (hover : task = .ringing e ∨ task = .ended e) :
    store = h.store := by
  rcases hover with rfl | rfl
  · cases hs
    rfl
  · cases hs

namespace Life

variable {l l' : Life} {m : Move} {t : Table} {i k n : Nat} {j : Job} {stop stop' : Stop}
  {ms : List Move}

/-- A store that can be reached stays so, unless it begins to misbehave in this way. -/
theorem Befalls.closing_eq_none {a a' : Actor} {s s' : Session} (h : Befalls l i a s m a' s')
    (hm : ∀ faults, m = .spoils a.session faults → faults.closing = none)
    (hs : s.hub.faults.closing = none) : s'.hub.faults.closing = none := by
  cases h with
  | spared => exact hs
  | raised => exact hs
  | spoiled faults => exact hm faults rfl
  | other hk hb same hstep =>
    rw [hstep.faults_eq]
    exact hs
  | acts hstep =>
    rw [hstep.faults_eq]
    exact hs

/-- A shutdown that has begun is over only when it has closed the store, unless the store cannot be
    reached. -/
theorem Befalls.closed_of_done {s s' : Session} {n' : Nat}
    (h : Befalls l i ⟨n, .stopping true stop⟩ s m ⟨n', .stopping true .done⟩ s')
    (begun : stop ≠ .entering) (hs : s.hub.faults.closing = none)
    (hbefore : stop = .done → s.hub.store.closed = true) : s'.hub.store.closed = true := by
  cases h with
  | spared => exact hbefore rfl
  | raised => exact hbefore rfl
  | spoiled faults => exact hbefore rfl
  | other hk hb same hstep => exact hstep.onward.closed (hbefore rfl)
  | acts hstep =>
    cases hstep with
    | stop hstop =>
      generalize hnext : Stop.done = next at hstop
      cases Stop.turn_of_step hstop with
      | forget => exact absurd rfl begun
      | close hc =>
        subst hc
        show (s.hub.faults.close (s.hub.store.over l.files)).2.closed = true
        unfold Faults.close
        rw [hs]
        rfl
      | _ => cases hnext

/-- So it is at the end of a run. -/
theorem Ends.closed_of_run {s : Session} (he : l.Ends i n stop) (hr : Reached tended t l)
    (hrun : l.run (lasting (patient i)) ms = some l')
    (hspoils : ∀ faults, .spoils n faults ∈ ms → faults.closing = none)
    (hs : l.sessions[n]? = some s) (hclose : s.hub.faults.closing = none)
    (hbefore : stop = .done → s.hub.store.closed = true)
    (hdone : l'.actors[i]? = some ⟨n, .stopping true .done⟩) :
    (l'.session? n).map (·.hub.store.closed) = some true := by
  induction ms generalizing l stop s with
  | nil =>
    cases hrun
    cases he.actor.symm.trans hdone
    have hsession : l'.session? n = some (s.over l'.files) := congrArg _ hs
    rw [hsession]
    exact congrArg some (hbefore rfl)
  | cons m ms ih =>
    obtain ⟨l₁, ok, hm, hrest⟩ := run_cons.1 hrun
    obtain ⟨stop₁, he₁, -⟩ := he.move hr ok.1 ok.2 hm
    obtain ⟨a, s₁, ha, hs₁, hbefalls⟩ := (moved_of_move hm).befalls ok.2 he.actor hs
    obtain rfl := Option.some.inj (he₁.actor.symm.trans ha)
    refine ih he₁ (hr.move ok.1.1 hm) hrest
      (fun faults hmem => hspoils faults (List.mem_cons_of_mem _ hmem)) hs₁
      (hbefalls.closing_eq_none (fun faults heq => hspoils faults (heq ▸ List.mem_cons_self ..))
        hclose) ?_
    rintro rfl
    exact hbefalls.closed_of_done he.begun hclose hbefore

/-! ### What is done afterwards -/

/-- The end of a queue takes a step that it can take. -/
theorem exists_act_of_stop {graceful : Bool} {now : Nat} {s : Session} {queue : Queue} {h : Hub}
    (ha : l.actors[k]? = some ⟨n, .stopping graceful stop⟩) (hs : l.sessions[n]? = some s)
    (hstep : stop.step graceful (l.hasEnded n) (l.hasDied n) now (s.over l.files).queue
      (s.over l.files).hub = some (stop', queue, h)) :
    ∃ l', l.act k (.step now) = some l' ∧
      l'.actors[k]? = some ⟨n, .stopping graceful stop'⟩ := by
  have hsession : l.session? n = some (s.over l.files) := congrArg _ hs
  have hact : l.act k (.step now) = some ⟨h.store.files, l.sessions.set n ⟨h, queue⟩,
      l.actors.set k ⟨n, .stopping graceful stop'⟩, l.history⟩ := by
    simp [act, ha, hsession, Job.act, hstep]
  exact ⟨_, hact, List.getElem?_set_self (List.getElem?_eq_some_iff.1 ha).1⟩

/-- A shutdown that is about to close the store is over after that, whatever comes of it. -/
theorem Reached.exists_act_of_closing {allowed : Life → Move → Prop} (hr : Reached allowed t l)
    (ha : l.actors[i]? = some ⟨n, .stopping true .closing⟩) (now : Nat) :
    ∃ l', l.act i (.step now) = some l' ∧ l'.actors[i]? = some ⟨n, .stopping true .done⟩ := by
  obtain ⟨s, hs⟩ := hr.session_of_actor ha
  have hstep : ∃ queue h, Stop.step true (l.hasEnded n) (l.hasDied n) now (s.over l.files).queue
      (s.over l.files).hub .closing = some (.done, queue, h) := by
    simp only [Stop.step]
    split <;> exact ⟨_, _, rfl⟩
  obtain ⟨queue, h, hstep⟩ := hstep
  exact exists_act_of_stop ha hs hstep

/-- When the first shutdown of a queue has begun, every other end of it is over at once. -/
theorem Ends.exists_act {graceful : Bool} (he : l.Ends i n .done)
    (ha : l.actors[k]? = some ⟨n, .stopping graceful stop⟩) :
    stop = .done ∨ ∀ now, ∃ l', l.act k (.step now) = some l' ∧
      l'.actors[k]? = some ⟨n, .stopping graceful .done⟩ := by
  obtain ⟨s, hs, hq, -⟩ := he.queue
  by_cases hk : k = i
  · subst hk
    cases he.actor.symm.trans ha
    exact .inl rfl
  · rcases he.others hk ha with rfl | rfl
    · exact .inr fun now => exists_act_of_stop ha hs (if_pos hq)
    · exact .inl rfl

/-- When the first shutdown of a queue is over, those who work for the queue do nothing to the
    files. -/
theorem Ends.files_of_act {how : Act} (he : l.Ends i n .done) (ha : l.actors[k]? = some ⟨n, j⟩)
    (h : l.act k how = some l') : l'.files = l.files := by
  obtain @⟨a, s, s', j', news, hb, hs, hstep⟩ := act_cases h
  obtain rfl := Option.some.inj (ha.symm.trans hb)
  have hlive : j.isForwarding = false := (he.joined rfl).ended _ (List.mem_of_getElem? ha) rfl
  have hrest := (he.settled rfl).rest ha
  show s'.hub.store.files = l.files
  rw [← files_of_session hs]
  cases hstep with
  | forward hw live => rw [Job.isForwarding_of_live live] at hlive; cases hlive
  | answer hw live => rw [Job.isForwarding_of_live live] at hlive; cases hlive
  | call hs same => exact congrArg Store.files same
  | task htask =>
    obtain ⟨ht, hturn⟩ := htask
    obtain ⟨e, hover, -⟩ := hrest.2 _ ht
    exact congrArg Store.files (hturn.store_of_over hover)
  | drop => rfl
  | stop same => exact same

/-- What may happen where queues are tended and none but those who work for one of them act. -/
def within (n : Nat) (l : Life) (m : Move) : Prop :=
  tended l m ∧ ∀ k ∈ m.actor?, ∃ a ∈ l.actors[k]?, a.session = n

instance (n : Nat) (l : Life) (m : Move) : Decidable (within n l m) :=
  inferInstanceAs (Decidable (_ ∧ _))

theorem Ends.files_of_run (he : l.Ends i n .done) (hr : Reached tended t l)
    (hrun : l.run (lasting (within n)) ms = some l') : l'.files = l.files := by
  refine (run_keeps (P := fun k => Reached tended t k ∧ k.Ends i n .done ∧ k.files = l.files)
    ⟨hr, he, rfl⟩ hrun fun {l₁ l₂ m} hl₁ ok hm => ?_).2.2
  obtain ⟨hr₁, he₁, hfiles⟩ := hl₁
  refine ⟨hr₁.move ok.1.1 hm, he₁.rest_move hr₁ ok.1.1 ok.2 hm, ?_⟩
  rw [← hfiles]
  cases moved_of_move hm with
  | @acts k how a s s' j news ha hs hstep =>
    obtain ⟨b, hb, hn⟩ := ok.1.2 k rfl
    obtain rfl : a = b := Option.some.inj (ha.symm.trans hb)
    obtain ⟨n', j'⟩ := a
    obtain rfl : n' = n := hn
    exact he₁.files_of_act ha hm
  | crashes => cases ok.2
  | _ => rfl

/-- Whoever opens the store next, while it is in use or after everything has crashed, finds these
    entries. -/
def Finds (l : Life) (t : Table) : Prop :=
  ∀ l₁, l₁ = l ∨ l.move .crashes = some l₁ →
    ∀ (queue : Queue) (style : SinkStyle) (faults : Faults) (mapSize : Nat), ∃ l₂ s,
      l₁.move (.opens queue style faults mapSize) = some l₂ ∧
        l₂.session? l₁.sessions.length = some s ∧ s.hub.store.table = t

theorem finds_table (l : Life) : l.Finds l.files.table := by
  rintro l₁ hl₁ queue style faults mapSize
  have htable : l₁.files.table = l.files.table := by
    rcases hl₁ with rfl | hcrash
    · rfl
    · cases hcrash
      rfl
  refine ⟨_, _, rfl, congrArg _ List.getElem?_concat_length, htable⟩

/-- Every shutdown that comes later, and every drop of the queue, is over after one step; and while
    nobody acts but those who work for the queue, the next to open the store finds what is there
    now. -/
def StaysShut (l : Life) (n : Nat) : Prop :=
  (∀ ms l', l.run (lasting tended) ms = some l' → ∀ k graceful stop,
    l'.actors[k]? = some ⟨n, .stopping graceful stop⟩ →
      stop = .done ∨ ∀ now, ∃ l₁, l'.act k (.step now) = some l₁ ∧
        l₁.actors[k]? = some ⟨n, .stopping graceful .done⟩) ∧
  ∀ ms l', l.run (lasting (within n)) ms = some l' → l'.Finds l.files.table

/-- A queue is open, whatever is in its store and whatever its threads and its producers are about.
    When its first shutdown is over and neither of its two waits has ended because its time was
    over:

    * the shutdown has returned, and would have whatever had come of closing the store;
    * its forwarder has ended, no put of its calls is under way or to come, none of them has been
      refused because the store was closed, and the store is closed, unless it could not be reached;
    * the entries are those of the start and those committed since, less what has been removed, and
      what its threads have removed in the run was removed by passes that then delivered;
    * whoever begins to send is turned away, every further shutdown and a drop of the queue are over
      at once, and the next to open the store finds the entries that are there now. -/
theorem shut_for_good {l₀ l₁ : Life} {now : Nat} {ms₀ : List Move} (h : Reached tended t l)
    (hrun₀ : l.run (lasting tended) ms₀ = some l₀)
    (hshut : l₀.actors[i]? = some ⟨n, .stopping true .entering⟩)
    (hopen : (l₀.session? n).map (·.queue.closed) = some false)
    (hrun : l₀.run (lasting (patient i)) (.acts i (.step now) :: ms) = some l₁)
    (hdone : l₁.actors[i]? = some ⟨n, .stopping true .done⟩) :
    (∀ ms' l', l₀.run (lasting tended) ms' = some l' →
      l'.actors[i]? = some ⟨n, .stopping true .closing⟩ →
        ∀ now', ∃ l'', l'.act i (.step now') = some l'' ∧
          l''.actors[i]? = some ⟨n, .stopping true .done⟩) ∧
    l₁.hasEnded n = true ∧
    (∀ (k : Nat) (e : Event) (sub : Submission), l₁.actors[k]? = some ⟨n, .sending e sub⟩ →
      sub.AtRest (· ≠ .refused (.transaction .closed))) ∧
    ((l₀.session? n).map (·.hub.faults.closing) = some none →
      (∀ faults, .spoils n faults ∈ ms → faults.closing = none) →
        (l₁.session? n).map (·.hub.store.closed) = some true) ∧
    l₁.files.table = replay t l₁.history ∧
    l.Completes (ms₀ ++ .acts i (.step now) :: ms) n ∧
    l₁.TurnsAway n ∧ l₁.StaysShut n := by
  have hr₀ : Reached tended t l₀ := h.later hrun₀
  have hpatient : ∀ l m, lasting (patient i) l m → lasting tended l m :=
    fun l m ok => ⟨ok.1.1, ok.2⟩
  have hr₁ : Reached tended t l₁ := hr₀.later (run_mono hpatient hrun)
  obtain ⟨_, hsession, hq⟩ := Option.map_eq_some_iff.1 hopen
  obtain ⟨s, hs, rfl⟩ := Option.map_eq_some_iff.1 hsession
  -- the first step finds the queue open, and from then on the shutdown is under way
  obtain ⟨l₂, ok, hm, hrest⟩ := run_cons.1 hrun
  have hr₂ : Reached tended t l₂ := hr₀.move ok.1.1 hm
  have hbegin : l₂.Ends i n .raising := .begin hr₀ hshut hs hq hm
  obtain ⟨stop, hends⟩ := hbegin.run hr₂ hrest
  cases hends.actor.symm.trans hdone
  have hdrained := hends.settled rfl
  have hended : l₁.hasEnded n = true := hasEnded_eq_true_iff.2 (hends.joined rfl).ended
  obtain ⟨s₁, hs₁, up⟩ := hdrained.up
  refine ⟨fun ms' l' hrun' ha now' => (hr₀.later hrun').exists_act_of_closing ha now', hended,
    fun k e sub ha => hdrained.rest ha, fun hspared hspoils => ?_, hr₁.table_eq_replay,
    completes_of_run h (run_append.2 ⟨l₀, hrun₀, run_mono hpatient hrun⟩) hended,
    turnsAway_of_up hs₁ up, fun ms₂ l' hrun₂ k graceful stop ha =>
      (hends.rest hr₁ hrun₂).exists_act ha, fun ms₂ l' hrun₂ => ?_⟩
  · rw [hsession] at hspared
    have hspared : s.hub.faults.closing = none := Option.some.inj hspared
    obtain ⟨a, s₂, ha, hs₂, hbefalls⟩ := (moved_of_move hm).befalls ok.2 hshut hs
    exact hbegin.closed_of_run hr₂ hrest hspoils hs₂
      (hbefalls.closing_eq_none (fun _ => nofun) hspared) nofun hdone
  · rw [← hends.files_of_run hr₁ hrun₂]
    exact l'.finds_table

instance (a : Option Actor) (n : Nat) (graceful : Bool) (stop : Stop) :
    Decidable (a = some ⟨n, .stopping graceful stop⟩) :=
  match a with
  | some ⟨n', .stopping graceful' stop'⟩ =>
    decidable_of_iff (n' = n ∧ graceful' = graceful ∧ stop' = stop) (by simp)
  | some ⟨_, .forwarding _ _⟩ | some ⟨_, .sending _ _⟩ | none => isFalse nofun

/-- One event is with the sink, another one is being committed, and the queue is about to be shut
    down. -/
def busy : List Move :=
  reopening 1 :: (submitting 0 letter ++ [.forwards 0 (.of .plaintext 1 0) true] ++
    List.replicate 8 (.acts 1 (.step 0)) ++ [.sends 0 ⟨.plaintext, 0⟩ (.ofNat 0) postcard] ++
    List.replicate 3 (.acts 2 (.step 0)) ++ [.stops 0 true])

/-- The shutdown has begun to wait when the files cease to be flushed, the sink accepts the one
    event and the other one is committed; then it goes on. -/
def windingDown : List Move :=
  List.replicate 4 (.acts 3 (.step 0)) ++
    [.spoils 0 { Faults.none with syncing := some .mapFull }, .acts 1 (.answer .accepted)] ++
    List.replicate 7 (.acts 1 (.step 0)) ++ List.replicate 11 (.acts 2 .task) ++
    List.replicate 6 (.acts 3 (.step 0))

/-- Another event is sent, and the queue is shut down once more and dropped. -/
def knocking : List Move :=
  .sends 0 ⟨.plaintext, 0⟩ (.ofNat 0) letter :: (List.replicate 4 (.acts 4 (.step 0)) ++
    [.stops 0 true, .acts 5 (.step 0), .stops 0 false, .acts 6 (.step 0)])

theorem shut_for_good_of_busy :
    let l₀ := (Life.new .empty).onward (lasting tended) busy
    let ms := .acts 3 (.step 0) :: windingDown
    let l₁ := l₀.onward (lasting (patient 3)) ms
    let l₂ := l₁.onward (lasting (within 0)) knocking
    ((Life.new .empty).run (lasting tended) busy = some l₀ ∧
      l₀.actors[3]? = some ⟨0, .stopping true .entering⟩ ∧
      (l₀.session? 0).map (·.queue.closed) = some false ∧
      l₀.run (lasting (patient 3)) ms = some l₁ ∧
      l₁.actors[3]? = some ⟨0, .stopping true .done⟩) ∧
    l₁.hasEnded 0 = true ∧
    (l₁.session? 0).map (·.hub.store.closed) = some true ∧
    l₁.files.table = replay .empty l₁.history ∧ l₁.files.table.toList = [postcardEntry] ∧
    (Life.new .empty).Completes (busy ++ ms) 0 ∧
    l₂.actors[6]? = some ⟨0, .stopping false .done⟩ ∧ l₂.Finds l₁.files.table := by
  intro l₀ ms l₁ l₂
  have hrun₀ : (Life.new .empty).run (lasting tended) busy = some l₀ :=
    run_onward (by decide +kernel)
  have hshut : l₀.actors[3]? = some ⟨0, .stopping true .entering⟩ := by decide +kernel
  have hopen : (l₀.session? 0).map (·.queue.closed) = some false := by decide +kernel
  have hrun : l₀.run (lasting (patient 3)) ms = some l₁ := run_onward (by decide +kernel)
  have hdone : l₁.actors[3]? = some ⟨0, .stopping true .done⟩ := by decide +kernel
  have hlater : l₁.run (lasting (within 0)) knocking = some l₂ := run_onward (by decide +kernel)
  have hspared : (l₀.session? 0).map (·.hub.faults.closing) = some none := by decide +kernel
  have hspoils : ∀ faults, .spoils 0 faults ∈ windingDown → faults.closing = none := by
    intro faults hmem
    have hfaults : faults = { Faults.none with syncing := some .mapFull } := by
      simpa [windingDown] using hmem
    rw [hfaults]
    rfl
  obtain ⟨-, hended, -, hclosed, htable, hcompletes, -, -, hfinds⟩ :=
    shut_for_good .new hrun₀ hshut hopen hrun hdone
  exact ⟨⟨hrun₀, hshut, hopen, hrun, hdone⟩, hended, hclosed hspared hspoils, htable,
    by decide +kernel, hcompletes, by decide +kernel, hfinds knocking l₂ hlater⟩

end Life

end Outbox
