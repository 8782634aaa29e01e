import Outbox.Proofs.Forwarder.Settle
import Outbox.Proofs.Life.Record

namespace Outbox

/-!
# Lives in which nothing hinders forwarding

* `Life.hindersNothing` — the sink accepts, removals are committed, one cipher is used, one thread
  forwards at a time, and a queue that ends waits until its forwarder has ended. Puts may fail.
* `Life.Left` — a queue has begun to end, and nobody forwards for it any more.
* `Life.Orderly` — a store is closed, and a forwarder is let go of, only when this is so.
* `Life.Reached.orderly` — this holds throughout.
-/

namespace Job

/-- Whether an actor is the end of a queue. -/
def isStopping : Job → Bool
  | stopping _ _ => true
  | _ => false

/-- The time until which the end of a queue waits for its forwarder. -/
def joining? : Job → Option Nat
  | stopping _ (.joining deadline) => some deadline
  | _ => none

variable {ended : Bool} {how : Act} {s s' : Session} {past : Nat} {j j' : Job}
  {news : List Occurrence}

/-- A thread that forwards after a step did so before it, and a queue that ends goes on to end. -/
theorem Step.kind (h : Step ended past s how j j' s' news) :
    (j'.isForwarding = true → j.isForwarding = true) ∧ j'.isStopping = j.isStopping := by
  cases h with
  | forward hw live keeps => exact ⟨fun _ => isForwarding_of_live live, rfl⟩
  | answer hw live keeps => exact ⟨fun _ => isForwarding_of_live live, rfl⟩
  | call => exact ⟨id, rfl⟩
  | task => exact ⟨id, rfl⟩
  | drop => exact ⟨id, rfl⟩
  | stop => exact ⟨id, rfl⟩

end Job

namespace Life

variable {l l' : Life} {c : Cipher} {i n : Nat} {how : Act}

/-- The end of a queue stops waiting for a forwarder that has not ended. -/
def GivesUp (l : Life) (i now : Nat) : Prop :=
  ∃ a ∈ l.actors[i]?, ∃ deadline ∈ a.job.joining?, deadline ≤ now ∧ l.hasEnded a.session = false

/-- What may happen where nothing hinders forwarding: values are sealed and opened with one cipher,
    the sink accepts what it is given, and whatever is removed can be committed; a thread begins to
    forward when no other one does, for a queue that has not begun to end; and a queue that ends
    waits for its forwarder. Puts may fail. -/
def hindersNothing (c : Cipher) (l : Life) : Move → Prop
  | .opens queue _ faults _ => faults.SparesRemovals ∧ queue.handle ≠ none
  | .sends _ p _ _ => p.cipher = c
  | .forwards n s _ => s.cipher = c ∧ (∀ a ∈ l.actors, a.job.isForwarding = false) ∧
      ∀ a ∈ l.actors, a.session = n → a.job.isStopping = false
  | .acts i (.step now) => ¬ l.GivesUp i now
  | .acts _ (.answer r) => r = .accepted
  | .spoils _ faults => faults.SparesRemovals
  | .crashes => False
  | .acts _ .task | .acts _ .drop | .stops _ _ | .raises _ => True

instance (f : Faults) : Decidable f.SparesRemovals :=
  decidable_of_iff (f.removing = .none ∧ f.removesNothing = false ∧ f.committing = .none)
    ⟨fun ⟨h₁, h₂, h₃⟩ => ⟨h₁, h₂, h₃⟩, fun ⟨h₁, h₂, h₃⟩ => ⟨h₁, h₂, h₃⟩⟩

instance (i now : Nat) : Decidable (l.GivesUp i now) :=
  inferInstanceAs (Decidable (∃ a ∈ l.actors[i]?, ∃ deadline ∈ a.job.joining?, deadline ≤ now ∧
    l.hasEnded a.session = false))

instance : (m : Move) → Decidable (hindersNothing c l m)
  | .opens queue _ faults _ =>
    inferInstanceAs (Decidable (faults.SparesRemovals ∧ queue.handle ≠ none))
  | .sends _ p _ _ => inferInstanceAs (Decidable (p.cipher = c))
  | .forwards n s _ =>
    inferInstanceAs (Decidable (s.cipher = c ∧ (∀ a ∈ l.actors, a.job.isForwarding = false) ∧
      ∀ a ∈ l.actors, a.session = n → a.job.isStopping = false))
  | .acts i (.step now) => inferInstanceAs (Decidable (¬ l.GivesUp i now))
  | .acts _ (.answer r) => inferInstanceAs (Decidable (r = .accepted))
  | .spoils _ faults => inferInstanceAs (Decidable faults.SparesRemovals)
  | .crashes => inferInstanceAs (Decidable False)
  | .acts _ .task | .acts _ .drop | .stops _ _ | .raises _ => inferInstanceAs (Decidable True)

theorem cipher_of_hindersNothing {m : Move} (h : hindersNothing c l m) :
    ∀ c' ∈ m.cipher?, c' = c := by
  intro c' hc
  cases m with
  | sends n p nonce e =>
    cases hc
    exact h
  | forwards n s loops =>
    cases hc
    exact h.1
  | _ => cases hc

/-- A queue has begun to end, and nobody forwards for it any more. -/
structure Left (l : Life) (n : Nat) : Prop where
  ended : ∀ a ∈ l.actors, a.session = n → a.job.isForwarding = false
  stopping : ∃ a ∈ l.actors, a.session = n ∧ a.job.isStopping = true

/-- One thread forwards at a time, removals are not hindered, and a store is closed, and a forwarder
    is let go of, only when nobody forwards for its queue any more. -/
structure Orderly (l : Life) : Prop where
  single : ∀ {i j : Nat} {a b : Actor}, l.actors[i]? = some a → l.actors[j]? = some b →
    a.job.isForwarding = true → b.job.isForwarding = true → i = j
  spares : ∀ s ∈ l.sessions, s.hub.faults.SparesRemovals
  left : ∀ {n : Nat} {s : Session}, l.sessions[n]? = some s →
    s.hub.store.closed = true ∨ s.queue.handle = none → l.Left n
  closing : ∀ {i n : Nat} {graceful : Bool},
    l.actors[i]? = some ⟨n, .stopping graceful .closing⟩ → l.Left n

theorem hasEnded_eq_true_iff :
    l.hasEnded n = true ↔ ∀ a ∈ l.actors, a.session = n → a.job.isForwarding = false := by
  unfold hasEnded
  rw [List.all_eq_true]
  refine forall₂_congr fun a _ => ?_
  by_cases ha : a.session = n
  · simp [ha]
  · simp [ha]

theorem session_cases {s : Session} (h : l.session? n = some s) :
    ∃ s₀, l.sessions[n]? = some s₀ ∧ s.queue = s₀.queue ∧ s.hub.faults = s₀.hub.faults ∧
      s.hub.store.closed = s₀.hub.store.closed := by
  obtain ⟨s₀, hs₀, rfl⟩ := Option.map_eq_some_iff.1 h
  exact ⟨s₀, hs₀, rfl, rfl, rfl⟩

theorem Left.of_actors (hl : l.Left n) (h : l'.actors = l.actors) : l'.Left n := by
  refine ⟨fun a ha => ?_, ?_⟩
  · rw [h] at ha
    exact hl.ended a ha
  · rw [h]
    exact hl.stopping

/-- One more actor that does not forward for a queue that has ended. -/
theorem Left.enlist {j : Job} {m : Nat} {history : List Occurrence} (hl : l.Left n)
    (hj : j.isForwarding = true → m ≠ n) :
    Left ⟨l.files, l.sessions, l.actors ++ [⟨m, j⟩], history⟩ n where
  ended b hb hn := by
    rcases List.mem_append.1 hb with hb | hb
    · exact hl.ended b hb hn
    · rw [List.mem_singleton.1 hb] at hn ⊢
      by_contra hne
      exact hj (by simpa using hne) hn
  stopping := by
    obtain ⟨a, ha, hrest⟩ := hl.stopping
    exact ⟨a, List.mem_append_left _ ha, hrest⟩

/-- Steps of actors start no forwarder. -/
theorem Left.act (hl : l.Left n) (h : l.act i how = some l') : l'.Left n := by
  obtain @⟨a, s, s', j, news, ha, hsess, hstep⟩ := act_cases h
  obtain ⟨hforward, hstop⟩ := hstep.kind
  have hmem := List.mem_of_getElem? ha
  refine ⟨fun b hb hn => ?_, ?_⟩
  · rcases List.mem_or_eq_of_mem_set hb with hb | rfl
    · exact hl.ended b hb hn
    · have hbefore := hl.ended a hmem hn
      by_contra hne
      rw [hforward (by simpa using hne)] at hbefore
      cases hbefore
  · -- the end of the queue may be the actor that takes the step
    exact exists_mem_set ha (fun ⟨hn, hstopping⟩ => ⟨hn, hstop.trans hstopping⟩) hl.stopping

/-- A session with a store that is closed, or without a forwarder to wait for, is left. -/
theorem Orderly.left_of_session {s : Session} (hl : l.Orderly) (hs : l.session? n = some s)
    (h : s.hub.store.closed = true ∨ s.queue.handle = none) : l.Left n := by
  obtain ⟨s₀, hs₀, hqueue, -, hclosed⟩ := session_cases hs
  rw [hqueue, hclosed] at h
  exact hl.left hs₀ h

/-- Who ends a wait for a forwarder has waited until nobody forwards any more. -/
theorem Orderly.left_of_join {s : Session} {graceful : Bool} {deadline now : Nat} (hl : l.Orderly)
    (ha : l.actors[i]? = some ⟨n, .stopping graceful (.joining deadline)⟩)
    (hs : l.session? n = some s) (hc : ¬ l.GivesUp i now)
    (hover : s.queue.handle = none ∨ l.hasEnded n = true ∨ deadline ≤ now) : l.Left n := by
  have hended : l.hasEnded n = true → l.Left n := by
    intro h
    exact ⟨hasEnded_eq_true_iff.1 h, _, List.mem_of_getElem? ha, rfl, rfl⟩
  rcases hover with hnone | h | hlate
  · exact hl.left_of_session hs (.inr hnone)
  · exact hended h
  · -- it does not give up, so the forwarder has ended by then
    by_contra hne
    exact hc ⟨_, ha, deadline, rfl, hlate, by simpa using mt hended hne⟩

/-- A step closes a store, or lets go of a forwarder, only when the session is left. -/
theorem Orderly.of_step {job j : Job} {s s' : Session} {past : Nat} {news : List Occurrence}
    (hl : l.Orderly) (hc : hindersNothing c l (.acts i how)) (ha : l.actors[i]? = some ⟨n, job⟩)
    (hs : l.session? n = some s) (h : Job.Step (l.hasEnded n) past s how job j s' news) :
    s'.hub.faults = s.hub.faults ∧
      (s'.hub.store.closed = true ∨ s'.queue.handle = none → l.Left n) ∧
      ∀ g, j = .stopping g .closing → l.Left n := by
  have hkeeps : s.hub.Keeps s'.hub → s'.queue.handle = s.queue.handle →
      (s'.hub.store.closed = true ∨ s'.queue.handle = none → l.Left n) := by
    intro keeps handle hor
    rw [keeps.closed, handle] at hor
    exact hl.left_of_session hs hor
  cases h with
  | forward hw live keeps => exact ⟨keeps.faults, hkeeps keeps rfl, nofun⟩
  | answer hw live keeps => exact ⟨keeps.faults, hkeeps keeps rfl, nofun⟩
  | call hs same keeps => exact ⟨keeps.faults, hkeeps keeps rfl, nofun⟩
  | task hs keeps => exact ⟨keeps.faults, hkeeps keeps rfl, nofun⟩
  | drop => exact ⟨rfl, hkeeps ⟨rfl, rfl⟩ rfl, nofun⟩
  | stop same hend =>
    cases hend with
    | goOn keeps handle hne =>
      refine ⟨keeps.faults, hkeeps keeps handle, fun g hj => ?_⟩
      cases hj
      exact absurd rfl hne
    | join keeps hover =>
      have hleft := hl.left_of_join ha hs hc hover
      exact ⟨keeps.faults, fun _ => hleft, fun _ _ => hleft⟩
    | close faults handle => exact ⟨faults, fun _ => hl.closing ha, nofun⟩

theorem Orderly.act (hl : l.Orderly) (hc : hindersNothing c l (.acts i how))
    (h : l.act i how = some l') : l'.Orderly := by
  have hleft : ∀ {n : Nat}, l.Left n → l'.Left n := fun hn => hn.act h
  obtain @⟨⟨n, job⟩, s, s', j, news, ha, hs, hstep⟩ := act_cases h
  obtain ⟨hforward, -⟩ := hstep.kind
  obtain ⟨hfaults, hsession, hclosing⟩ := hl.of_step hc ha hs hstep
  obtain ⟨s₀, hs₀, -, hfaults₀, -⟩ := session_cases hs
  -- who forwards has forwarded before
  have hlive : ∀ {k : Nat} {b : Actor}, (l.actors.set i ⟨n, j⟩)[k]? = some b →
      b.job.isForwarding = true → ∃ b', l.actors[k]? = some b' ∧ b'.job.isForwarding = true := by
    intro k b hb hf
    rcases getElem?_set_cases hb with ⟨rfl, rfl⟩ | ⟨-, hb⟩
    · exact ⟨_, ha, hforward hf⟩
    · exact ⟨b, hb, hf⟩
  refine ⟨fun ha' hb' hfa hfb => ?_, fun t ht => ?_, fun {m t} ht hor => ?_, fun {k m g} hb => ?_⟩
  · obtain ⟨a', ha', hfa⟩ := hlive ha' hfa
    obtain ⟨b', hb', hfb⟩ := hlive hb' hfb
    exact hl.single ha' hb' hfa hfb
  · rcases List.mem_or_eq_of_mem_set ht with ht | rfl
    · exact hl.spares t ht
    · rw [hfaults, hfaults₀]
      exact hl.spares s₀ (List.mem_of_getElem? hs₀)
  · rcases getElem?_set_cases ht with ⟨rfl, rfl⟩ | ⟨-, ht⟩
    · exact hleft (hsession hor)
    · exact hleft (hl.left ht hor)
  · rcases getElem?_set_cases hb with ⟨rfl, heq⟩ | ⟨-, hb⟩
    · cases heq
      exact hleft (hclosing g rfl)
    · exact hleft (hl.closing hb)

/-- One more actor that is not about to close a store, and forwards for no queue that has ended, and
    only when nobody else does. -/
theorem Orderly.enlist {j : Job} {m : Nat} {history : List Occurrence} (hl : l.Orderly)
    (hj : j.isForwarding = true →
      (∀ a ∈ l.actors, a.job.isForwarding = false) ∧ ¬ l.Left m)
    (hc : ∀ g, j ≠ .stopping g .closing) :
    Orderly ⟨l.files, l.sessions, l.actors ++ [⟨m, j⟩], history⟩ := by
  have hleft : ∀ {n : Nat}, l.Left n →
      Left ⟨l.files, l.sessions, l.actors ++ [⟨m, j⟩], history⟩ n :=
    fun hn => hn.enlist fun hf hmn => (hj hf).2 (hmn ▸ hn)
  refine ⟨fun {i k a b} ha hb hfa hfb => ?_, hl.spares, fun hs hor => hleft (hl.left hs hor),
    fun {i n g} ha => ?_⟩
  · rcases getElem?_concat_cases ha with ha | ⟨hi, rfl⟩
    · rcases getElem?_concat_cases hb with hb | ⟨-, rfl⟩
      · exact hl.single ha hb hfa hfb
      · rw [(hj hfb).1 a (List.mem_of_getElem? ha)] at hfa
        cases hfa
    · rcases getElem?_concat_cases hb with hb | ⟨hk, -⟩
      · rw [(hj hfa).1 b (List.mem_of_getElem? hb)] at hfb
        cases hfb
      · rw [hi, hk]
  · rcases getElem?_concat_cases ha with ha | ⟨-, ha⟩
    · exact hleft (hl.closing ha)
    · cases ha
      exact absurd rfl (hc g)

/-- A session may change as long as its store stays as open as it is, and its forwarder is not let
    go of. -/
theorem Orderly.setSession {s s' : Session} (hl : l.Orderly) (hs : l.sessions[n]? = some s)
    (hf : s'.hub.faults.SparesRemovals) (hc : s'.hub.store.closed = s.hub.store.closed)
    (hh : s'.queue.handle = s.queue.handle) :
    Orderly { l with sessions := l.sessions.set n s' } := by
  refine ⟨hl.single, fun t ht => ?_, fun {m t} ht hor => ?_, fun ha => ?_⟩
  · rcases List.mem_or_eq_of_mem_set ht with ht | rfl
    · exact hl.spares t ht
    · exact hf
  · rcases getElem?_set_cases ht with ⟨rfl, rfl⟩ | ⟨-, ht⟩
    · rw [hc, hh] at hor
      exact (hl.left hs hor).of_actors rfl
    · exact (hl.left ht hor).of_actors rfl
  · exact (hl.closing ha).of_actors rfl

theorem Orderly.move {m : Move} (hl : l.Orderly) (hc : hindersNothing c l m)
    (h : l.move m = some l') : l'.Orderly := by
  cases m with
  | opens queue style faults mapSize =>
    cases h
    refine ⟨hl.single, fun s hs => ?_, fun {n s} hs hor => ?_, fun {i n g} ha => ?_⟩
    · rcases List.mem_append.1 hs with hs | hs
      · exact hl.spares s hs
      · rw [List.mem_singleton.1 hs]
        exact hc.1
    · rcases getElem?_concat_cases hs with hs | ⟨-, rfl⟩
      · exact (hl.left hs hor).of_actors rfl
      · rcases hor with hclosed | hnone
        · cases hclosed
        · exact absurd hnone hc.2
    · exact (hl.closing ha).of_actors rfl
  | sends n p nonce e =>
    obtain ⟨l₁, h₁, rfl⟩ := Option.map_eq_some_iff.1 h
    obtain ⟨-, rfl⟩ := enlist_cases h₁
    exact hl.enlist nofun nofun
  | forwards n s loops =>
    obtain ⟨-, rfl⟩ := enlist_cases h
    obtain ⟨-, hended, hstopping⟩ := hc
    -- for a queue that has been left, there is somebody who ends it
    refine hl.enlist (fun _ => ⟨hended, fun hleft => ?_⟩) nofun
    obtain ⟨a, ha, hn, hstop⟩ := hleft.stopping
    rw [hstopping a ha hn] at hstop
    cases hstop
  | stops n graceful =>
    obtain ⟨-, rfl⟩ := enlist_cases h
    exact hl.enlist nofun nofun
  | acts i how => exact hl.act hc h
  | raises n =>
    obtain ⟨s, hs, rfl⟩ := Option.map_eq_some_iff.1 h
    exact hl.setSession hs (hl.spares s (List.mem_of_getElem? hs)) rfl rfl
  | spoils n faults =>
    obtain ⟨s, hs, rfl⟩ := Option.map_eq_some_iff.1 h
    exact hl.setSession hs hc rfl rfl
  | crashes => exact hc.elim

theorem Reached.orderly {t : Table} (h : Reached (hindersNothing c) t l) : l.Orderly := by
  induction h with
  | new =>
    refine ⟨fun {i j a b} ha => ?_, fun s hs => (List.not_mem_nil hs).elim, fun {n s} hs => ?_,
      fun {i n g} ha => ?_⟩
    · cases ha
    · cases hs
    · cases ha
  | move _ ok hm ih => exact ih.move ok hm

end Life

end Outbox
