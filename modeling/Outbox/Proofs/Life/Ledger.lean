import Outbox.Proofs.Life.Sound
import Outbox.Proofs.Text.Utf8

namespace Outbox

/-!
# What is sent and what is committed

* `sentGuids`, `committedGuids`, `committedEntries` — the identifiers of the events that have been
  sent, of those whose entries have been committed, and these entries.
* `Job.pending` — whether an actor may still commit the entry of an event.
* `Life.Ledger` — no identifier is committed or pending more often than it has been sent.
* `Life.Reached.ledger` — this holds throughout.
-/

/-! ### Identifiers -/

/-- The identifiers of the events that have been sent. -/
def sentGuids (history : List Occurrence) : List String :=
  history.filterMap fun
    | .sent e => e.guid?
    | _ => none

/-- The identifiers of the events whose entries have been committed. -/
def committedGuids (history : List Occurrence) : List String :=
  history.filterMap fun
    | .committed e _ => e.guid?
    | _ => none

/-- The entries that have been committed. -/
def committedEntries (history : List Occurrence) : List Entry :=
  history.filterMap fun
    | .committed _ x => some x
    | _ => none

/-- What is sent in two histories is sent in them one after the other. -/
theorem sentGuids_append (h h' : List Occurrence) :
    sentGuids (h ++ h') = sentGuids h ++ sentGuids h' :=
  List.filterMap_append

/-- What is committed in two histories is committed in them one after the other. -/
theorem committedGuids_append (h h' : List Occurrence) :
    committedGuids (h ++ h') = committedGuids h ++ committedGuids h' :=
  List.filterMap_append

/-- So it is with the entries. -/
theorem committedEntries_append (h h' : List Occurrence) :
    committedEntries (h ++ h') = committedEntries h ++ committedEntries h' :=
  List.filterMap_append

/-- The entry of an event has the identifier of the event as its key. -/
theorem Submission.guid_of_entry {c : Cipher} {nonce : Nonce} {e : Event} {key value : Bytes}
    (h : entry c nonce e = .ok (key, value)) :
    ∃ guid, e.guid? = some guid ∧ key = Utf8.encode guid ∧ c.sealEvent nonce e = .ok value := by
  unfold entry at h
  cases hg : e.guid? with
  | none =>
    rw [hg] at h
    cases h
  | some guid =>
    rw [hg] at h
    cases hs : c.sealEvent nonce e with
    | error fault =>
      rw [hs] at h
      cases h
    | ok v =>
      rw [hs] at h
      cases h
      exact ⟨guid, rfl, rfl, rfl⟩

namespace Job

/-- How often an actor may still commit the entry of an event with an identifier. -/
def pending (guid : String) : Job → Nat
  | sending e sub => if sub.pends = true ∧ e.guid? = some guid then 1 else 0
  | _ => 0

/-- A step after which less may be committed leaves less pending. -/
theorem pending_le {e : Event} {sub sub' : Submission} (h : sub'.pends = true → sub.pends = true)
    (guid : String) : (sending e sub').pending guid ≤ (sending e sub).pending guid := by
  show (if _ then _ else _) ≤ if _ then _ else _
  by_cases hp : sub'.pends = true ∧ e.guid? = some guid
  · refine Nat.le_of_eq ?_
    rw [if_pos hp, if_pos ⟨h hp.1, hp.2⟩]
  · rw [if_neg hp]
    exact Nat.zero_le _

/-- A commit is one of the guid of its event. -/
theorem committedGuids_committed (e : Event) (x : Entry) :
    committedGuids [.committed e x] = e.guid?.toList := by
  unfold committedGuids
  cases hg : e.guid? <;> simp [hg]

/-- Removals commit nothing. -/
theorem committedGuids_removals (c : Cipher) (t t' : Table) :
    committedGuids (removals c t t') = [] := by
  unfold committedGuids removals
  rw [List.filterMap_map]
  exact List.filterMap_eq_nil_iff.2 fun _ _ => rfl

/-- Removals send nothing. -/
theorem sentGuids_removals (c : Cipher) (t t' : Table) : sentGuids (removals c t t') = [] := by
  unfold sentGuids removals
  rw [List.filterMap_map]
  exact List.filterMap_eq_nil_iff.2 fun _ _ => rfl

variable {ended : Bool} {how : Act} {s s' : Session} {past : Nat} {j j' : Job}
  {history news : List Occurrence}

/-- A step of an actor sends nothing, and what it commits was pending. -/
theorem Step.pending (h : Step ended past s how j j' s' news)
    (hf : j.Fits s.hub.store.files history) (guid : String) :
    sentGuids news = [] ∧ (committedGuids news).count guid + j'.pending guid ≤ j.pending guid := by
  cases h with
  | forward hw =>
    rw [committedGuids_removals, sentGuids_removals]
    exact ⟨rfl, Nat.le_refl _⟩
  | @answer w w' a h r events hw => cases r <;> exact ⟨rfl, Nat.le_refl _⟩
  | @call now e sub sub' h hs same =>
    have hnil : sentGuids (confirmation e sub') = [] ∧
        committedGuids (confirmation e sub') = [] := by
      unfold confirmation
      split <;> exact ⟨rfl, rfl⟩
    refine ⟨hnil.1, ?_⟩
    rw [hnil.2, List.count_nil, Nat.zero_add]
    exact pending_le (hs.pends hf) guid
  | @task e sub sub' h hs =>
    cases hl : Submission.landing e sub sub' with
    | none =>
      refine ⟨rfl, ?_⟩
      show 0 + _ ≤ _
      rw [Nat.zero_add]
      exact pending_le hs.pends guid
    | some x =>
      -- the put that lands takes its one pending guid into the committed ones
      obtain ⟨hbefore, hafter⟩ := hs.pends_of_landing hl
      obtain ⟨g, hg, -⟩ := Submission.guid_of_entry (Submission.TaskStep.entry_of_landing hl)
      refine ⟨rfl, ?_⟩
      show (committedGuids [.committed e x]).count guid + (if _ then _ else _) ≤ if _ then _ else _
      rw [committedGuids_committed, hbefore, hafter, hg]
      by_cases heq : g = guid
      · simp [heq]
      · simp [heq]
  | @drop e sub =>
    refine ⟨rfl, ?_⟩
    show 0 + _ ≤ _
    rw [Nat.zero_add]
    refine pending_le (fun hp => ?_) guid
    rwa [Submission.pends_drop] at hp
  | stop same => exact ⟨rfl, Nat.le_refl _⟩

end Job

/-! ### Lives -/

namespace Life

variable {l l' : Life} {allowed : Life → Move → Prop} {t : Table}

/-- No identifier is committed or pending more often than it has been sent. -/
def Ledger (l : Life) : Prop :=
  ∀ guid, (committedGuids l.history).count guid + (l.actors.map fun a => a.job.pending guid).sum ≤
    (sentGuids l.history).count guid

/-- A step of an actor keeps the ledger. -/
theorem Ledger.act {i : Nat} {how : Act} (hl : l.Ledger) (hs : l.Sound)
    (h : l.act i how = some l') : l'.Ledger := by
  obtain @⟨a, s, s', j, news, ha, hsess, hstep⟩ := act_cases h
  intro guid
  -- what a step commits has been pending, and is so no more
  obtain ⟨hsent, hpend⟩ := hstep.pending (hs.fits_session ha hsess) guid
  have hsum := sum_map_set (fun a : Actor => a.job.pending guid) { a with job := j } ha
  have hle := hl guid
  show (committedGuids (l.history ++ news)).count guid +
    ((l.actors.set i { a with job := j }).map fun a : Actor => a.job.pending guid).sum ≤
      (sentGuids (l.history ++ news)).count guid
  rw [committedGuids_append, sentGuids_append, hsent, List.append_nil, List.count_append]
  dsimp only at hsum hpend ⊢
  omega

/-- One more actor that commits no more than has been sent. -/
theorem Ledger.enlist {n : Nat} {j : Job} {news : List Occurrence} (hl : l.Ledger)
    (hj : ∀ guid, (committedGuids news).count guid + j.pending guid ≤ (sentGuids news).count guid) :
    Ledger ⟨l.files, l.sessions, l.actors ++ [⟨n, j⟩], l.history ++ news⟩ := by
  intro guid
  have hle := hl guid
  have hj := hj guid
  show (committedGuids (l.history ++ news)).count guid +
    ((l.actors ++ [(⟨n, j⟩ : Actor)]).map fun a => a.job.pending guid).sum ≤
      (sentGuids (l.history ++ news)).count guid
  rw [committedGuids_append, sentGuids_append, List.count_append, List.count_append,
    List.map_append, List.sum_append]
  show _ + (_ + (j.pending guid + 0)) ≤ _
  omega

/-- A move keeps the ledger. -/
theorem Ledger.move {m : Move} (hl : l.Ledger) (hs : l.Sound) (h : l.move m = some l') :
    l'.Ledger := by
  cases m with
  | opens queue style faults mapSize => cases h; exact hl
  | sends n p nonce e =>
    obtain ⟨l₁, h₁, rfl⟩ := Option.map_eq_some_iff.1 h
    obtain ⟨-, rfl⟩ := enlist_cases h₁
    refine hl.enlist fun guid => ?_
    show 0 + (if _ then _ else _) ≤ _
    by_cases hp : (Submission.ofEvent p nonce e).pends = true ∧ e.guid? = some guid
    · have hsent : sentGuids [.sent e] = [guid] := by
        unfold sentGuids
        simp [hp.2]
      refine Nat.le_of_eq ?_
      rw [if_pos hp, hsent, List.count_singleton_self, Nat.zero_add]
    · rw [if_neg hp]
      exact Nat.zero_le _
  | forwards n s loops =>
    obtain ⟨-, rfl⟩ := enlist_cases h
    rw [← List.append_nil l.history]
    exact hl.enlist fun guid => Nat.le_refl _
  | stops n graceful =>
    obtain ⟨-, rfl⟩ := enlist_cases h
    rw [← List.append_nil l.history]
    exact hl.enlist fun guid => Nat.le_refl _
  | acts i how => exact hl.act hs h
  | raises n =>
    obtain ⟨s, -, rfl⟩ := Option.map_eq_some_iff.1 h
    exact hl
  | spoils n faults =>
    obtain ⟨s, -, rfl⟩ := Option.map_eq_some_iff.1 h
    exact hl
  | crashes =>
    -- what was pending is lost
    cases h
    intro guid
    have := hl guid
    show _ + 0 ≤ _
    dsimp only
    omega

/-- Events that have been sent with different identifiers had been so before. -/
theorem nodup_of_move {m : Move} (h : l.move m = some l') (hd : (sentGuids l'.history).Nodup) :
    (sentGuids l.history).Nodup := by
  obtain ⟨news, hnews⟩ := history_of_move h
  rw [hnews, sentGuids_append] at hd
  exact hd.of_append_left

/-- The ledger is kept throughout. -/
theorem Reached.ledger (h : Reached allowed t l) : l.Ledger := by
  induction h with
  | new => intro guid; exact Nat.le_refl _
  | move before _ hm ih => exact ih.move before.sound hm

end Life

end Outbox
