import Mathlib.Data.List.Count
import Outbox.Proofs.Envelope
import Outbox.Proofs.Life.Unhindered
import Outbox.Proofs.Life.NoLoss

namespace Outbox

/-!
# Exactly once

* `acceptedEntries`, `acceptedEvents` — the entries whose events the sink has accepted, and these
  events.
* `Job.Step.balance` — where nothing fails, a step commits or hands over what it puts or comes to
  owe.
* `Life.Balanced` — an entry has been accepted or is in the store as often as it has been committed,
  but for what is accepted and still to be removed.
* `Life.Balanced.unhindered` — where nothing hinders forwarding, the balance keeps steps from
  failing.
* `Life.exactly_once` — between passes nothing is still to be removed.
-/

/-! ### What has been accepted -/

/-- The entries whose events the sink has accepted. -/
def acceptedEntries (history : List Occurrence) : List Entry :=
  history.flatMap fun
    | .accepted _ entries _ => entries
    | _ => []

/-- The events that the sink has accepted. -/
def acceptedEvents (history : List Occurrence) : List Event :=
  history.flatMap fun
    | .accepted _ _ events => events
    | _ => []

theorem acceptedEntries_append (h h' : List Occurrence) :
    acceptedEntries (h ++ h') = acceptedEntries h ++ acceptedEntries h' :=
  List.flatMap_append

theorem mem_acceptedEntries {history : List Occurrence} {c : Cipher} {x : Entry}
    {entries : List Entry} {events : List Event} (h : .accepted c entries events ∈ history)
    (hx : x ∈ entries) : x ∈ acceptedEntries history :=
  List.mem_flatMap.2 ⟨_, h, hx⟩

/-- Occurrences that tell neither of a commit nor of an acceptance. -/
theorem entries_of_other {news : List Occurrence} (hc : ∀ e x, .committed e x ∉ news)
    (ha : ∀ c xs es, .accepted c xs es ∉ news) :
    committedEntries news = [] ∧ acceptedEntries news = [] := by
  constructor
  · refine List.filterMap_eq_nil_iff.2 fun o ho => ?_
    cases o with
    | committed e x => exact absurd ho (hc e x)
    | _ => rfl
  · refine List.flatMap_eq_nil_iff.2 fun o ho => ?_
    cases o with
    | accepted c xs es => exact absurd ho (ha c xs es)
    | _ => rfl

/-- What a pass removes is neither committed nor accepted by it. -/
theorem entries_removals (c : Cipher) (before after : Table) :
    committedEntries (Job.removals c before after) = [] ∧
      acceptedEntries (Job.removals c before after) = [] := by
  refine entries_of_other (fun e x hx => ?_) fun c xs es hx => ?_ <;>
    obtain ⟨y, -, -, hy⟩ := Job.exists_of_mem_removals hx <;> cases hy

/-- Nor is anything committed or accepted when a producer is told. -/
theorem entries_confirmation (e : Event) (sub : Submission) :
    committedEntries (Job.confirmation e sub) = [] ∧
      acceptedEntries (Job.confirmation e sub) = [] := by
  refine entries_of_other (fun e x hx => ?_) fun c xs es hx => ?_ <;>
    cases (Job.of_mem_confirmation hx).2

/-- The sink commits nothing. -/
theorem committedEntries_acceptance (r : SinkAnswer) (c : Cipher) (a : Account)
    (events : List Event) : committedEntries (Job.acceptance r c a events) = [] := by
  unfold Job.acceptance
  split <;> rfl

namespace Job

/-- What an actor has handed over and is still to remove. -/
def owed : Job → List Entry
  | forwarding w a => w.owed a
  | _ => []

/-- What a thread that owes the removal of what it hands over has read is in the store. -/
def Held (t : Table) : Job → Prop
  | forwarding w a => w.owes = true → ∀ x ∈ a.read, x ∈ t.toList
  | _ => True

/-- Whether no pass of an actor is under way. -/
def rests : Job → Bool
  | forwarding w _ =>
    match w.pass? with
    | none | some .starting => true
    | some p => p.isOver
  | _ => true

theorem owed_of_rests {j : Job} (h : j.rests = true) : j.owed = [] := by
  cases j with
  | forwarding w a =>
    refine Scenario.Work.owed_of_not_owes ?_ a
    simp only [rests] at h
    unfold Scenario.Work.owes
    cases hp : w.pass? with
    | none => rfl
    | some p =>
      rw [hp] at h
      cases p <;> first | rfl | cases h
  | _ => rfl

/-- Nothing makes a step of an actor fail: the sink accepts, the store is open for who forwards,
    removals are not hindered, no key is empty, and what is owed is there. -/
structure Unhindered (how : Act) (s : Session) (j : Job) : Prop where
  sink : ∀ r, how = .answer r → r = .accepted
  spares : s.hub.faults.SparesRemovals
  isOpen : j.isForwarding = true → s.hub.store.closed = false
  keys : ∀ x ∈ s.hub.store.table.toList, x.key ≠ []
  held : j.Held s.hub.store.table

variable {ended : Bool} {how : Act} {s s' : Session} {past : Nat} {j j' : Job}
  {history news : List Occurrence}

/-- Where nothing fails, what a step makes of an entry in the store, of the debt of the actor, and
    of what has been committed and accepted, cancels out. -/
theorem Step.balance (h : Step ended past s how j j' s' news)
    (hf : j.Fits s.hub.store.files history) (hu : Unhindered how s j)
    (hread : ∀ c ∈ j.cipher?, ∀ x ∈ j.read, c.reads x = true)
    (hnew : ∀ e y, .committed e y ∈ news → ∀ z ∈ s.hub.store.table.toList, z.key ≠ y.key)
    (x : Entry) :
    (acceptedEntries news).count x + s'.hub.store.table.toList.count x + j.owed.count x =
      (committedEntries news).count x + s.hub.store.table.toList.count x + j'.owed.count x := by
  cases h with
  | @forward now w w' a h hw live keeps =>
    obtain ⟨hc, ha⟩ := entries_removals w.settings.cipher s.hub.store.table h.store.table
    -- what leaves the store was owed its removal, and is so no longer
    have hbalance := hw.balance hf.1 hu.spares (hu.isOpen (isForwarding_of_live live)) hu.keys hf.2
      (hread _ rfl) hu.held past x
    rw [hc, ha, List.count_nil]
    show 0 + h.store.table.toList.count x + (w.owed a).count x =
      0 + s.hub.store.table.toList.count x + (w'.owed (w.account s.hub past a)).count x
    omega
  | @answer w w' a h r events hw live keeps =>
    obtain rfl := hu.sink r rfl
    have htable : h.store.table = s.hub.store.table := hw.table_eq
    -- what the sink accepts goes over to what the pass owes a removal
    obtain ⟨-, howed⟩ := hw.owed_eq hf.1
    have hacc : acceptedEntries (acceptance .accepted w.settings.cipher a events) =
        a.waiting.take events.length := List.append_nil _
    have hcom : committedEntries (acceptance .accepted w.settings.cipher a events) = [] := rfl
    rw [hacc, hcom]
    show _ + h.store.table.toList.count x + (w.owed a).count x =
      0 + s.hub.store.table.toList.count x + (w'.owed (a.accept events.length)).count x
    rw [htable, howed, List.count_append]
    omega
  | @call now e sub sub' h hs same keeps =>
    obtain ⟨hc, ha⟩ := entries_confirmation e sub'
    rw [hc, ha]
    show 0 + h.store.table.toList.count x + 0 = 0 + s.hub.store.table.toList.count x + 0
    rw [same]
  | @task e sub sub' h hs keeps =>
    rcases hs.landing_cases hf with ⟨hl, htable⟩ | ⟨y, hl, -, htable⟩
    · rw [hl]
      show 0 + h.store.table.toList.count x + 0 = 0 + s.hub.store.table.toList.count x + 0
      rw [htable]
    · rw [hl] at hnew ⊢
      -- a new key makes the store larger by exactly the entry that is committed
      have hcount : _ = _ + [y].count x :=
        Table.count_insert (v := y.value) (hnew e y (List.mem_singleton.2 rfl)) x
      show 0 + h.store.table.toList.count x + 0 = [y].count x + s.hub.store.table.toList.count x + 0
      rw [htable, hcount]
      omega
  | drop => rfl
  | stop same hs =>
    have htable : s'.hub.store.table = s.hub.store.table := congrArg Files.table same
    show 0 + s'.hub.store.table.toList.count x + 0 = 0 + s.hub.store.table.toList.count x + 0
    rw [htable]

/-- Where nothing fails, what an actor has read stays in the store until it is to be removed no
    more. -/
theorem Step.held (h : Step ended past s how j j' s' news) (hf : j.Fits s.hub.store.files history)
    (hu : Unhindered how s j) : j'.Held s'.hub.store.table := by
  cases h with
  | forward hw live keeps =>
    intro howes x hx
    exact hw.held hf.1 hu.spares (hu.isOpen (isForwarding_of_live live)) hu.keys hu.held _ howes hx
  | @answer w w' a h r events hw live keeps =>
    obtain rfl := hu.sink r rfl
    obtain ⟨howes, -⟩ := hw.owed_eq hf.1
    intro h' x hx
    have htable : h.store.table = s.hub.store.table := hw.table_eq
    show x ∈ h.store.table.toList
    rw [htable]
    exact hu.held (howes ▸ h') x hx
  | _ => trivial

/-- A step of who does not forward, or of another one who does, leaves in the store what is owed. -/
theorem Held.of_step {k : Job} (hk : k.Held s.hub.store.table)
    (h : Step ended past s how j j' s' news) (hf : j.Fits s.hub.store.files history)
    (hone : k.isForwarding = true → j.isForwarding = false)
    (hnew : ∀ e y, .committed e y ∈ news → ∀ z ∈ s.hub.store.table.toList, z.key ≠ y.key) :
    k.Held s'.hub.store.table := by
  cases k with
  | forwarding w a =>
    intro howes x hx
    have hmem := hk howes x hx
    by_contra hgone
    rcases h.leaves hf hmem hgone with ⟨w', a', rfl, -⟩ | ⟨e, y, hy, hkey, -⟩
    · -- only who forwards removes, and that would be somebody else
      have hended := hone (isForwarding_of_live (Scenario.Work.live_of_owes howes))
      have hlive : (forwarding w' a').isForwarding = true := by
        cases h with
        | forward hw live keeps => exact isForwarding_of_live live
        | answer hw live keeps => exact isForwarding_of_live live
      rw [hended] at hlive
      cases hlive
    · exact hnew e y hy x hmem hkey.symm
  | _ => trivial

end Job

/-! ### Lives -/

namespace Life

variable {c : Cipher} {l l' : Life} {allowed : Life → Move → Prop} {t : Table} {i n : Nat}
  {how : Act}

/-- What is owed is in the store, and an entry has been accepted or is in the store as often as it
    has been committed, but for what is owed. -/
structure Balanced (l : Life) : Prop where
  held : ∀ {i : Nat} {a : Actor}, l.actors[i]? = some a → a.job.Held l.files.table
  even : ∀ x, (acceptedEntries l.history).count x + l.files.table.toList.count x =
    (committedEntries l.history).count x + (l.actors.map fun a => a.job.owed.count x).sum

/-- Where the identifiers that are sent are new to the store, what is committed next has another key
    than what is in the store. -/
theorem Reached.key_ne {e : Event} {y z : Entry} {news : List Occurrence}
    (h : Reached allowed t l) (h' : Reached allowed t l') (hd : (sentGuids l'.history).Nodup)
    (hnew : ∀ guid ∈ sentGuids l'.history, t.contains (Utf8.encode guid) = false)
    (hn : l'.history = l.history ++ news) (hy : .committed e y ∈ news)
    (hz : z ∈ l.files.table.toList) : z.key ≠ y.key := by
  have hrec : l.Record (fun _ => True) t := h.record fun _ _ _ _ _ => trivial
  rcases hrec.stored z hz with hin | ⟨e', he'⟩
  · obtain ⟨guid, hsent, hkey⟩ := h'.key_of_committed (hn ▸ List.mem_append_right _ hy)
    intro hk
    have hfresh := hnew guid hsent
    rw [Table.contains_iff.2 ⟨z, hin, hk.trans hkey⟩] at hfresh
    cases hfresh
  · intro hk
    have hnd := h'.nodup_committed hd
    rw [hn, committedEntries_append, List.map_append] at hnd
    refine List.disjoint_of_nodup_append hnd (List.mem_map_of_mem (mem_committedEntries he')) ?_
    rw [hk]
    exact List.mem_map_of_mem (mem_committedEntries hy)

/-- Where one cipher is used, what has been committed opens to its event. -/
theorem Record.openEvent_eq {e : Event} {x : Entry} (hl : l.Record (· = c) t)
    (hx : .committed e x ∈ l.history) : c.openEvent x.value = .ok e.restored := by
  obtain ⟨-, c', nonce, rfl, hentry⟩ := hl.grounded _ hx
  obtain ⟨-, -, -, hsealed⟩ := Submission.guid_of_entry hentry
  exact Cipher.openEvent_of_sealEvent hsealed

/-- What an actor has read can be opened with the cipher that it uses, for this is the one that all
    entries have been sealed with. -/
theorem Reached.reads_job {a : Actor} (hr : Reached (hindersNothing c) .empty l)
    (ha : l.actors[i]? = some a) : ∀ c' ∈ a.job.cipher?, ∀ x ∈ a.job.read, c'.reads x = true := by
  have hrec : l.Record (· = c) .empty := hr.record fun _ _ => cipher_of_hindersNothing
  have hmem := List.mem_of_getElem? ha
  intro c' hc' x hx
  rcases hrec.read a hmem x hx with hin | ⟨e, he⟩
  · cases hin
  · rw [hrec.ciphers a hmem c' hc']
    exact Cipher.reads_of_open (hrec.openEvent_eq he)

/-- Where nothing fails, nothing makes the step of an actor fail. -/
theorem Balanced.unhindered {a : Actor} {s : Session} (hl : l.Balanced)
    (hr : Reached (hindersNothing c) .empty l) (hc : hindersNothing c l (.acts i how))
    (ha : l.actors[i]? = some a) (hs : l.session? a.session = some s) : a.job.Unhindered how s := by
  have hrec : l.Record (· = c) .empty := hr.record fun _ _ => cipher_of_hindersNothing
  have htable := table_of_session hs
  obtain ⟨s₀, hs₀, -, hfaults, -⟩ := session_cases hs
  refine ⟨fun r hhow => ?_, ?_, fun hforward => ?_, fun x hx => ?_, ?_⟩
  · subst hhow
    exact hc
  · rw [hfaults]
    exact hr.orderly.spares s₀ (List.mem_of_getElem? hs₀)
  · -- a store is closed only when nobody forwards for its queue any more
    by_contra hne
    have hleft := hr.orderly.left_of_session hs (.inl (by simpa using hne))
    rw [hleft.ended a (List.mem_of_getElem? ha) rfl] at hforward
    cases hforward
  · rw [htable] at hx
    rcases hrec.stored x hx with hin | ⟨e, he⟩
    · cases hin
    · exact (hrec.grounded _ he).1
  · rw [htable]
    exact hl.held ha

theorem Balanced.act (hl : l.Balanced) (hr : Reached (hindersNothing c) .empty l)
    (hr' : Reached (hindersNothing c) .empty l') (hd : (sentGuids l'.history).Nodup)
    (hc : hindersNothing c l (.acts i how)) (h : l.act i how = some l') : l'.Balanced := by
  obtain @⟨⟨n, job⟩, s, s', j, news, ha, hs, hstep⟩ := act_cases h
  have htable := table_of_session hs
  have hfits : job.Fits s.hub.store.files l.history := hr.sound.fits_session ha hs
  have hnew : ∀ e y, .committed e y ∈ news → ∀ z ∈ s.hub.store.table.toList, z.key ≠ y.key := by
    intro e y hy z hz
    rw [htable] at hz
    exact hr.key_ne hr' hd (fun _ _ => rfl) rfl hy hz
  have hu := hl.unhindered hr hc ha hs
  refine ⟨fun {k b} hb => ?_, fun x => ?_⟩
  · rcases getElem?_set_cases hb with ⟨-, rfl⟩ | ⟨hk, hb⟩
    · exact hstep.held hfits hu
    · -- another actor that owes something is the only one that forwards
      have hheld := hl.held hb
      rw [← htable] at hheld
      refine hheld.of_step hstep hfits (fun hforward => ?_) hnew
      by_contra hne
      exact hk (hr.orderly.single hb ha hforward (by simpa using hne))
  · have hbalance := hstep.balance hfits hu (hr.reads_job ha) hnew x
    have hsum := sum_map_set (fun a : Actor => a.job.owed.count x) ⟨n, j⟩ ha
    have heven := hl.even x
    rw [← htable] at heven
    show (acceptedEntries (l.history ++ news)).count x + s'.hub.store.table.toList.count x =
      (committedEntries (l.history ++ news)).count x +
        ((l.actors.set i ⟨n, j⟩).map fun a : Actor => a.job.owed.count x).sum
    rw [acceptedEntries_append, committedEntries_append, List.count_append, List.count_append]
    dsimp only at hsum hbalance
    omega

/-- One more actor that has handed nothing over. -/
theorem Balanced.enlist {j : Job} {news : List Occurrence} (hl : l.Balanced) (ho : j.owed = [])
    (hj : j.Held l.files.table) (hc : committedEntries news = []) (ha : acceptedEntries news = []) :
    Balanced ⟨l.files, l.sessions, l.actors ++ [⟨n, j⟩], l.history ++ news⟩ := by
  refine ⟨fun {k b} hb => ?_, fun x => ?_⟩
  · rcases getElem?_concat_cases hb with hb | ⟨-, rfl⟩
    · exact hl.held hb
    · exact hj
  · have heven := hl.even x
    show (acceptedEntries (l.history ++ news)).count x + l.files.table.toList.count x =
      (committedEntries (l.history ++ news)).count x +
        ((l.actors ++ [(⟨n, j⟩ : Actor)]).map fun a => a.job.owed.count x).sum
    rw [acceptedEntries_append, committedEntries_append, hc, ha, List.append_nil, List.append_nil,
      List.map_append, List.sum_append, List.map_singleton, ho, List.count_nil, List.sum_singleton]
    exact heven

theorem Balanced.move {m : Move} (hl : l.Balanced) (hr : Reached (hindersNothing c) .empty l)
    (hr' : Reached (hindersNothing c) .empty l') (hd : (sentGuids l'.history).Nodup)
    (hc : hindersNothing c l m) (h : l.move m = some l') : l'.Balanced := by
  cases m with
  | opens queue style faults mapSize => cases h; exact ⟨hl.held, hl.even⟩
  | sends n p nonce e =>
    obtain ⟨l₁, h₁, rfl⟩ := Option.map_eq_some_iff.1 h
    obtain ⟨-, rfl⟩ := enlist_cases h₁
    exact hl.enlist rfl trivial rfl rfl
  | forwards n s loops =>
    obtain ⟨-, rfl⟩ := enlist_cases h
    have howes : ∀ {w : Scenario.Work},
        w = (if loops then .loop (.create s) else .pass s .starting) →
        w.owes = false := by
      rintro w rfl
      cases loops <;> rfl
    rw [← List.append_nil l.history]
    refine hl.enlist (Scenario.Work.owed_of_not_owes (howes rfl) _) (fun h' => ?_) rfl rfl
    rw [howes rfl] at h'
    cases h'
  | stops n graceful =>
    obtain ⟨-, rfl⟩ := enlist_cases h
    rw [← List.append_nil l.history]
    exact hl.enlist rfl trivial rfl rfl
  | acts i how => exact hl.act hr hr' hd hc h
  | raises n =>
    obtain ⟨s, -, rfl⟩ := Option.map_eq_some_iff.1 h
    exact ⟨hl.held, hl.even⟩
  | spoils n faults =>
    obtain ⟨s, -, rfl⟩ := Option.map_eq_some_iff.1 h
    exact ⟨hl.held, hl.even⟩
  | crashes => exact hc.elim

theorem Reached.balanced (h : Reached (hindersNothing c) .empty l)
    (hd : (sentGuids l.history).Nodup) : l.Balanced := by
  induction h with
  | new =>
    refine ⟨fun {i a} ha => ?_, fun x => rfl⟩
    cases ha
  | move before ok hm ih =>
    exact (ih (nodup_of_move hm hd)).move before (before.move ok hm) hd ok hm

/-- Between passes nothing is owed. -/
theorem sum_owed_of_rests (h : ∀ a ∈ l.actors, a.job.rests = true) (x : Entry) :
    (l.actors.map fun a => a.job.owed.count x).sum = 0 := by
  rw [List.sum_eq_zero_iff_forall_eq_nat]
  intro k hk
  obtain ⟨a, ha, rfl⟩ := List.mem_map.1 hk
  rw [Job.owed_of_rests (h a ha), List.count_nil]

/-- The events that the sink has accepted are those that the accepted entries open to. -/
theorem opens_accepted {history : List Occurrence}
    (h : ∀ c' xs es, .accepted c' xs es ∈ history → Opens c xs es) :
    Opens c (acceptedEntries history) (acceptedEvents history) := by
  induction history with
  | nil => rfl
  | cons o history ih =>
    have ih := ih fun c' xs es hacc => h c' xs es (List.mem_cons_of_mem _ hacc)
    cases o with
    | accepted c' xs es =>
      have hopens := h c' xs es (List.mem_cons_self ..)
      show (xs ++ acceptedEntries history).map _ = (es ++ acceptedEvents history).map _
      rw [List.map_append, List.map_append, show List.map _ xs = _ from hopens,
        show List.map _ (acceptedEntries history) = _ from ih]
    | _ => exact ih

/-- Where events have headers with different names, an event has been accepted as often as its
    entry. -/
theorem Reached.count_acceptedEvents (h : Reached (hindersNothing c) .empty l)
    (hd : (sentGuids l.history).Nodup) {e : Event} {x : Entry} (hx : .committed e x ∈ l.history)
    (hnames : ∀ e' y, .committed e' y ∈ l.history → e'.headers.names.Nodup) :
    (acceptedEvents l.history).count e = (acceptedEntries l.history).count x := by
  have hrec : l.Record (· = c) .empty := h.record fun _ _ => cipher_of_hindersNothing
  have hopens : ∀ {e' : Event} {y : Entry}, .committed e' y ∈ l.history →
      c.openEvent y.value = .ok e' := by
    intro e' y hy
    rw [hrec.openEvent_eq hy, Event.restored_eq (hnames e' y hy)]
  have haccepted : Opens c (acceptedEntries l.history) (acceptedEvents l.history) := by
    refine opens_accepted fun c' xs es hacc => ?_
    obtain ⟨rfl, ho, -⟩ := hrec.grounded _ hacc
    exact ho
  -- an accepted entry opens to the event exactly if it is the entry of the event
  have hiff : ∀ y ∈ acceptedEntries l.history, c.openEvent y.value = .ok e ↔ y = x := by
    intro y hy
    obtain ⟨o, ho, hyo⟩ := List.mem_flatMap.1 hy
    cases o with
    | accepted c' xs es =>
      rcases (hrec.grounded _ ho).2.2 y hyo with hin | ⟨e', he'⟩
      · cases hin
      · constructor
        · intro hopen
          rw [hopens he'] at hopen
          cases hopen
          obtain ⟨-, _, _, -, hentry⟩ := hrec.grounded _ he'
          obtain ⟨-, _, _, -, hentry'⟩ := hrec.grounded _ hx
          obtain ⟨guid, hguid, hkey, -⟩ := Submission.guid_of_entry hentry
          obtain ⟨guid', hguid', hkey', -⟩ := Submission.guid_of_entry hentry'
          rw [hguid] at hguid'
          cases hguid'
          exact h.eq_of_key_eq hd he' hx (hkey.trans hkey'.symm)
        · rintro rfl
          exact hopens hx
    | _ => cases hyo
  calc (acceptedEvents l.history).count e
      = ((acceptedEvents l.history).map Except.ok).count (Except.ok e : Except Error Event) :=
        (List.count_map_of_injective _ _ (fun _ _ => Except.ok.inj) _).symm
    _ = ((acceptedEntries l.history).map fun y => c.openEvent y.value).count (.ok e) := by
        rw [show List.map _ (acceptedEntries l.history) = _ from haccepted]
    _ = (acceptedEntries l.history).count x := by
        rw [List.count, List.countP_map, List.count]
        refine List.countP_congr fun y hy => ?_
        simpa using hiff y hy

/-- Where nothing fails, and no two events are sent with the same identifier: between passes, an
    event whose entry has been committed is in the store under its identifier and has not been
    accepted, or it has been accepted exactly once and is not in the store. What its entry opens to
    is the event, and the sink has been given nothing but what entries open to. -/
theorem exactly_once (h : Reached (hindersNothing c) .empty l) (hd : (sentGuids l.history).Nodup)
    (hrest : ∀ a ∈ l.actors, a.job.rests = true) {e : Event} {x : Entry}
    (hx : .committed e x ∈ l.history) :
    (∃ guid, e.guid? = some guid ∧ x.key = Utf8.encode guid) ∧
      c.openEvent x.value = .ok e.restored ∧
      (∀ c' entries events, .accepted c' entries events ∈ l.history →
        c' = c ∧ Opens c entries events) ∧
      ((∀ e' y, .committed e' y ∈ l.history → e'.headers.names.Nodup) →
        (acceptedEvents l.history).count e = (acceptedEntries l.history).count x) ∧
      ((l.files.table.get? x.key = some x.value ∧ (acceptedEntries l.history).count x = 0) ∨
        (l.files.table.get? x.key = none ∧ (acceptedEntries l.history).count x = 1)) := by
  have hrec : l.Record (· = c) .empty := h.record fun _ _ => cipher_of_hindersNothing
  have hnd := h.nodup_committed hd
  have hmem := mem_committedEntries hx
  obtain ⟨-, _, _, -, hentry⟩ := hrec.grounded _ hx
  obtain ⟨guid, hguid, hkey, -⟩ := Submission.guid_of_entry hentry
  refine ⟨⟨guid, hguid, hkey⟩, hrec.openEvent_eq hx, fun c' xs es hacc => ?_,
    h.count_acceptedEvents hd hx, ?_⟩
  · obtain ⟨rfl, hopens, -⟩ := hrec.grounded _ hacc
    exact ⟨rfl, hopens⟩
  · -- nothing is owed, and the entry has been committed once and is in the store at most once
    have heven := (h.balanced hd).even x
    rw [sum_owed_of_rests hrest, (List.Nodup.of_map _ hnd).count, if_pos hmem,
      (Table.nodup _).count] at heven
    by_cases hin : x ∈ l.files.table.toList
    · rw [if_pos hin] at heven
      exact .inl ⟨Table.get?_eq_some_iff.2 hin, by omega⟩
    · rw [if_neg hin] at heven
      -- any other entry under its key would be the entry itself
      refine .inr ⟨Table.get?_eq_none_iff.2 fun y hy hyx => hin ?_, by omega⟩
      rcases hrec.stored y hy with hemp | ⟨e', he'⟩
      · cases hemp
      · rwa [← h.eq_of_key_eq hd he' hx hyx]

/-- Another event that can be sent. -/
def postcard : Event := ⟨[2], Headers.empty.add (guidHeader, "b")⟩

/-- A store is opened for a queue. -/
def reopening (batchSize : Nat) : Move :=
  .opens ⟨"", batchSize, ⟨.plaintext, 0⟩, 0, false, some ⟨true⟩⟩ .whole .none 64

/-- Two events are sent. The flag is raised while the sink is given the first one in a walk, and the
    queue is shut down; after it has been opened again, the second one is handed over in a batch. -/
def restarting : List Move :=
  reopening 1 :: (submitting 0 letter ++ submitting 1 postcard ++
    [.forwards 0 (.of .plaintext 1 0) false] ++ List.replicate 4 (.acts 2 (.step 0)) ++
    [.raises 0, .acts 2 (.answer .accepted)] ++ List.replicate 5 (.acts 2 (.step 0)) ++
    [.stops 0 true] ++ List.replicate 8 (.acts 3 (.step 0)) ++
    [reopening 2, .forwards 1 (.of .plaintext 2 0) false, .acts 4 (.step 0),
      .acts 4 (.answer .accepted)] ++ List.replicate 8 (.acts 4 (.step 0)))

/-- The entry of the second event. -/
def postcardEntry : Entry :=
  ⟨[98], [0, 0, 0, 1, 2, 0, 0, 0, 1, 0, 4, 103, 117, 105, 100, 0, 1, 98]⟩

theorem exactly_once_of_restart :
    let l := after (hindersNothing .plaintext) .empty restarting
    let x := postcardEntry
    (Reached (hindersNothing .plaintext) .empty l ∧ (sentGuids l.history).Nodup ∧
      (∀ a ∈ l.actors, a.job.rests = true) ∧ .committed postcard x ∈ l.history) ∧
      (∃ guid, postcard.guid? = some guid ∧ x.key = Utf8.encode guid) ∧
      Cipher.plaintext.openEvent x.value = .ok postcard.restored ∧
      (∀ c' entries events, .accepted c' entries events ∈ l.history →
        c' = .plaintext ∧ Opens .plaintext entries events) ∧
      ((∀ e' y, .committed e' y ∈ l.history → e'.headers.names.Nodup) →
        (acceptedEvents l.history).count postcard = (acceptedEntries l.history).count x) ∧
      ((l.files.table.get? x.key = some x.value ∧ (acceptedEntries l.history).count x = 0) ∨
        (l.files.table.get? x.key = none ∧ (acceptedEntries l.history).count x = 1)) := by
  intro l x
  have hl : Reached (hindersNothing .plaintext) .empty l := Reached.after (by decide +kernel)
  have hd : (sentGuids l.history).Nodup := by decide +kernel
  have hrest : ∀ a ∈ l.actors, a.job.rests = true := by decide +kernel
  have hx : .committed postcard x ∈ l.history := by decide +kernel
  exact ⟨⟨hl, hd, hrest, hx⟩, exactly_once hl hd hrest hx⟩

end Life

end Outbox
