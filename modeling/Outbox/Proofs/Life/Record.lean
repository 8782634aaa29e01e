import Outbox.Proofs.Life.Ledger

namespace Outbox

/-!
# What stands behind what has occurred

* `Known` — an entry that was there from the beginning, or that has been committed since.
* `Occurrence.Grounded` — an entry that is committed is that of its event, who is told of a commit
  is told the truth, and the sink accepts what known entries open to.
* `Life.Record` — all that is stored, has been read or has occurred is of this kind.
* `Life.Reached.record` — this holds throughout.
* `Life.Reached.nodup_committed` — of events with different identifiers, entries with different keys
  are committed.
-/

/-! ### Grounds -/

/-- An entry that was in a table, or has been committed. -/
def Known (t : Table) (history : List Occurrence) (x : Entry) : Prop :=
  x ∈ t.toList ∨ ∃ e, .committed e x ∈ history

/-- What an occurrence rests on, where all that is sealed or opened is so by ciphers in use. -/
def Occurrence.Grounded (uses : Cipher → Prop) (t : Table) (history : List Occurrence) :
    Occurrence → Prop
  | sent _ => True
  | committed e x =>
    x.key ≠ [] ∧ ∃ c nonce, uses c ∧ Submission.entry c nonce e = .ok (x.key, x.value)
  | confirmed e => ∃ x, .committed e x ∈ history
  | accepted c xs es => uses c ∧ Opens c xs es ∧ ∀ x ∈ xs, Known t history x
  | removed c _ => uses c

variable {uses : Cipher → Prop} {t : Table} {history news : List Occurrence}

theorem Known.mono {x : Entry} (h : Known t history x) : Known t (history ++ news) x :=
  h.imp_right fun ⟨e, he⟩ => ⟨e, List.mem_append_left _ he⟩

theorem Occurrence.Grounded.mono {o : Occurrence} (h : o.Grounded uses t history) :
    o.Grounded uses t (history ++ news) := by
  cases o with
  | sent e => trivial
  | committed e x => exact h
  | confirmed e =>
    obtain ⟨x, hx⟩ := h
    exact ⟨x, List.mem_append_left _ hx⟩
  | accepted c xs es => exact ⟨h.1, h.2.1, fun x hx => (h.2.2 x hx).mono⟩
  | removed c x => exact h

namespace Job

/-- The cipher that an actor seals or opens values with. -/
def cipher? : Job → Option Cipher
  | forwarding w _ => some w.settings.cipher
  | sending _ sub => some sub.producer.cipher
  | stopping _ _ => none

/-- What an actor has read in the pass that is under way. -/
def read : Job → List Entry
  | forwarding _ a => a.read
  | _ => []

namespace Step

variable {ended : Bool} {how : Act} {s s' : Session} {past : Nat} {j j' : Job}

theorem cipher_eq (h : Step ended past s how j j' s' news) : j'.cipher? = j.cipher? := by
  cases h with
  | forward hw =>
    show some (Scenario.Work.settings _).cipher = some _
    rw [hw.settings_eq]
  | answer hw =>
    obtain ⟨hs, -, -, -⟩ := hw
    show some (Scenario.Work.settings _).cipher = some _
    rw [hs]
  | call hs same => cases hs <;> rfl
  | task hs =>
    obtain ⟨-, -⟩ := hs
    rfl
  | @drop e sub =>
    show some sub.drop.producer.cipher = _
    unfold Submission.drop
    split <;> rfl
  | stop same => rfl

/-- What an actor has read it had read before, or it is in the store. -/
theorem mem_read (h : Step ended past s how j j' s' news)
    (hf : j.Fits s.hub.store.files history) {x : Entry} (hx : x ∈ j'.read) :
    x ∈ j.read ∨ x ∈ s.hub.store.table.toList := by
  cases h with
  | @forward now w w' a h hw => exact Scenario.Work.Fits.mem_read hf.1 hx
  | @answer w w' a h r events hw => cases r <;> exact .inl hx
  | _ => cases hx

/-- What a step tells has its grounds. -/
theorem grounded (h : Step ended past s how j j' s' news) (hf : j.Fits s.hub.store.files history)
    (hc : ∀ c ∈ j.cipher?, uses c) (hr : ∀ x ∈ j.read, Known t history x) {o : Occurrence}
    (ho : o ∈ news) : o.Grounded uses t history := by
  cases h with
  | forward hw =>
    obtain ⟨x, -, -, rfl⟩ := exists_of_mem_removals ho
    exact hc _ rfl
  | @answer w w' a h r events hw =>
    obtain ⟨-, rfl⟩ := of_mem_acceptance ho
    obtain ⟨hs, hp, hp', hreply⟩ := hw
    -- what waits for the sink has been read
    refine ⟨hc _ rfl, hreply.opens (hf.1 _ hp), fun x hx => hr x ?_⟩
    have hwait : x ∈ a.read.filter w.settings.cipher.reads := by
      rw [hf.2.2.readable]
      exact List.mem_append_right _ (List.mem_of_mem_take hx)
    exact List.mem_of_mem_filter hwait
  | @call now e sub sub' h hs same =>
    obtain ⟨hret, rfl⟩ := of_mem_confirmation ho
    obtain ⟨key, value, -, hl⟩ := hs.landed_of_returned hf hret
    exact ⟨_, hl⟩
  | @task e sub sub' h hs =>
    rcases hs.landing_cases hf with ⟨hl, -⟩ | ⟨x, hl, hkey, -⟩
    · rw [hl] at ho
      cases ho
    · rw [hl] at ho
      rw [List.mem_singleton.1 ho]
      exact ⟨hkey, _, _, hc _ rfl, Submission.TaskStep.entry_of_landing hl⟩
  | drop => cases ho
  | stop same => cases ho

end Step

end Job

/-! ### Lives -/

/-- The cipher that comes with somebody who begins to work. -/
def Move.cipher? : Move → Option Cipher
  | sends _ p _ _ => some p.cipher
  | forwards _ s _ => some s.cipher
  | _ => none

namespace Life

/-- All that is stored or has been read is known, and what has occurred has its grounds. -/
structure Record (uses : Cipher → Prop) (t : Table) (l : Life) : Prop where
  ciphers : ∀ a ∈ l.actors, ∀ c ∈ a.job.cipher?, uses c
  stored : ∀ x ∈ l.files.table.toList, Known t l.history x
  read : ∀ a ∈ l.actors, ∀ x ∈ a.job.read, Known t l.history x
  grounded : ∀ o ∈ l.history, o.Grounded uses t l.history

variable {l l' : Life} {allowed : Life → Move → Prop}

theorem Record.act {i : Nat} {how : Act} (hl : l.Record uses t) (hs : l.Sound)
    (h : l.act i how = some l') : l'.Record uses t := by
  obtain @⟨a, s, s', j, news, ha, hsess, hstep⟩ := act_cases h
  have htable := table_of_session hsess
  have hfits := hs.fits_session ha hsess
  have hmem := List.mem_of_getElem? ha
  have hactors : ∀ {b : Actor}, b ∈ l.actors.set i { a with job := j } →
      b ∈ l.actors ∨ b = { a with job := j } := List.mem_or_eq_of_mem_set
  refine ⟨fun b hb => ?_, fun x hx => ?_, fun b hb x hx => ?_, fun o ho => ?_⟩
  · rcases hactors hb with hb | rfl
    · exact hl.ciphers b hb
    · show ∀ c ∈ j.cipher?, uses c
      rw [hstep.cipher_eq]
      exact hl.ciphers a hmem
  · rcases hstep.put hfits x hx with hx | ⟨e, he⟩
    · rw [htable] at hx
      exact (hl.stored x hx).mono
    · exact .inr ⟨e, List.mem_append_right _ he⟩
  · rcases hactors hb with hb | rfl
    · exact (hl.read b hb x hx).mono
    · rcases hstep.mem_read hfits hx with hx | hx
      · exact (hl.read a hmem x hx).mono
      · rw [htable] at hx
        exact (hl.stored x hx).mono
  · rcases List.mem_append.1 ho with ho | ho
    · exact (hl.grounded o ho).mono
    · exact (hstep.grounded hfits (hl.ciphers a hmem) (hl.read a hmem) ho).mono

/-- One more actor that has read nothing yet. -/
theorem Record.enlist {n : Nat} {j : Job} (hl : l.Record uses t)
    (hc : ∀ c ∈ j.cipher?, uses c) (hr : j.read = [])
    (hn : ∀ o ∈ news, o.Grounded uses t l.history) :
    Record uses t ⟨l.files, l.sessions, l.actors ++ [⟨n, j⟩], l.history ++ news⟩ where
  ciphers b hb := by
    rcases List.mem_append.1 hb with hb | hb
    · exact hl.ciphers b hb
    · rw [List.mem_singleton.1 hb]
      exact hc
  stored x hx := (hl.stored x hx).mono
  read b hb x hx := by
    rcases List.mem_append.1 hb with hb | hb
    · exact (hl.read b hb x hx).mono
    · rw [List.mem_singleton.1 hb, hr] at hx
      cases hx
  grounded o ho := by
    rcases List.mem_append.1 ho with ho | ho
    · exact (hl.grounded o ho).mono
    · exact (hn o ho).mono

theorem Record.move {m : Move} (hl : l.Record uses t) (hs : l.Sound) (hm : ∀ c ∈ m.cipher?, uses c)
    (h : l.move m = some l') : l'.Record uses t := by
  cases m with
  | opens queue style faults mapSize =>
    cases h
    exact ⟨hl.ciphers, hl.stored, hl.read, hl.grounded⟩
  | sends n p nonce e =>
    obtain ⟨l₁, h₁, rfl⟩ := Option.map_eq_some_iff.1 h
    obtain ⟨-, rfl⟩ := enlist_cases h₁
    refine hl.enlist hm rfl fun o ho => ?_
    rw [List.mem_singleton.1 ho]
    trivial
  | forwards n s loops =>
    obtain ⟨-, rfl⟩ := enlist_cases h
    rw [← List.append_nil l.history]
    exact hl.enlist (by cases loops <;> exact hm) rfl nofun
  | stops n graceful =>
    obtain ⟨-, rfl⟩ := enlist_cases h
    rw [← List.append_nil l.history]
    exact hl.enlist nofun rfl nofun
  | acts i how => exact hl.act hs h
  | raises n =>
    obtain ⟨s, -, rfl⟩ := Option.map_eq_some_iff.1 h
    exact ⟨hl.ciphers, hl.stored, hl.read, hl.grounded⟩
  | spoils n faults =>
    obtain ⟨s, -, rfl⟩ := Option.map_eq_some_iff.1 h
    exact ⟨hl.ciphers, hl.stored, hl.read, hl.grounded⟩
  | crashes =>
    cases h
    exact ⟨fun a ha => (List.not_mem_nil ha).elim, hl.stored,
      fun a ha => (List.not_mem_nil ha).elim, hl.grounded⟩

theorem Reached.record (h : Reached allowed t l)
    (hu : ∀ l m, allowed l m → ∀ c ∈ m.cipher?, uses c) : l.Record uses t := by
  induction h with
  | new =>
    exact ⟨fun a ha => (List.not_mem_nil ha).elim, fun x hx => .inl hx,
      fun a ha => (List.not_mem_nil ha).elim, fun o ho => (List.not_mem_nil ho).elim⟩
  | move before ok hm ih => exact ih.move before.sound (hu _ _ ok) hm

/-- Entries have keys. -/
theorem Reached.named (hr : Reached allowed t l) (ht : ∀ x ∈ t.toList, x.key ≠ []) :
    ∀ x ∈ l.files.table.toList, x.key ≠ [] := by
  have hrec : l.Record (fun _ => True) t := hr.record fun _ _ _ _ _ => trivial
  intro x hx
  rcases hrec.stored x hx with hin | ⟨e, he⟩
  · exact ht x hin
  · exact (hrec.grounded _ he).1

/-- The keys of the entries that have been committed spell the identifiers of their events. -/
theorem keys_committedEntries (h : ∀ o ∈ news, o.Grounded uses t history) :
    (committedEntries news).map Entry.key = (committedGuids news).map Utf8.encode := by
  induction news with
  | nil => rfl
  | cons o news ih =>
    have ih := ih fun o' ho' => h o' (List.mem_cons_of_mem _ ho')
    cases o with
    | committed e x =>
      obtain ⟨-, c, nonce, -, hentry⟩ := h _ (List.mem_cons_self ..)
      obtain ⟨guid, hguid, hkey, -⟩ := Submission.guid_of_entry hentry
      have hguids : committedGuids (.committed e x :: news) = guid :: committedGuids news :=
        List.filterMap_cons_some hguid
      rw [hguids, List.map_cons, ← ih, ← hkey]
      rfl
    | _ => exact ih

/-- Where events have been sent with different identifiers, entries with different keys have been
    committed, each of them once. -/
theorem Reached.nodup_committed (h : Reached allowed t l) (hd : (sentGuids l.history).Nodup) :
    ((committedEntries l.history).map Entry.key).Nodup := by
  have hrec : l.Record (fun _ => True) t := h.record fun _ _ _ _ _ => trivial
  rw [keys_committedEntries hrec.grounded]
  refine List.Nodup.map (fun _ _ => Utf8.encode_injective)
    (List.nodup_iff_count_le_one.2 fun guid => ?_)
  -- no identifier is committed more often than it has been sent
  have hledger := h.ledger guid
  have hsent := List.nodup_iff_count_le_one.1 hd guid
  omega

theorem mem_committedEntries {e : Event} {x : Entry} (h : .committed e x ∈ history) :
    x ∈ committedEntries history :=
  List.mem_filterMap.2 ⟨_, h, rfl⟩

/-- The key of an entry that has been committed spells an identifier that has been sent. -/
theorem Reached.key_of_committed (h : Reached allowed t l) {e : Event} {x : Entry}
    (hx : .committed e x ∈ l.history) : ∃ guid ∈ sentGuids l.history, x.key = Utf8.encode guid := by
  have hrec : l.Record (fun _ => True) t := h.record fun _ _ _ _ _ => trivial
  obtain ⟨-, c, nonce, -, hentry⟩ := hrec.grounded _ hx
  obtain ⟨guid, hguid, hkey, -⟩ := Submission.guid_of_entry hentry
  have hcommitted : guid ∈ committedGuids l.history := List.mem_filterMap.2 ⟨_, hx, hguid⟩
  -- no identifier is committed more often than it has been sent
  have hledger := h.ledger guid
  have hpos := List.count_pos_iff.2 hcommitted
  exact ⟨guid, List.count_pos_iff.1 (by omega), hkey⟩

/-- Among such entries, a key tells the entry. -/
theorem Reached.eq_of_key_eq (h : Reached allowed t l) (hd : (sentGuids l.history).Nodup)
    {e e' : Event} {x y : Entry} (hx : .committed e x ∈ l.history)
    (hy : .committed e' y ∈ l.history) (hk : x.key = y.key) : x = y :=
  List.inj_on_of_nodup_map (h.nodup_committed hd) (mem_committedEntries hx)
    (mem_committedEntries hy) hk

end Life

end Outbox
