import Outbox.Proofs.Life.Record

namespace Outbox

/-!
# No loss

* `Taken`, `Discarded` — the sink has accepted the event that an entry opens to, or a pass has
  removed an entry that it could not read.
* `Job.Step.leaves` — an entry leaves the store when a pass is done with what it has read under the
  same key, or when another entry takes its place.
* `Life.Kept` — every entry that has been committed is in the store, or has gone on good grounds.
* `Life.no_loss` — so it is at all times, whatever happens.
-/

/-- The sink has accepted the event that an entry opens to. -/
def Taken (history : List Occurrence) (x : Entry) : Prop :=
  ∃ c entries events event, .accepted c entries events ∈ history ∧ Opens c entries events ∧
    x ∈ entries ∧ event ∈ events ∧ c.openEvent x.value = .ok event

/-- A pass has removed an entry that its cipher could not open. -/
def Discarded (history : List Occurrence) (x : Entry) : Prop :=
  ∃ c fault, .removed c x ∈ history ∧ c.openEvent x.value = .error fault

variable {history news : List Occurrence} {x : Entry}

theorem Taken.mono (h : Taken history x) : Taken (history ++ news) x := by
  obtain ⟨c, entries, events, event, hacc, hrest⟩ := h
  exact ⟨c, entries, events, event, List.mem_append_left _ hacc, hrest⟩

theorem Discarded.mono (h : Discarded history x) : Discarded (history ++ news) x := by
  obtain ⟨c, fault, hrem, ho⟩ := h
  exact ⟨c, fault, List.mem_append_left _ hrem, ho⟩

namespace Job.Step

variable {ended : Bool} {how : Act} {s s' : Session} {past : Nat} {j j' : Job}

/-- What is committed is in the store. -/
theorem mem_of_committed (h : Step ended past s how j j' s' news)
    (hf : j.Fits s.hub.store.files history) {e : Event} (hx : .committed e x ∈ news) :
    x ∈ s'.hub.store.table.toList := by
  cases h with
  | forward hw =>
    obtain ⟨y, -, -, hy⟩ := exists_of_mem_removals hx
    cases hy
  | answer => cases (of_mem_acceptance hx).2
  | call => cases (of_mem_confirmation hx).2
  | @task e' sub sub' h hs =>
    rcases hs.landing_cases hf with ⟨hl, -⟩ | ⟨y, hl, -, htable⟩
    · rw [hl] at hx
      cases hx
    · rw [hl] at hx
      cases List.mem_singleton.1 hx
      rw [htable]
      exact Table.mem_insert_iff.2 (.inl rfl)
  | drop => cases hx
  | stop same => cases hx

/-- What leaves the store is removed by a pass for which nothing waits and which has read its key,
    or makes room for another entry with its key. -/
theorem leaves (h : Step ended past s how j j' s' news) (hf : j.Fits s.hub.store.files history)
    (hx : x ∈ s.hub.store.table.toList) (hgone : x ∉ s'.hub.store.table.toList) :
    (∃ w a, j = forwarding w a ∧ .removed w.settings.cipher x ∈ news ∧ a.waiting = [] ∧
        x.key ∈ a.read.map Entry.key) ∨
      ∃ e y, .committed e y ∈ news ∧ y.key = x.key ∧ y ≠ x := by
  cases h with
  | @forward now w w' a h hw =>
    obtain ⟨hwait, hkey, -⟩ := hw.removes hf.1 hx hgone
    refine .inl ⟨w, a, rfl, ?_, hwait, hkey⟩
    exact List.mem_map_of_mem (List.mem_filter.2 ⟨hx, by simpa using hgone⟩)
  | @answer w w' a h r events hw =>
    have htable : h.store.table = s.hub.store.table := hw.table_eq
    exact absurd hx (by rwa [← htable])
  | @call now e sub sub' h hs same => exact absurd hx (by rwa [← same])
  | @task e sub sub' h hs =>
    rcases hs.landing_cases hf with ⟨-, htable⟩ | ⟨y, hl, -, htable⟩
    · exact absurd hx (by rwa [← htable])
    · have hgone : x ∉ h.store.table.toList := hgone
      rw [htable, Table.mem_insert_iff, not_or] at hgone
      rw [hl]
      refine .inr ⟨e, y, List.mem_singleton.2 rfl, ?_, fun heq => hgone.1 heq.symm⟩
      by_contra hne
      exact hgone.2 ⟨hx, fun heq => hne heq.symm⟩
  | drop => exact absurd hx hgone
  | stop same =>
    have htable : _ = s.hub.store.table := congrArg Files.table same
    exact absurd hx (by rwa [← htable])

end Job.Step

namespace Life

variable {l l' : Life} {allowed : Life → Move → Prop}

/-- Every entry that has been committed is in the store, or the sink has accepted its event, or it
    has been removed as unreadable. -/
def Kept (l : Life) : Prop :=
  ∀ e x, .committed e x ∈ l.history →
    x ∈ l.files.table.toList ∨ Taken l.history x ∨ Discarded l.history x

/-- An entry that a pass may remove has been taken, or is removed as unreadable. -/
theorem taken_of_forwarded {a : Account} {c : Cipher} {t : Table} {uses : Cipher → Prop}
    (hl : l.Record uses t) (hf : a.Forwarded c l.history x) (hn : .removed c x ∈ news) :
    Taken (l.history ++ news) x ∨ Discarded (l.history ++ news) x := by
  obtain ⟨-, ⟨fault, ho⟩ | ⟨event, entries, events, -, ho, hx, he, hacc⟩⟩ := hf
  · exact .inr ⟨c, fault, List.mem_append_right _ hn, ho⟩
  · have hacc := List.mem_of_mem_drop hacc
    exact .inl ⟨c, entries, events, event, List.mem_append_left _ hacc,
      (hl.grounded _ hacc).2.1, hx, he, ho⟩

theorem Kept.act {i : Nat} {how : Act} (hl : l.Kept) (hr : Reached allowed .empty l)
    (hr' : Reached allowed .empty l') (hd : (sentGuids l'.history).Nodup)
    (h : l.act i how = some l') : l'.Kept := by
  obtain @⟨a, s, s', j, news, ha, hsess, hstep⟩ := act_cases h
  have htable := table_of_session hsess
  have hfits := hr.sound.fits_session ha hsess
  have hrec : l.Record (fun _ => True) .empty := hr.record fun _ _ _ _ _ => trivial
  intro e x hx
  rcases List.mem_append.1 hx with hold | hnew
  · rcases hl e x hold with hmem | htaken | hdisc
    · by_cases hgone : x ∈ s'.hub.store.table.toList
      · exact .inl hgone
      · rw [← htable] at hmem
        right
        rcases hstep.leaves hfits hmem hgone with
          ⟨w, acc, hj, hn, hwait, hkey⟩ | ⟨e', y, hy, hk, hne⟩
        · -- what has been read under the key of the entry has been committed, so it is the entry
          obtain ⟨y, hy, hk⟩ := List.mem_map.1 hkey
          have hread : y ∈ a.job.read := by rwa [hj]
          rcases hrec.read a (List.mem_of_getElem? ha) y hread with hin | ⟨e', he'⟩
          · cases hin
          · have hxy : y = x := hr'.eq_of_key_eq hd (List.mem_append_left _ he') hx hk
            rw [hj] at hfits
            rw [hxy] at hy
            exact taken_of_forwarded hrec (hfits.2.2.forwarded hwait hy) hn
        · -- another entry with its key would need another event with its identifier
          exact absurd (hr'.eq_of_key_eq hd (List.mem_append_right _ hy) hx hk) hne
    · exact .inr (.inl htaken.mono)
    · exact .inr (.inr hdisc.mono)
  · exact .inl (hstep.mem_of_committed hfits hnew)

theorem Kept.move {m : Move} (hl : l.Kept) (hr : Reached allowed .empty l)
    (hr' : Reached allowed .empty l') (hd : (sentGuids l'.history).Nodup)
    (h : l.move m = some l') : l'.Kept := by
  cases m with
  | sends n p nonce e =>
    obtain ⟨l₁, h₁, rfl⟩ := Option.map_eq_some_iff.1 h
    obtain ⟨-, rfl⟩ := enlist_cases h₁
    intro e' x hx
    rcases List.mem_append.1 hx with hx | hx
    · exact (hl e' x hx).imp_right (Or.imp Taken.mono Discarded.mono)
    · cases List.mem_singleton.1 hx
  | forwards n s loops =>
    obtain ⟨-, rfl⟩ := enlist_cases h
    exact hl
  | stops n graceful =>
    obtain ⟨-, rfl⟩ := enlist_cases h
    exact hl
  | acts i how => exact hl.act hr hr' hd h
  | raises n =>
    obtain ⟨s, -, rfl⟩ := Option.map_eq_some_iff.1 h
    exact hl
  | spoils n faults =>
    obtain ⟨s, -, rfl⟩ := Option.map_eq_some_iff.1 h
    exact hl
  | _ =>
    cases h
    exact hl

theorem Reached.kept (h : Reached allowed .empty l) (hd : (sentGuids l.history).Nodup) :
    l.Kept := by
  induction h with
  | new => exact fun e x hx => (List.not_mem_nil hx).elim
  | move before ok hm ih =>
    exact (ih (nodup_of_move hm hd)).move before (before.move ok hm) hd hm

/-- Whatever happens to a store that was empty, where no two events are sent with the same
    identifier: the value that has been committed for an event whose producer was told so is under
    the identifier of the event, or the sink has accepted the event that it opens to, or a pass that
    could not open it has removed it. -/
theorem no_loss (h : Reached anyMove .empty l) (hd : (sentGuids l.history).Nodup) {e : Event}
    (hc : .confirmed e ∈ l.history) :
    ∃ guid value, e.guid? = some guid ∧ .committed e ⟨Utf8.encode guid, value⟩ ∈ l.history ∧
      (l.files.table.get? (Utf8.encode guid) = some value ∨
        Taken l.history ⟨Utf8.encode guid, value⟩ ∨
        Discarded l.history ⟨Utf8.encode guid, value⟩) := by
  have hrec : l.Record (fun _ => True) .empty := h.record fun _ _ _ _ _ => trivial
  obtain ⟨⟨key, value⟩, hx⟩ := hrec.grounded _ hc
  obtain ⟨-, c, nonce, -, hentry⟩ := hrec.grounded _ hx
  obtain ⟨guid, hguid, hkey, -⟩ := Submission.guid_of_entry hentry
  have hkey : key = Utf8.encode guid := hkey
  subst hkey
  refine ⟨guid, value, hguid, hx, (h.kept hd e _ hx).imp_left fun hmem => ?_⟩
  exact Table.get?_eq_some_iff.2 hmem

/-- An event that can be sent. -/
def letter : Event := ⟨[1], Headers.empty.add (guidHeader, "a")⟩

/-- The event is sent, and everything crashes when the sink has accepted it and before its entry has
    been removed. -/
def crashing : List Move :=
  .opens ⟨"", 1, ⟨.plaintext, 0⟩, 0, false, none⟩ .whole .none 64 ::
    (submitting 0 letter ++ [.forwards 0 (.of .plaintext 1 0) false] ++
      List.replicate 4 (.acts 1 (.step 0)) ++ [.acts 1 (.answer .accepted), .crashes])

theorem no_loss_of_crash :
    let l := after anyMove .empty crashing
    (Reached anyMove .empty l ∧ (sentGuids l.history).Nodup ∧ .confirmed letter ∈ l.history) ∧
      ∃ guid value, letter.guid? = some guid ∧
        .committed letter ⟨Utf8.encode guid, value⟩ ∈ l.history ∧
        (l.files.table.get? (Utf8.encode guid) = some value ∨
          Taken l.history ⟨Utf8.encode guid, value⟩ ∨
          Discarded l.history ⟨Utf8.encode guid, value⟩) := by
  intro l
  have hl : Reached anyMove .empty l := Reached.after (by decide +kernel)
  have hd : (sentGuids l.history).Nodup := by decide +kernel
  have hc : .confirmed letter ∈ l.history := by decide +kernel
  exact ⟨⟨hl, hd, hc⟩, no_loss hl hd hc⟩

end Life

end Outbox
