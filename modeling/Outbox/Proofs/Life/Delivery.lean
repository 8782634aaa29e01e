import Outbox.Proofs.Envelope
import Outbox.Proofs.Forwarder.Reports
import Outbox.Proofs.Life.Moves
import Outbox.Proofs.Life.NoLoss

namespace Outbox

/-!
# What is sent is what is delivered

* `Queue.cipher_of_start` — the forwarder of a queue has the cipher of its producers.
* `Opens.event_eq` — the events that entries open to are found at the places of the entries.
* `Life.tells_of_act` — what an actor reports of the store is so.
* `Life.delivered_as_sent` — an event that has been committed is never called unreadable by those
  who have the cipher of its producer, and the sink is given no other event in its place.
-/

/-- The forwarder of a queue opens values with the cipher that its producers seal them with. -/
theorem Queue.cipher_of_start {config : QueueConfig} {targets : List String} {ring : KeyRing}
    {env : Environment} {faults : Faults} {disk : Disk} {q : Started (Home × Store)}
    (h : (start config targets ring env faults disk).2.2 = .ok q) :
    q.forwarder.settings.cipher = q.queue.producer.cipher := by
  unfold start startOn at h
  split at h
  · cases h
  · dsimp only at h
    split at h
    · cases h
    · cases h
    · cases h
      rfl

/-- At the place of an entry is the event that the entry opens to. -/
theorem Opens.event_eq {c : Cipher} {xs : List Entry} {events : List Event} {x : Entry}
    {event e : Event} {p : Nat} (h : Opens c (xs.take events.length) events)
    (hx : xs[p]? = some x) (hevent : events[p]? = some event) (ho : c.openEvent x.value = .ok e) :
    event = e := by
  have hp : p < events.length := (List.getElem?_eq_some_iff.1 hevent).1
  have heq : ((xs.take events.length).map fun y => c.openEvent y.value)[p]? =
      (events.map Except.ok)[p]? := by
    rw [show List.map _ _ = _ from h]
  rw [List.getElem?_map, List.getElem?_map, List.getElem?_take_of_lt hp, hx, hevent] at heq
  have heq : c.openEvent x.value = .ok event := Option.some.inj heq
  rw [ho] at heq
  exact (Except.ok.inj heq).symm

/-- There is an entry that waits for each event of a call. -/
theorem Opens.length_le {c : Cipher} {xs : List Entry} {events : List Event}
    (h : Opens c (xs.take events.length) events) : events.length ≤ xs.length := by
  have hlen := congrArg List.length (show List.map _ _ = _ from h)
  simp only [List.length_map, List.length_take] at hlen
  omega

/-- What a call hands over waits for the sink. -/
theorem Scenario.Work.Fits.opens {w : Scenario.Work} {a : Account} {f : Files} {events : List Event}
    (hf : w.Fits a f) (hc : w.call? = some events) :
    Opens w.settings.cipher (a.waiting.take events.length) events := by
  obtain ⟨p, hp, hcall, -⟩ := exists_pass_of_call hc
  exact (hf p hp).opens hcall

namespace Life

variable {l l' : Life} {t : Table}

/-- The entry that a submission commits is that of its event. -/
theorem entry_of_commit {i n : Nat} {e : Event} {sub : Submission} {x : Entry} (hl : l.Sound)
    (hi : l.actors[i]? = some ⟨n, .sending e sub⟩) (h : l.act i .task = some l')
    (hx : l'.history = l.history ++ [.committed e x]) :
    Submission.entry sub.producer.cipher sub.nonce e = .ok (x.key, x.value) ∧
      x ∈ l'.files.table.toList := by
  obtain @⟨a, s, s', j, news, ha, hsess, hstep⟩ := act_cases h
  have hfits := hl.fits_session ha hsess
  have hnews : news = [.committed e x] := List.append_cancel_left hx
  have hmem : .committed e x ∈ news := by simp [hnews]
  rw [hi] at ha
  cases ha
  refine ⟨?_, hstep.mem_of_committed hfits hmem⟩
  cases hstep with
  | @task e' sub' sub'' h hs =>
    cases hl : Submission.landing e sub sub'' with
    | none => simp [hl] at hnews
    | some y =>
      obtain rfl : y = x := by simpa [hl] using hnews
      exact Submission.TaskStep.entry_of_landing hl

/-- What somebody who forwards reports of the store is so. -/
theorem tells_of_act (hl : l.Sound) {k m : Nat} {w : Scenario.Work} {a : Account} {how : Act}
    (hk : l.actors[k]? = some ⟨m, .forwarding w a⟩) (h : l.act k how = some l') :
    ∃ s s', l.sessions[m]? = some s ∧ l'.sessions[m]? = some s' ∧
      s.hub.Tells (Incident.Holds w.settings.cipher l.files.table) s'.hub := by
  unfold Life.act at h
  obtain ⟨b, hb, h⟩ := Option.bind_eq_some_iff.1 h
  obtain ⟨s, hs, h⟩ := Option.bind_eq_some_iff.1 h
  obtain ⟨⟨j, s', news⟩, hj, h⟩ := Option.bind_eq_some_iff.1 h
  rw [hk] at hb
  cases hb
  cases h
  obtain ⟨s₀, hs₀, rfl⟩ := Option.map_eq_some_iff.1 hs
  have hm := (List.getElem?_eq_some_iff.1 hs₀).1
  have hfits := hl.fits_session hk hs
  -- a session with the files as they are has the same journal
  have htells : s₀.hub.Tells (Incident.Holds w.settings.cipher l.files.table) s'.hub := by
    cases how with
    | step now =>
      obtain ⟨y, hy, heq⟩ := Option.map_eq_some_iff.1 hj
      cases heq
      exact Scenario.Work.tells_of_step hfits.1 hy
    | answer r =>
      obtain ⟨events, -, heq⟩ := Option.map_eq_some_iff.1 hj
      cases heq
      exact Scenario.Work.tells_of_answer r w _
    | task => cases hj
    | drop => cases hj
  exact ⟨s₀, s', hs₀, by simp [hm], htells⟩

/-- How those who forward with a cipher treat an entry that opens to an event: once read, it has
    been taken over or waits for the sink; at its place among the events that the sink is given is
    the event; and nobody reports that it is unreadable while it is in the store. -/
structure Honours (c : Cipher) (x : Entry) (e : Event) (l : Life) : Prop where
  read {k m : Nat} {w : Scenario.Work} {a : Account}
    (hk : l.actors[k]? = some ⟨m, .forwarding w a⟩) (hc : w.settings.cipher = c)
    (hx : x ∈ a.read) : x ∈ a.taken ∨ x ∈ a.waiting
  given {k m : Nat} {w : Scenario.Work} {a : Account} {events : List Event}
    (hk : l.actors[k]? = some ⟨m, .forwarding w a⟩) (hc : w.settings.cipher = c)
    (hcall : w.call? = some events) : events.length ≤ a.waiting.length ∧
      ∀ (p : Nat) (event : Event), a.waiting[p]? = some x → events[p]? = some event → event = e
  told {k m : Nat} {w : Scenario.Work} {a : Account} {how : Act} {l' : Life} {s s' : Session}
    (hk : l.actors[k]? = some ⟨m, .forwarding w a⟩) (hc : w.settings.cipher = c)
    (hm : l.move (.acts k how) = some l') (hx : x ∈ l.files.table.toList)
    (hs : l.sessions[m]? = some s) (hs' : l'.sessions[m]? = some s') :
    ∃ notes, s'.hub.journal = s.hub.journal ++ notes ∧
      ∀ fault, .incident (.unreadableEntry x.key fault) ∉ notes

/-- An entry that opens to an event is honoured at all times. -/
theorem Sound.honours {c : Cipher} {x : Entry} {e : Event} (hl : l.Sound)
    (ho : c.openEvent x.value = .ok e) : l.Honours c x e where
  read {k m w a} hk hc hx := by
    rw [← hc] at ho
    have hreadable : x ∈ a.read.filter w.settings.cipher.reads :=
      List.mem_filter.2 ⟨hx, Cipher.reads_of_open ho⟩
    rwa [(hl.fits hk).2.2.readable, List.mem_append] at hreadable
  given {k m w a events} hk hc hcall := by
    have hopens := (hl.fits hk).1.opens hcall
    rw [hc] at hopens
    exact ⟨hopens.length_le, fun p event hp hevent => hopens.event_eq hp hevent ho⟩
  told {k m w a how l' s s'} hk hc hm hx hs hs' := by
    obtain ⟨s₁, s₁', hs₁, hs₁', notes, hnotes, hkind⟩ := tells_of_act hl hk hm
    rw [hs] at hs₁
    rw [hs'] at hs₁'
    cases hs₁
    cases hs₁'
    refine ⟨notes, hnotes, fun fault hfault => ?_⟩
    -- the entry that is called unreadable would have to be this one
    obtain ⟨value, hvalue, herror⟩ := hkind _ hfault
    have heq : (⟨x.key, value⟩ : Entry) = x := Table.eq_of_key_eq hvalue hx rfl
    rw [hc, show value = x.value from congrArg Entry.value heq, ho] at herror
    cases herror

/-- An event whose headers have different names, committed by a submission: its value is under its
    identifier, and the cipher of its producer, which is that of the forwarder of the same queue,
    opens it to the event. Whatever happens then, all who forward with this cipher honour this. -/
theorem delivered_as_sent (h : Reached anyMove t l) {i n : Nat} {e : Event} {sub : Submission}
    {x : Entry} (hi : l.actors[i]? = some ⟨n, .sending e sub⟩) (hnames : e.headers.names.Nodup)
    (hm : l.move (.acts i .task) = some l')
    (hx : l'.history = l.history ++ [.committed e x]) :
    (∃ guid, e.guid? = some guid ∧ x.key = Utf8.encode guid ∧
      l'.files.table.get? (Utf8.encode guid) = some x.value) ∧
    sub.producer.cipher.openEvent x.value = .ok e ∧
    (∀ config targets ring env faults disk q,
      (Queue.start config targets ring env faults disk).2.2 = .ok q →
      q.queue.producer = sub.producer → q.forwarder.settings.cipher = sub.producer.cipher) ∧
    ∀ ms l₁, l'.run anyMove ms = some l₁ → l₁.Honours sub.producer.cipher x e := by
  obtain ⟨hentry, hin⟩ := entry_of_commit h.sound hi hm hx
  obtain ⟨guid, hguid, hkey, hseal⟩ := Submission.guid_of_entry hentry
  have hopen : sub.producer.cipher.openEvent x.value = .ok e := by
    rw [Cipher.openEvent_of_sealEvent hseal, Event.restored_eq hnames]
  refine ⟨⟨guid, hguid, hkey, ?_⟩, hopen, fun config targets ring env faults disk q hq hp => ?_,
    fun ms l₁ hrun => ?_⟩
  · rw [← hkey]
    exact Table.get?_eq_some_iff.2 hin
  · rw [Queue.cipher_of_start hq, hp]
  · exact ((h.move trivial hm).run hrun).sound.honours hopen

/-- A producer with a key. -/
def secretive : Producer := ⟨⟨some ⟨List.replicate 32 7, rfl⟩⟩, 0⟩

/-- The producer sends an event, and its task is about to commit the entry. -/
def whispering : List Move :=
  [.opens ⟨"", 1, secretive, 0, false, none⟩ .whole .none 64,
    .sends 0 secretive (.ofNat 5) letter] ++
    List.replicate 3 (.acts 0 (.step 0)) ++ List.replicate 5 (.acts 0 .task)

/-- The entry of the event. -/
def whisper : Entry :=
  ⟨[97], (secretive.cipher.sealEvent (.ofNat 5) letter).toOption.getD []⟩

/-- Whether an actor of a session sends an event. -/
def isSending (n : Nat) (e : Event) : Actor → Bool
  | ⟨k, .sending e' _⟩ => k = n ∧ e' = e
  | _ => false

theorem eq_of_isSending {n : Nat} {e : Event} {a : Actor} (h : isSending n e a = true) :
    ∃ sub, a = ⟨n, .sending e sub⟩ := by
  unfold isSending at h
  split at h
  · next k e' sub =>
    obtain ⟨rfl, rfl⟩ := of_decide_eq_true h
    exact ⟨sub, rfl⟩
  · cases h

theorem delivered_as_sent_of_whisper :
    let l := after anyMove .empty whispering
    let l' := after anyMove .empty (whispering ++ [.acts 0 .task])
    ∃ sub, (Reached anyMove .empty l ∧ l.actors[0]? = some ⟨0, .sending letter sub⟩ ∧
      letter.headers.names.Nodup ∧ l.move (.acts 0 .task) = some l' ∧
      l'.history = l.history ++ [.committed letter whisper]) ∧
    (∃ guid, letter.guid? = some guid ∧ whisper.key = Utf8.encode guid ∧
      l'.files.table.get? (Utf8.encode guid) = some whisper.value) ∧
    sub.producer.cipher.openEvent whisper.value = .ok letter ∧
    (∀ config targets ring env faults disk q,
      (Queue.start config targets ring env faults disk).2.2 = .ok q →
      q.queue.producer = sub.producer → q.forwarder.settings.cipher = sub.producer.cipher) ∧
    ∀ ms l₁, l'.run anyMove ms = some l₁ → l₁.Honours sub.producer.cipher whisper letter := by
  intro l l'
  have hl : Reached anyMove .empty l := Reached.after (by decide +kernel)
  have hnames : letter.headers.names.Nodup := by decide
  have hm : l.move (.acts 0 .task) = some l' := move_after (by decide +kernel)
  have hx : l'.history = l.history ++ [.committed letter whisper] := by decide +kernel
  have hsending : (l.actors[0]?.any (isSending 0 letter)) = true := by decide +kernel
  obtain ⟨a, ha, hsends⟩ := (Option.any_eq_true _ _).1 hsending
  obtain ⟨sub, rfl⟩ := eq_of_isSending hsends
  exact ⟨sub, ⟨hl, ha, hnames, hm, hx⟩, delivered_as_sent hl ha hnames hm hx⟩

end Life

end Outbox
