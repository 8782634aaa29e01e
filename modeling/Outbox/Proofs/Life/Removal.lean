import Outbox.Proofs.Life.Sound

namespace Outbox.Life

/-!
# What a pass removes

* `forwarded_iff_not_replaced` — a pass removes what it may remove, exactly if the entry that goes
  has not replaced the one that the pass has read. A walk under the lock cannot be overtaken like
  this.
* `replacement_removed` — a batch can: an entry that a producer has been told is committed goes
  without having been read.
-/

/-- What a thread removes is forwarded, unless it has been put under the key of what has been read
    since the pass began. -/
theorem forwarded_iff_not_replaced {t : Table} {l l' : Life} {i n : Nat} {how : Act}
    {w : Scenario.Work} {a : Account} {x : Entry} (h : Reached anyMove t l)
    (hm : l.move (.acts i how) = some l') (ha : l.actors[i]? = some ⟨n, .forwarding w a⟩)
    (hx : x ∈ l.files.table.toList) (hgone : x ∉ l'.files.table.toList) :
    (a.Forwarded w.settings.cipher l.history x ↔ ¬ a.Replaced l.history x) ∧
      (w.settings.batchSize = 1 → a.Forwarded w.settings.cipher l.history x) := by
  obtain @⟨b, s, s', j, news, hb, hs, hstep⟩ := act_cases hm
  rw [ha] at hb
  cases hb
  have htable := table_of_session hs
  obtain ⟨hfits, -⟩ := h.sound.fits_session ha hs
  obtain ⟨-, -, hsound⟩ := h.sound.fits ha
  cases hstep with
  | @forward now w w' a hub hw =>
    have hx' : x ∈ s.hub.store.table.toList := by rwa [htable]
    obtain ⟨hwait, hkey, hread⟩ := hw.removes hfits hx' hgone
    refine ⟨hsound.forwarded_iff hwait hx hkey, fun hsingle => ?_⟩
    refine hsound.forwarded hwait (hread ?_)
    omega
  | @answer w w' a hub r events hw =>
    have htable' : hub.store.table = s.hub.store.table := hw.table_eq
    have hgone : x ∉ hub.store.table.toList := hgone
    rw [htable', htable] at hgone
    exact absurd hx hgone

/-- One entry, of an event without headers. -/
def oneEntry : Table := Table.empty.insert [97] [0, 0, 0, 1, 1, 0, 0, 0, 0]

/-- An event whose key is that of `oneEntry`. -/
def rival : Event := ⟨[2], Headers.empty.add (guidHeader, "a")⟩

/-- A thread in the midst of a batch: the entry has been read, and the sink has not answered. -/
def handingOver : List Move :=
  [.opens ⟨"", 2, ⟨.plaintext, 0⟩, 0, false, none⟩ .whole .none 64,
    .forwards 0 (.of .plaintext 2 0) false, .acts 0 (.step 0)]

/-- The sink accepts, and the thread is about to commit the removal. -/
def clearing : List Move :=
  [.acts 0 (.answer .accepted), .acts 0 (.step 0), .acts 0 (.step 0), .acts 0 (.step 0),
    .acts 0 (.step 0)]

/-- The account of a thread that has handed the one entry over. -/
def handedOver : Account :=
  ⟨0, [⟨[97], [0, 0, 0, 1, 1, 0, 0, 0, 0]⟩], [], [⟨[97], [0, 0, 0, 1, 1, 0, 0, 0, 0]⟩]⟩

/-- A thread that is about to commit the removal of the one entry. -/
def committing : Scenario.Work :=
  .pass (.of .plaintext 2 0) (.removing (.committing 1) 1 1 0)

/-- A batch that nobody disturbs. -/
theorem forwarded_of_undisturbed :
    let l := after anyMove oneEntry (handingOver ++ clearing)
    let l' := after anyMove oneEntry (handingOver ++ clearing ++ [.acts 0 (.step 0)])
    let x := ⟨[97], [0, 0, 0, 1, 1, 0, 0, 0, 0]⟩
    (l.move (.acts 0 (.step 0)) = some l' ∧
      l.actors[0]? = some ⟨0, .forwarding committing handedOver⟩ ∧
      x ∈ l.files.table.toList ∧ x ∉ l'.files.table.toList) ∧
      (handedOver.Forwarded .plaintext l.history x ↔ ¬ handedOver.Replaced l.history x) ∧
      (2 = 1 → handedOver.Forwarded .plaintext l.history x) := by
  intro l l' x
  have hl : Reached anyMove oneEntry l := Reached.after rfl
  have hm : l.move (.acts 0 (.step 0)) = some l' := rfl
  have ha : l.actors[0]? = some ⟨0, .forwarding committing handedOver⟩ := rfl
  have hx : x ∈ l.files.table.toList := by decide
  have hgone : x ∉ l'.files.table.toList := by decide
  exact ⟨⟨hm, ha, hx, hgone⟩, forwarded_iff_not_replaced hl hm ha hx hgone⟩

/-- The entry of the rival event. -/
def rivalEntry : Entry :=
  ⟨[97], [0, 0, 0, 1, 2, 0, 0, 0, 1, 0, 4, 103, 117, 105, 100, 0, 1, 97]⟩

/-- An entry that is committed while a batch is handed over, and whose producer is told so, goes
    with the batch without having been read. -/
theorem replacement_removed :
    let l := after anyMove oneEntry (handingOver ++ submitting 1 rival ++ clearing)
    let l' := after anyMove oneEntry
      (handingOver ++ submitting 1 rival ++ clearing ++ [.acts 0 (.step 0)])
    Reached anyMove oneEntry l ∧ l.move (.acts 0 (.step 0)) = some l' ∧
      l.actors[0]? = some ⟨0, .forwarding committing handedOver⟩ ∧
      .confirmed rival ∈ l.history ∧ .committed rival rivalEntry ∈ l.history ∧
      rivalEntry ∈ l.files.table.toList ∧ rivalEntry ∉ l'.files.table.toList ∧
      ¬ handedOver.Forwarded .plaintext l.history rivalEntry := by
  refine ⟨Reached.after rfl, rfl, rfl, ?_, ?_, ?_, ?_, ?_⟩
  · decide
  · decide
  · decide
  · decide
  · rintro ⟨hread, -⟩
    exact absurd hread (by decide)

end Outbox.Life
