import Outbox.Forwarder.Pass
import Outbox.Proofs.Store.WorkingCopy

namespace Outbox

/-!
# What a pass has done

The account of a pass, which is kept beside it and changes nothing of what it does:

* `Occurrence` — what can be told of a run afterwards.
* `Opens` — entries open to events, in the same order.
* `Account` — the entries that a pass has read, those of them whose events still wait for the sink,
  and those whose events the sink has taken over.
* `Account.Sound` — readable entries wait or are taken, what is taken has been accepted, and an
  entry under a key that the pass has read is the one it has read or has been put there since.
* `Account.Forwarded`, `Account.Replaced` — what may be removed, and what is removed by mistake.
-/

/-! ### Occurrences -/

/-- What can be told of a run afterwards. -/
inductive Occurrence where
  /-- A producer begins to send an event. -/
  | sent (event : Event)
  /-- The entry of an event is committed. -/
  | committed (event : Event) (entry : Entry)
  /-- A producer is told that its event is committed. -/
  | confirmed (event : Event)
  /-- The sink accepts events, to which a pass with a cipher has opened entries. -/
  | accepted (c : Cipher) (entries : List Entry) (events : List Event)
  /-- A pass with a cipher removes an entry. -/
  | removed (c : Cipher) (entry : Entry)
  deriving DecidableEq

/-! ### Entries and events -/

/-- Whether an entry can be read. -/
def Cipher.reads (c : Cipher) (x : Entry) : Bool :=
  match c.openEvent x.value with
  | .ok _ => true
  | .error _ => false

/-- An entry whose event is opened can be read. -/
theorem Cipher.reads_of_open {c : Cipher} {x : Entry} {event : Event}
    (h : c.openEvent x.value = .ok event) : c.reads x = true := by
  unfold reads
  rw [h]

/-- An entry whose event cannot be opened cannot be read. -/
theorem Cipher.not_reads_of_open {c : Cipher} {x : Entry} {fault : Error}
    (h : c.openEvent x.value = .error fault) : c.reads x = false := by
  unfold reads
  rw [h]

/-- Entries open to events, in the same order. -/
def Opens (c : Cipher) (xs : List Entry) (events : List Event) : Prop :=
  xs.map (fun x => c.openEvent x.value) = events.map .ok

namespace Opens

variable {c : Cipher} {xs : List Entry} {events more : List Event}

/-- The first events are those of the first entries. -/
theorem take_left (h : Opens c xs (events ++ more)) : Opens c (xs.take events.length) events := by
  show (xs.take events.length).map _ = _
  rw [List.map_take, show xs.map _ = (events ++ more).map _ from h, List.map_append,
    List.take_left' (List.length_map _)]

/-- The other events are those of the other entries. -/
theorem drop_left (h : Opens c xs (events ++ more)) : Opens c (xs.drop events.length) more := by
  show (xs.drop events.length).map _ = _
  rw [List.map_drop, show xs.map _ = (events ++ more).map _ from h, List.map_append,
    List.drop_left' (List.length_map _)]

/-- No events are those of no entries. -/
theorem eq_nil (h : Opens c xs []) : xs = [] :=
  List.map_eq_nil_iff.1 h

/-- Each entry has an event. -/
theorem exists_of_mem (h : Opens c xs events) {x : Entry} (hx : x ∈ xs) :
    ∃ event ∈ events, c.openEvent x.value = .ok event := by
  have hmem : c.openEvent x.value ∈ events.map Except.ok := by
    rw [← show xs.map _ = events.map _ from h]
    exact List.mem_map_of_mem hx
  obtain ⟨event, he, heq⟩ := List.mem_map.1 hmem
  exact ⟨event, he, heq.symm⟩

end Opens

/-- The calls of the sink hand all events over. -/
theorem SinkStyle.flatten_calls (style : SinkStyle) (events : List Event) :
    (style.calls events).flatten = events := by
  cases style with
  | whole =>
    show [events].flatten = events
    rw [List.flatten_singleton]
  | each =>
    show (events.map fun e => [e]).flatten = events
    induction events with
    | nil => rfl
    | cons e events ih => rw [List.map_cons, List.flatten_cons, ih, List.singleton_append]

namespace Pass

variable {c : Cipher} {x : Entry}

/-- An entry that can be read is sorted to the events. -/
theorem sort_of_open {event : Event} (xs : List Entry) (h : c.openEvent x.value = .ok event) :
    (sort c (x :: xs)).1 = (x.key, event) :: (sort c xs).1 ∧
      (sort c (x :: xs)).2.1 = (sort c xs).2.1 := by
  simp only [sort, h, and_self]

/-- An entry that cannot be read is sorted to the keys. -/
theorem sort_of_error {fault : Error} (xs : List Entry) (h : c.openEvent x.value = .error fault) :
    (sort c (x :: xs)).1 = (sort c xs).1 ∧
      (sort c (x :: xs)).2.1 = x.key :: (sort c xs).2.1 := by
  simp only [sort, h, and_self]

/-- A scan gives the events of the readable entries. -/
theorem opens_sort (c : Cipher) (xs : List Entry) :
    Opens c (xs.filter c.reads) ((sort c xs).1.map Prod.snd) := by
  induction xs with
  | nil => rfl
  | cons x xs ih =>
    cases ho : c.openEvent x.value with
    | ok event =>
      rw [List.filter_cons_of_pos (Cipher.reads_of_open ho), (sort_of_open xs ho).1]
      show c.openEvent x.value :: (xs.filter c.reads).map _ = .ok event :: List.map _ _
      rw [ho, show List.map _ (xs.filter c.reads) = _ from ih]
    | error fault =>
      rw [List.filter_cons_of_neg (by rw [Cipher.not_reads_of_open ho]; exact Bool.false_ne_true),
        (sort_of_error xs ho).1]
      exact ih

/-- A scan gives the keys of all entries. -/
theorem mem_keys_sort {xs : List Entry} {key : Bytes} :
    key ∈ (sort c xs).1.map Prod.fst ++ (sort c xs).2.1 ↔ key ∈ xs.map Entry.key := by
  induction xs with
  | nil => rfl
  | cons x xs ih =>
    rw [List.map_cons, List.mem_cons, ← ih]
    cases ho : c.openEvent x.value with
    | ok event =>
      rw [(sort_of_open xs ho).1, (sort_of_open xs ho).2, List.map_cons, List.cons_append,
        List.mem_cons]
    | error fault =>
      rw [(sort_of_error xs ho).1, (sort_of_error xs ho).2, List.mem_append, List.mem_append,
        List.mem_cons]
      exact or_left_comm

end Pass

/-! ### Accounts -/

/-- What a pass has done so far. -/
structure Account where
  /-- How much had occurred when the pass began. -/
  since : Nat
  /-- The entries that the pass has read. -/
  read : List Entry
  /-- Those of them that are readable and have not been taken over. -/
  waiting : List Entry
  /-- Those of them that the sink has taken over. -/
  taken : List Entry

namespace Account

/-- The account of a pass that begins now. -/
def opened (now : Nat) : Account := ⟨now, [], [], []⟩

/-- The account of a pass that has read some more entries. -/
def see (c : Cipher) (xs : List Entry) (a : Account) : Account :=
  { a with read := a.read ++ xs, waiting := a.waiting ++ xs.filter c.reads }

/-- The account of a pass whose first `n` entries that wait are taken over. -/
def accept (n : Nat) (a : Account) : Account :=
  { a with waiting := a.waiting.drop n, taken := a.taken ++ a.waiting.take n }

/-- What a pass may remove: an entry that it has read, and that is unreadable or whose event the
    sink has accepted from this pass. -/
def Forwarded (c : Cipher) (history : List Occurrence) (a : Account) (x : Entry) : Prop :=
  x ∈ a.read ∧
    ((∃ fault, c.openEvent x.value = .error fault) ∨
      ∃ event entries events, x ∈ a.taken ∧ c.openEvent x.value = .ok event ∧ x ∈ entries ∧
        event ∈ events ∧ .accepted c entries events ∈ history.drop a.since)

/-- Since the pass began, another value has been put under a key that the pass has read. -/
def Replaced (history : List Occurrence) (a : Account) (x : Entry) : Prop :=
  (∃ event, .committed event x ∈ history.drop a.since) ∧
    ∃ y ∈ a.read, y.key = x.key ∧ y.value ≠ x.value

/-- Readable entries wait or are taken, no key has been read twice, what is taken has been accepted
    since the pass began, and an entry under a key that has been read is the one that has been read
    or has been put there since. -/
structure Sound (c : Cipher) (t : Table) (news : List Occurrence) (a : Account) : Prop where
  readable : a.read.filter c.reads = a.taken ++ a.waiting
  nodup : (a.read.map Entry.key).Nodup
  accepted : ∀ x ∈ a.taken, ∃ event entries events, c.openEvent x.value = .ok event ∧
    x ∈ entries ∧ event ∈ events ∧ .accepted c entries events ∈ news
  current : ∀ x ∈ t.toList, x.key ∈ a.read.map Entry.key →
    x ∈ a.read ∨ ∃ event, .committed event x ∈ news

variable {c : Cipher} {t t' : Table} {news more : List Occurrence} {a : Account}

/-- An account that has just been opened is right. -/
theorem sound_opened (c : Cipher) (t : Table) (news : List Occurrence) (now : Nat) :
    (opened now).Sound c t news where
  readable := rfl
  nodup := List.nodup_nil
  accepted x hx := by cases hx
  current x _ hk := by cases hk

/-- An account stays sound while entries are removed, and put with a notice. -/
theorem Sound.mono (h : a.Sound c t news)
    (ht : ∀ x ∈ t'.toList, x ∈ t.toList ∨ ∃ event, .committed event x ∈ more) :
    a.Sound c t' (news ++ more) where
  readable := h.readable
  nodup := h.nodup
  accepted x hx := by
    obtain ⟨event, entries, events, ho, hx, he, hacc⟩ := h.accepted x hx
    exact ⟨event, entries, events, ho, hx, he, List.mem_append_left _ hacc⟩
  current x hx hk := by
    rcases ht x hx with hx | ⟨event, he⟩
    · rcases h.current x hx hk with hread | ⟨event, he⟩
      · exact .inl hread
      · exact .inr ⟨event, List.mem_append_left _ he⟩
    · exact .inr ⟨event, List.mem_append_right _ he⟩

/-- A pass reads committed entries under keys that it has not read. -/
theorem Sound.see (h : a.Sound c t news) {xs : List Entry}
    (hnd : ((a.read ++ xs).map Entry.key).Nodup) (hmem : ∀ x ∈ xs, x ∈ t.toList) :
    (a.see c xs).Sound c t news where
  readable := by
    show (a.read ++ xs).filter c.reads = a.taken ++ (a.waiting ++ xs.filter c.reads)
    rw [List.filter_append, h.readable, List.append_assoc]
  nodup := hnd
  accepted := h.accepted
  current x hx hk := by
    show x ∈ a.read ++ xs ∨ _
    have hk : x.key ∈ (a.read ++ xs).map Entry.key := hk
    rw [List.map_append, List.mem_append] at hk
    rcases hk with hk | hk
    · rcases h.current x hx hk with hread | hnew
      · exact .inl (List.mem_append_left _ hread)
      · exact .inr hnew
    · -- a key has one entry, and that is the one that is read now
      obtain ⟨y, hy, hyx⟩ := List.mem_map.1 hk
      rw [Table.eq_of_key_eq hx (hmem y hy) hyx.symm]
      exact .inl (List.mem_append_right _ hy)

/-- What the sink accepts has been opened by the pass. -/
theorem Sound.accept (h : a.Sound c t news) {events : List Event}
    (ho : Opens c (a.waiting.take events.length) events) :
    (a.accept events.length).Sound c t
      (news ++ [.accepted c (a.waiting.take events.length) events]) where
  readable := by
    show a.read.filter c.reads =
      a.taken ++ a.waiting.take events.length ++ a.waiting.drop events.length
    rw [List.append_assoc, List.take_append_drop]
    exact h.readable
  nodup := h.nodup
  accepted x hx := by
    rcases List.mem_append.1 hx with hx | hx
    · obtain ⟨event, entries, events', hopen, hx, he, hacc⟩ := h.accepted x hx
      exact ⟨event, entries, events', hopen, hx, he, List.mem_append_left _ hacc⟩
    · obtain ⟨event, he, hopen⟩ := ho.exists_of_mem hx
      exact ⟨event, _, events, hopen, hx, he,
        List.mem_append_right _ (List.mem_singleton.2 rfl)⟩
  current x hx hk := by
    rcases h.current x hx hk with hread | ⟨event, he⟩
    · exact .inl hread
    · exact .inr ⟨event, List.mem_append_left _ he⟩

/-- When nothing waits any more, all that has been read may be removed. -/
theorem Sound.forwarded {history : List Occurrence} (h : a.Sound c t (history.drop a.since))
    (hw : a.waiting = []) {x : Entry} (hx : x ∈ a.read) : a.Forwarded c history x := by
  refine ⟨hx, ?_⟩
  cases ho : c.openEvent x.value with
  | error fault => exact .inl ⟨fault, rfl⟩
  | ok event =>
    -- a readable entry that waits no more has been taken over
    have htaken : x ∈ a.taken := by
      have : x ∈ a.read.filter c.reads := List.mem_filter.2 ⟨hx, Cipher.reads_of_open ho⟩
      rwa [h.readable, hw, List.append_nil] at this
    obtain ⟨event', entries, events, ho', hx, he, hacc⟩ := h.accepted x htaken
    rw [ho] at ho'
    cases ho'
    exact .inr ⟨event, entries, events, htaken, rfl, hx, he, hacc⟩

/-- Under a key that a pass has read and done with there is an entry that it may remove, unless it
    has been replaced. -/
theorem Sound.forwarded_iff {history : List Occurrence}
    (h : a.Sound c t (history.drop a.since)) (hw : a.waiting = []) {x : Entry}
    (hx : x ∈ t.toList) (hk : x.key ∈ a.read.map Entry.key) :
    a.Forwarded c history x ↔ ¬ a.Replaced history x := by
  constructor
  · -- no key has been read twice, so no other value has been read under this one
    rintro ⟨hread, -⟩ ⟨-, y, hy, hkey, hvalue⟩
    exact hvalue (by rw [List.inj_on_of_nodup_map h.nodup hy hread hkey])
  · intro hrep
    refine h.forwarded hw ?_
    obtain ⟨y, hy, hkey⟩ := List.mem_map.1 hk
    rcases h.current x hx hk with hread | hnew
    · exact hread
    · -- what has been put since is what has been read, or else it has replaced it
      have hvalue : y.value = x.value := by
        by_contra hne
        exact hrep ⟨hnew, y, hy, hkey, hne⟩
      have hyx : y = x := by
        cases y
        cases x
        cases hkey
        cases hvalue
        rfl
      exact hyx ▸ hy

end Account

end Outbox
