import Outbox.Envelope
import Outbox.Hub

namespace Outbox

/-!
# Forwarding passes

One attempt to bring entries from the store to the sink:

* `Forwarder.Settings` — the cipher, the batch size and the delay of a forwarder.
* `Outcome` — what a pass came to.
* `Pass` — how far a pass has come.
* `Pass.step`, `Pass.answer` — its next step, and what the answer of the sink makes of it.

With a batch size above one, a pass scans without the lock, hands the readable entries over, and
removes by key what it scanned. With a batch size of one, it walks over all entries under the lock
and hands them over one by one; a refusal restores everything.
-/

/-- How a forwarder works. -/
structure Forwarder.Settings where
  cipher : Cipher
  batchSize : Nat
  /-- In milliseconds. -/
  delay : Nat
  batchSize_pos : 1 ≤ batchSize
  deriving DecidableEq

/-- Settings with one in place of a batch size of zero. -/
def Forwarder.Settings.of (cipher : Cipher) (batchSize delay : Nat) : Forwarder.Settings :=
  ⟨cipher, max batchSize 1, delay, Nat.le_max_right _ _⟩

/-- What a pass came to. -/
inductive Outcome where
  /-- There was nothing in the store. -/
  | empty
  /-- The entries of the pass were taken over by the sink, or dropped as unreadable. -/
  | delivered (delivered dropped : Nat)
  /-- The sink refused, and nothing of the pass was removed. -/
  | failed
  deriving DecidableEq, Repr

/-- How far a pass has come. -/
inductive Pass where
  /-- About to scan, or to begin a walk. -/
  | starting
  /-- The first of `calls` is under way; `keys` are those of all entries of the pass. -/
  | delivering (calls : List (List Event)) (delivered dropped : Nat) (keys : List Bytes)
  /-- About to remove the entries of `keys`. -/
  | clearing (delivered dropped : Nat) (keys : List Bytes)
  /-- A removal of `expected` entries is under way. -/
  | removing (op : RemovalOp) (expected delivered dropped : Nat)
  /-- A walk is under way; an entry that it offers is to be looked at. -/
  | walking (op : WalkOp) (delivered dropped : Nat) (refused : Bool)
  /-- A walk is under way, and the sink has been given the event of the entry that it offers. -/
  | offering (op : WalkOp) (event : Event) (delivered dropped : Nat)
  /-- A pass that found nothing is about to recount the entries. -/
  | emptied
  /-- A recount is under way. -/
  | recounting (op : RecountOp)
  | ended (result : Except Error Outcome)
  /-- The sink has killed the thread. -/
  | died

namespace Pass

/-- The readable entries of a scan with their events, the keys of the others, and the incidents. -/
def sort (c : Cipher) : List Entry → List (Bytes × Event) × List Bytes × Journal
  | [] => ([], [], [])
  | e :: es =>
    let (good, bad, journal) := sort c es
    match c.openEvent e.value with
    | .ok event => ((e.key, event) :: good, bad, journal)
    | .error fault => (good, e.key :: bad, .incident (.unreadableEntry e.key fault) :: journal)

/-- A pass that has scanned some entries. -/
def scanned (c : Cipher) (style : SinkStyle) (entries : List Entry) : Pass × Journal :=
  if entries.isEmpty then (emptied, [])
  else
    let (good, bad, journal) := sort c entries
    let keys := good.map Prod.fst ++ bad
    let events := good.map Prod.snd
    (if events.isEmpty then clearing 0 bad.length keys
      else delivering (style.calls events) events.length bad.length keys, journal)

/-- A pass that has come to something. -/
def conclude (o : Outcome) (h : Hub) : Pass × Hub :=
  (ended (.ok o),
    match o with
    | .empty => h
    | .delivered delivered dropped => h.report [.measure (.passed delivered true),
        .measure (.dropped dropped)]
    | .failed => h.measure (.passed 0 false))

/-- A pass whose walk has ended. -/
def walked (delivered dropped : Nat) (refused : Bool) (h : Hub) :
    Except StoreFault WalkSummary → Pass × Hub
  | .error fault => (ended (.error (.transaction fault)), h)
  | .ok pass =>
    if refused then conclude .failed h
    else if pass.visited = 0 then (emptied, h)
    else conclude (.delivered delivered dropped) h

/-- A pass that looks at an entry which its walk offers. -/
def look (c : Cipher) (e : Entry) (op : WalkOp) (delivered dropped : Nat) (h : Hub) :
    Pass × Hub :=
  if h.flag then
    let (op, store) := op.answer .stop h.store
    (walking op delivered dropped false, { h with store })
  else
    match c.openEvent e.value with
    | .ok event => (offering op event delivered dropped, h)
    | .error fault =>
      let (op, store) := op.answer .delete h.store
      (walking op delivered (dropped + 1) false,
        { h with store }.incident (.unreadableEntry e.key fault))

/-- A pass whose removal has ended. -/
def removed (expected delivered dropped : Nat) (h : Hub) : Except StoreFault Nat → Pass × Hub
  | .error fault =>
    conclude (.delivered delivered dropped)
      (h.incident (.notRemoved expected (.transaction fault)))
  | .ok n =>
    conclude (.delivered delivered dropped)
      (if n < expected then h.incident (.partlyRemoved expected n) else h)

/-- A pass whose recount has ended. -/
def recounted (h : Hub) : Except StoreFault Nat → Pass × Hub
  | .error fault => (ended (.error (.transaction fault)), h)
  | .ok actual => conclude .empty (h.measure (.depth actual))

/-- The next step, unless the pass has ended or waits for the sink or for the lock. -/
def step (s : Forwarder.Settings) (h : Hub) : Pass → Option (Pass × Hub)
  | starting =>
    if 1 < s.batchSize then
      match h.faults.scan h.store s.batchSize with
      | .error fault => some (ended (.error (.transaction fault)), h)
      | .ok entries =>
        let (pass, journal) := scanned s.cipher h.style entries
        some (pass, h.report journal)
    else some (walking h.faults.walk 0 0 false, h)
  | clearing delivered dropped keys =>
    some (removing (h.faults.remove keys) keys.length delivered dropped, h)
  | removing op expected delivered dropped =>
    match op.result? with
    | some r => some (removed expected delivered dropped h r)
    | none =>
      (op.step h.faults.committing h.store).map fun (op, store, journal) =>
        (removing op expected delivered dropped, { h with store }.report journal)
  | walking op delivered dropped refused =>
    match op.offered?, op.result? with
    | some e, _ => some (look s.cipher e op delivered dropped h)
    | none, some r => some (walked delivered dropped refused h r)
    | none, none =>
      (op.step h.faults.committing h.store).map fun (op, store) =>
        (walking op delivered dropped refused, { h with store })
  | emptied => some (recounting h.faults.recount, h)
  | recounting op =>
    match op.result? with
    | some r => some (recounted h r)
    | none =>
      (op.step h.store).map fun (op, store) => (recounting op, { h with store })
  | delivering _ _ _ _ | offering _ _ _ _ | ended _ | died => none

/-- The events that the sink has been given and has not answered for. -/
def call? : Pass → Option (List Event)
  | delivering calls _ _ _ => calls.head?
  | offering _ event _ _ => some [event]
  | _ => none

/-- What the sink's answer makes of a pass. -/
def answer (a : SinkAnswer) (p : Pass) (h : Hub) : Pass × Hub :=
  match p with
  | delivering calls delivered dropped keys =>
    match a with
    | .accepted =>
      (match calls.tail with
        | [] => clearing delivered dropped keys
        | rest => delivering rest delivered dropped keys, h)
    | .refused e => conclude .failed (h.incident (.batchRefused delivered e))
    | .died => (died, h)
  | offering op _ delivered dropped =>
    match a with
    | .accepted =>
      let (op, store) := op.answer .delete h.store
      (walking op (delivered + 1) dropped false, { h with store })
    | .refused e =>
      let key := (op.offered?.map Entry.key).getD []
      let (op, store) := op.answer .abort h.store
      (walking op delivered dropped true, { h with store }.incident (.eventRefused key e))
    | .died => (died, { h with store := h.store.abort })
  | p => (p, h)

/-- The result of a pass that has ended. -/
def result? : Pass → Option (Except Error Outcome)
  | ended r => some r
  | _ => none

end Pass

end Outbox
