import Outbox.Scenario.Schedule
import Outbox.Scenario.Step

namespace Outbox.Scenario

/-!
# Scenarios

* `World.perform` — takes a step of a script and gives the answer.
* `run` — the answers to a whole script, beginning in an empty world.
-/

namespace World

/-! ### The store -/

/-- Answers with what a result holds. -/
def answerWith {α : Type} (f : α → Answer) : Except Error α → Answer
  | .ok a => f a
  | .error e => .failed e

/-- Answers with what an operation on a store gives, if it gives anything. -/
def answerStore {α : Type} (f : α → Answer) : Option (Except StoreFault α) → Answer
  | some (.ok a) => f a
  | some (.error fault) => .failed (.transaction fault)
  | none => .died

/-- Whether nobody holds the lock of a store. -/
def isUnlocked (n : Nat) (w : World) : Bool :=
  match w.slots[n]? with
  | none => true
  | some s => s.store.writer.isNone

/-- Does something with the script's own store as soon as nobody holds its lock. -/
def withStore (w : World) (f : World → Store → Answer × Store × World) : Answer × World :=
  match w.store? with
  | none => (.missing, w)
  | some n =>
    let w := w.await (isUnlocked n)
    match w.slot? n with
    | none => (.missing, w)
    | some slot =>
      let (a, store, w) := f w slot.store
      (a, w.putStore n slot.home store)

/-- Looks at the script's own store. -/
def viewStore (w : World) (f : Store → Answer) : Answer × World :=
  match w.store?.bind w.slot? with
  | none => (.missing, w)
  | some slot => (f slot.store, w)

/-- Drops the script's own store and its producer. -/
def dropStore (w : World) : World :=
  { w with store? := none, producer? := none }

/-- Opens the script's own store. -/
def openStore (w : World) (c : StoreConfig) : Answer × World :=
  let w := w.dropStore
  match Queue.openStore w.faults c w.disk with
  | (disk, .ok (home, store)) =>
    (.opened (w.faults.count store) c.dataDir,
      { w with disk, slots := w.slots ++ [⟨home, store⟩], store? := some w.slots.length })
  | (disk, .error (.error e)) => (.failed e, { w with disk })
  | (disk, .error .crash) => (.died, { w with disk })

/-- Lets the time of a put pass. -/
def delayPut (w : World) : World :=
  let w := w.await fun w => !w.putGateClosed
  if w.putDelay = 0 then w else w.awaitUntil (fun _ => false) (w.now + w.putDelay)

/-- Puts an entry, and gives no result if that kills the thread. -/
def putEntry (f : Faults) (key value : Bytes) (s : Store) :
    Option (Except StoreFault Unit) × Store :=
  if f.putDies then (none, s)
  else
    let (op, s) := Store.iterate (fun (op, s) => PutOp.step f.landing op s) 8 (f.put key value, s)
    (op.result?, s)

/-- Puts an entry into the script's own store. -/
def put (w : World) (key value : Bytes) : Answer × World :=
  w.delayPut.withStore fun w s =>
    let (r, s) := putEntry w.faults key value s
    (answerStore (fun _ => .done) r, s, w)

/-- A number with at least six digits. -/
def sixDigits (n : Nat) : String :=
  let ds := (toString n).toList
  String.ofList (List.replicate (6 - ds.length) '0' ++ ds)

/-- Puts entries one after another until one is refused. -/
def putAll (w : World) : List (Bytes × Bytes) → Answer × World
  | [] => w.viewStore fun s => .count (w.faults.count s)
  | (key, value) :: rest =>
    match w.put key value with
    | (.done, w) => putAll w rest
    | (a, w) => (a, w)

/-- The first entries of a store that the script may spoil. -/
def scanStore (w : World) (bare : Bool) (s : Store) (limit : Nat)
    (f : List Entry → Answer) : Answer :=
  answerStore f (some ((if bare then Faults.none else w.faults).scan s limit))

/-- An entry opened with a cipher. -/
def openEntry (c : Cipher) (e : Entry) : OpenedEntry :=
  ⟨e.key, e.value.length, c.openEvent e.value⟩

/-- A limit that no store exceeds. -/
def noLimit : Nat := 18446744073709551615

/-- Scans the script's own store. -/
def scan (w : World) (limit : Nat) (f : List Entry → Answer) : Answer × World :=
  let w := w.read false
  w.viewStore fun s => w.scanStore false s limit f

/-- Removes entries from the script's own store. -/
def remove (w : World) (keys : List Bytes) : Answer × World :=
  w.withStore fun w s =>
    let (op, s, journal) := Store.iterate
      (fun (op, s, journal) =>
        (RemovalOp.step w.faults.committing op s).map
          fun (op, s, more) => (op, s, journal ++ more))
      6 (w.faults.remove keys, s, ([] : Journal))
    (answerStore .removed op.result?, s, w.report journal)

/-- Recounts the entries of the script's own store. -/
def recount (w : World) : Answer × World :=
  w.withStore fun w s =>
    let (op, s) := Store.iterate (fun (op, s) => RecountOp.step op s) 5 (w.faults.recount, s)
    (answerStore .recounted op.result?, s, w)

/-- How many entries another reader asks for during a walk. -/
def probeLimit : Nat := 100

/-- Walks over the script's own store. -/
def walk (w : World) (v : Visitor) : Answer × World :=
  (w.read false).withStore fun w s =>
    match w.faults.walking with
    | some text => (.failed (.transaction (.reported text)), s, w)
    | none =>
      let others := (w.faults.scan s probeLimit).toOption.elim 0 List.length
      let visit (seen : List Seen) (e : Entry) : Option Verdict × List Seen :=
        (some (v.visit seen.length), ⟨e, w.faults.count s, others⟩ :: seen)
      let (r, seen, s) := s.walk visit []
      (answerStore (fun pass => .walked pass seen.reverse) r, s, w)

/-- Closes the script's own store. -/
def closeStore (w : World) : Answer × World :=
  w.withStore fun w s =>
    let (r, s) := w.faults.close s
    (answerStore (fun _ => .done) (some r), s, w)

/-- Another process works with a store. -/
def elsewhere (w : World) (c : StoreConfig) (puts : List (Bytes × Bytes)) (removals : List Bytes)
    (crashAfter : Option Nat) : Answer × World :=
  match w.disk.openStore c with
  | (disk, .error (.error e)) => (.failed e, { w with disk })
  | (disk, .error .crash) => (.died, { w with disk })
  | (disk, .ok (home, s)) =>
    let s := puts.foldl (fun s p => (s.put p.1 p.2).2) s
    let (_, s, _) := s.remove removals
    let w := { w with disk := disk.save home s.table }
    (if crashAfter.isSome then .crashed else .count s.count, w)

/-! ### Forwarding -/

/-- Where the script's own forwarders and producers work. -/
def ownSite? (w : World) : Option Site :=
  w.store?.map fun n => ⟨n, ownSignal, w.counters.length, false⟩

/-- Puts an event into the script's own store. -/
def putEvent (w : World) (e : Event) (key : Option Bytes) : Answer × World :=
  let (nonce, w) := w.nonce
  match w.cipher.sealEvent nonce e, key.or (e.guid?.map Utf8.encode) with
  | .error fault, _ => (.failed fault, w)
  | .ok _, none => (.failed (.config .noGuid), w)
  | .ok value, some key => w.put key value

/-- Runs one pass. -/
def forward (w : World) (batchSize : Nat) : Answer × World :=
  match w.ownSite? with
  | none => (.missing, w)
  | some site =>
    let (n, w) := w.spawn site (.pass (.of w.cipher batchSize 0) .starting)
    let w := w.await fun w => w.hasEnded n
    match (w.thread? n).map Thread.work with
    | some (.pass _ (.ended r)) => (answerWith .outcome r, w)
    | _ => (.died, w)

/-- Runs a forwarder until it ends. -/
def runForwarder (w : World) (batchSize delay : Nat) : Answer × World :=
  match w.ownSite? with
  | none => (.missing, w)
  | some site =>
    let (n, w) := w.spawn site (.loop (.create (.of w.cipher batchSize delay)))
    let w := w.await fun w => w.hasEnded n
    if w.hasDied n then (.died, w)
    else (.ran w.signal.flag w.sink.attempts w.reads w.signal.wake.size, w)

/-- Starts a forwarder. -/
def spawnForwarder (w : World) (batchSize delay : Nat) : Answer × World :=
  match w.ownSite? with
  | none => (.missing, w)
  | some site =>
    let (n, w) := w.spawn site (.loop (.create (.of w.cipher batchSize delay)))
    (.done, { w with handle? := some (⟨true⟩, n) })

/-- Waits for the script's own forwarder. -/
def join (w : World) (timeout : Nat) : Answer × World :=
  match w.handle? with
  | none => (.missing, w)
  | some (handle, n) =>
    let w :=
      if handle.attached then w.awaitUntil (fun w => w.hasEnded n) (w.now + timeout) else w
    let (ended, handle, journal) := handle.finish (w.hasEnded n) (w.hasDied n) timeout
    (.joined ended (handle.isFinished (w.hasEnded n)),
      { w.report journal with handle? := some (handle, n) })

/-- Sets or removes a fault. -/
def set (w : World) : Setting → World
  | .opening text => { w with faults := { w.faults with opening := text } }
  | .putting text => { w with faults := { w.faults with putting := text } }
  | .scanning text => { w with faults := { w.faults with scanning := text } }
  | .removing text => { w with faults := { w.faults with removing := text } }
  | .walking text => { w with faults := { w.faults with walking := text } }
  | .recounting text => { w with faults := { w.faults with recounting := text } }
  | .closing text => { w with faults := { w.faults with closing := text } }
  | .putDies b => { w with faults := { w.faults with putDies := b } }
  | .putDelay millis => { w with putDelay := millis }
  | .removesNothing b => { w with faults := { w.faults with removesNothing := b } }
  | .overstated n => { w with faults := { w.faults with overstated := n } }
  | .raisingRead n => { w with raisingRead := n }

/-- How many calls wait at a gate. -/
def blocked (w : World) : Gate → Nat
  | .put => (w.sendings.filter Sending.isBlocked).length
  | .sink => (w.threads.filter fun t => t.attempt.isSome).length

/-- How long a script waits for a condition, in milliseconds. -/
def waitLimit : Nat := 5000

/-- Waits for a condition, and then until everybody is parked. -/
def waitFor (w : World) (done : World → Bool) : Answer × World :=
  let w := w.awaitUntil done (w.now + waitLimit)
  (.reached (done w), w.settle roundsPerTick)

/-! ### Wake-ups -/

/-- Waits until every timer has gone off. -/
def awaitTimers (w : World) : World := w.await fun w => w.timers.isEmpty

/-- Waits for a wake-up. -/
def waitForWake (w : World) (millis : Nat) (notifyAfter : Option Nat) : Answer × World :=
  let w := { w with timers := notifyAfter.toList.map fun t => (w.now + t, .notify) }
  let w := w.awaitUntil (fun w => !w.signal.wake.isEmpty) (w.now + millis)
  let (wake, rest) := w.signal.wake.take
  let w := (w.putSignal { w.signal with wake := rest }).awaitTimers
  (.woken wake w.signal.wake.size, w)

/-- Sleeps unless the flag is raised. -/
def sleep (w : World) (millis : Nat) (flagAfter : Option Nat) : Answer × World :=
  let start := w.now
  let w := { w with
    timers := flagAfter.toList.map fun t => (start + t, .raise)
    errand := .sleeping (start + millis) none }
  let w := w.await fun w =>
    match w.errand with
    | .awake => true
    | _ => false
  let fully := start + millis ≤ w.now
  let w := { w with errand := .none }.awaitTimers
  (.slept fully w.signal.wake.size, w)

/-! ### Producers -/

/-- Begins a call of a producer and gives its number. -/
def beginSend (w : World) (site : Site) (p : Producer) (e : Event) : Nat × World :=
  let (nonce, w) := w.nonce
  (w.sendings.length,
    { w with sendings := w.sendings ++ [⟨site, .ofEvent p nonce e, .atGate⟩] })

/-- Forgets the calls of which nothing is still to be done. -/
def forgetSent (w : World) : World :=
  { w with sendings := w.sendings.filter Sending.isActive }

/-- What the call of a number has returned. -/
def sent? (w : World) (n : Nat) : Option (Except Error Unit) :=
  (w.sendings[n]?).bind fun s => s.submission.result?

/-- Sends an event and waits for the result. -/
def sendTo (w : World) (site : Site) (p : Producer) (e : Event) : Answer × World :=
  let (n, w) := w.forgetSent.beginSend site p e
  let w := w.await fun w => (w.sent? n).isSome
  (match w.sent? n with
    | some r => answerWith (fun _ => .done) r
    | none => .missing, w)

/-- Sends events at the same time and waits for the results. -/
def sendAllTo (w : World) (site : Site) (p : Producer) (es : List Event) : Answer × World :=
  let (ns, w) := es.foldl (fun (ns, w) e =>
    let (n, w) := beginSend w site p e
    (n :: ns, w)) (([] : List Nat), w.forgetSent)
  let w := w.await fun w => ns.all fun n => (w.sent? n).isSome
  (.results (ns.reverse.filterMap w.sent?), w)

/-- Sends an event and gives the call up after a time. -/
def sendBriefly (w : World) (site : Site) (p : Producer) (e : Event) (cancelAfter : Nat) :
    Answer × World :=
  let (n, w) := w.forgetSent.beginSend site p e
  let w := w.awaitUntil (fun w => (w.sent? n).isSome) (w.now + cancelAfter)
  (.cancelled (w.sent? n).isNone,
    { w with sendings := w.sendings.modify n fun s => { s with submission := s.submission.drop } })

/-- Does something with the script's own producer. -/
def withProducer (w : World) (f : Site → Producer → Answer × World) : Answer × World :=
  match w.producer? with
  | none => (.missing, w)
  | some (site, p) => f site p

/-- How many commits are running at a site. -/
def running (w : World) (site : Site) : Nat := (w.counters[site.counter]?.getD .idle).running

/-- Makes the script's own producer. -/
def enlist (w : World) (commitWait : Nat) : Answer × World :=
  match w.ownSite? with
  | none => (.missing, w)
  | some site =>
    (.done, { w with
      counters := w.counters ++ [.idle]
      producer? := some (site, ⟨w.cipher, commitWait⟩) })

/-- Waits until no commit is running. -/
def waitIdle (w : World) (site : Site) (millis : Nat) : Answer × World :=
  let w := { w with errand := .idleWait site .listening (w.now + millis) }
  let w := w.await fun w =>
    match w.errand with
    | .idleWait _ wait _ => wait.result?.isSome
    | _ => true
  let idle :=
    match w.errand with
    | .idleWait _ wait _ => wait.result?.getD false
    | _ => false
  (.idle idle (w.running site), { w with errand := .none })

/-! ### Queues -/

/-- Stops the open queue. -/
def stop (w : World) (graceful : Bool) : World :=
  let w := { w with errand := .stopping graceful .entering }
  let w := w.await fun w =>
    w.queue?.isNone ||
      match w.errand with
      | .stopping _ .done => true
      | _ => false
  { w with errand := .none }

/-- Drops the open queue. -/
def dropQueue (w : World) : World :=
  if w.queue?.isNone then w else { w.stop false with queue? := none }

/-- Whether no thread and no task works with a store. -/
def isReleased (n : Nat) (w : World) : Bool :=
  (w.threads.all fun t => t.site.slot ≠ n || t.work.hasEnded) &&
    w.sendings.all fun s => s.site.slot ≠ n || !s.isActive

/-- Opens a queue in place of the open one and of the script's own store. -/
def openQueue (w : World) (c : QueueConfig) (bare : Bool) : Answer × World :=
  let w : World := { w.dropQueue with store? := none }
  let faults := if bare then Faults.none else w.faults
  match Queue.start c w.sink.targets w.ring .empty faults w.disk with
  | (disk, journal, .error (.error e)) => (.failed e, { w.report journal with disk })
  | (disk, journal, .error .crash) => (.died, { w.report journal with disk })
  | (disk, journal, .ok s) =>
    let site : Site := ⟨w.slots.length, w.signals.length, w.counters.length, bare⟩
    let w : World := { w.report journal with
      disk
      slots := w.slots ++ [⟨s.store.1, s.store.2⟩]
      signals := w.signals ++ [⟨false, .empty⟩]
      counters := w.counters ++ [.idle] }
    let (n, w) := w.spawn site (.loop s.forwarder)
    (.done, { w with queue? := some ⟨s.queue, site, n⟩ })

/-- Does something with the open queue. -/
def withQueue (w : World) (f : Running → Hub → Answer × World) : Answer × World :=
  match w.queue? with
  | none => (.missing, w)
  | some r =>
    match w.hub? r.site with
    | none => (.missing, w)
    | some h => f r h

/-- How many entries there are to be delivered. -/
def pending? (w : World) : Option Nat :=
  match w.queue? with
  | some r => (w.hub? r.site).map Hub.count
  | none => (w.store?.bind w.slot?).map fun slot => w.faults.count slot.store

/-- Scans the store of the open queue. -/
def queueScan (w : World) (limit : Nat) (f : List Entry → Answer) : Answer × World :=
  w.withQueue fun r h =>
    let w := w.read r.site.bare
    (w.scanStore r.site.bare h.store limit f, w)

/-! ### Steps -/

/-- Takes a step of a script and gives the answer. -/
def perform (w : World) : Step → Answer × World
  | .openStore c => w.openStore c
  | .dropStore => (.released, w.dropStore)
  | .put key value => w.put key value
  | .putMany label n start stride value =>
    w.putAll ((List.range n).map fun i =>
      (Utf8.encode (label ++ sixDigits (start + i * stride)), value))
  | .scan limit => w.scan limit .entries
  | .scanOpened limit => w.scan limit fun es => .openedEntries (es.map (openEntry w.cipher))
  | .keys => w.scan noLimit fun es => .keys (es.map Entry.key)
  | .remove keys => w.remove keys
  | .count => w.viewStore fun s => .count (w.faults.count s)
  | .recount => w.recount
  | .stats => w.viewStore fun s => .stats s.stats
  | .closeStore => w.closeStore
  | .walk v => w.walk v
  | .elsewhere c puts removals crashAfter => w.elsewhere c puts removals crashAfter
  | .makeFile path content =>
    (.done, { w with disk := w.disk.write (Path.ofString path) content })
  | .makeDirectory path =>
    match w.disk.createAll path with
    | (disk, .ok ()) => (.done, { w with disk })
    | (disk, .error fault) => (.failed (.io fault), { w with disk })
  | .look path =>
    let node := w.disk.find? path
    (.found node.isSome (node = some .directory), w)
  | .commandLine args keyEnv =>
    let (disk, p) := Report.run args keyEnv w.disk
    (.printed p, { w with disk })
  | .setCipher key => (.encrypted key.isSome, { w with cipher := ⟨key⟩ })
  | .putEvent e key => w.putEvent e key
  | .setSink targets style rules =>
    (.done, { w with
      sink := { w.sink with targets := targets.getD w.sink.targets, style, rules } })
  | .forward batchSize => w.forward batchSize
  | .run batchSize delay => w.runForwarder batchSize delay
  | .spawn batchSize delay => w.spawnForwarder batchSize delay
  | .join timeout => w.join timeout
  | .deliveries => (.groups w.sink.groups, w)
  | .attempts => (.attempts w.sink.attempts, w)
  | .flag set =>
    let w := w.putSignal { w.signal with flag := set.getD w.signal.flag }
    (.flag w.signal.flag, w)
  | .logs =>
    let journal := w.journal
    (.lines (Journal.lines (journal.drop w.seen)), { w with seen := journal.length })
  | .metrics => (.totals w.journal.totals, w)
  | .setFault s => (.done, w.set s)
  | .setGate .put closed => (.done, { w with putGateClosed := closed })
  | .setGate .sink closed => (.done, { w with sink := { w.sink with gateClosed := closed } })
  | .waitBlocked g n => w.waitFor fun w => n ≤ w.blocked g
  | .notify wake =>
    let s := w.signal
    let w := w.putSignal { s with
      wake := match wake with
        | some x => s.wake.push x
        | none => s.wake.pushShutdown }
    (.wakes w.signal.wake.size, w)
  | .waitForWake millis notifyAfter => w.waitForWake millis notifyAfter
  | .sleep millis flagAfter => w.sleep millis flagAfter
  | .clearWakes =>
    let w := w.putSignal { w.signal with wake := w.signal.wake.clear }
    (.wakes w.signal.wake.size, w)
  | .countWakes => (.wakes w.signal.wake.size, w)
  | .enlist commitWait => w.enlist commitWait
  | .send e => w.withProducer fun site p => w.sendTo site p e
  | .sendBriefly e cancelAfter => w.withProducer fun site p => w.sendBriefly site p e cancelAfter
  | .sendAll es => w.withProducer fun site p => w.sendAllTo site p es
  | .inFlight => w.withProducer fun site _ => (.inFlight (w.running site), w)
  | .waitIdle millis => w.withProducer fun site _ => w.waitIdle site millis
  | .register p =>
    let ring := w.ring.register p
    (.providers ring.size, { w with ring })
  | .openQueue c bare => w.openQueue c bare
  | .queueSend e => w.withQueue fun r _ => w.sendTo r.site r.queue.producer e
  | .queueInfo => w.withQueue fun r h => (.info r.queue h.flag, w)
  | .queueStats => w.withQueue fun _ h => (.stats h.store.stats, w)
  | .queueScan limit => w.queueScan limit .entries
  | .queueScanOpened limit =>
    w.queueScan limit fun es => .openedEntries (es.map (openEntry w.cipher))
  | .pending =>
    (match w.pending? with
      | some n => .pending n
      | none => .missing, w)
  | .shutdown => w.withQueue fun _ _ => (.done, w.stop true)
  | .dropQueue =>
    match w.queue? with
    | none => (.released, w)
    | some r => (.released, w.dropQueue.await (isReleased r.site.slot))
  | .waitPending n => w.waitFor fun w => w.pending? = some n
  | .waitAttempts n => w.waitFor fun w => n ≤ w.sink.attempts
  | .waitShutdown => w.waitFor fun w =>
    match w.queue?.bind fun r => w.hub? r.site with
    | some h => h.flag
    | none => false

end World

/-- The answers to the steps of a script. -/
def answers (w : World) : List Step → List Answer
  | [] => []
  | s :: steps =>
    let (a, w) := w.perform s
    a :: answers w steps

/-- The answers to a script that begins in an empty world. -/
def run (steps : List Step) : List Answer := answers .new steps

end Outbox.Scenario
