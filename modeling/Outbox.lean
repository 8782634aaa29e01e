import Outbox.Documents
import Outbox.Frame.Words
import Outbox.Guid
import Outbox.Main
import Outbox.Scenario.Perform
import Outbox.Proofs.Store.Lock
import Outbox.Proofs.Store.WorkingCopy
import Outbox.Proofs.Store.Counting
import Outbox.Proofs.Forwarder.Account
import Outbox.Proofs.Forwarder.Pass
import Outbox.Proofs.Forwarder.Work
import Outbox.Proofs.Submission
import Outbox.Proofs.Life.Basic
import Outbox.Proofs.Life.Sound
import Outbox.Proofs.Life.Removal
import Outbox.Proofs.Life.Ledger
import Outbox.Proofs.Life.Record
import Outbox.Proofs.Life.NoLoss
import Outbox.Proofs.Cipher
import Outbox.Proofs.Envelope
import Outbox.Proofs.Forwarder.Settle
import Outbox.Proofs.Hub
import Outbox.Proofs.Life.Unhindered
import Outbox.Proofs.Life.Once
import Outbox.Proofs.Forwarder.Loop
import Outbox.Proofs.Turns
import Outbox.Proofs.Life.Moves
import Outbox.Proofs.Life.Drain
import Outbox.Proofs.Life.Signal
import Outbox.Proofs.Life.Counter
import Outbox.Proofs.Life.Wakeful
import Outbox.Proofs.Forwarder.Alone
import Outbox.Proofs.Forwarder.Drains
import Outbox.Proofs.RoundTrip
import Outbox.Proofs.Grammar
import Outbox.Proofs.Names
import Outbox.Proofs.Life.Order
import Outbox.Proofs.Life.LoopEnd
import Outbox.Proofs.Forwarder.Reports
import Outbox.Proofs.Life.Delivery
import Outbox.Proofs.Disk
import Outbox.Proofs.Store.Whole
import Outbox.Proofs.Store.Register
import Outbox.Proofs.Store.Keeper
import Outbox.Proofs.Forwarder.Yield
import Outbox.Proofs.Life.Pace
import Outbox.Proofs.Forwarder.Fate
import Outbox.Proofs.Forwarder.OwnSteps
import Outbox.Proofs.Life.Queued
import Outbox.Proofs.Life.Setback
import Outbox.Proofs.Forwarder.Trigger
import Outbox.Proofs.Journal
import Outbox.Proofs.Forwarder.Outcomes
import Outbox.Proofs.Life.Books
import Outbox.Proofs.Life.Replay
import Outbox.Proofs.Life.Shut
import Outbox.Proofs.Store.Visits
import Outbox.Proofs.Forwarder.Course
import Outbox.Proofs.Forwarder.Single
import Outbox.Proofs.Life.Deeds
import Outbox.Proofs.Life.Receipts
import Outbox.Proofs.Truncation
import Outbox.Proofs.Life.Onlooker
import Outbox.Proofs.Life.IdleWaits
import Outbox.Proofs.Life.Owner
import Outbox.Proofs.Edits
import Outbox.Proofs.Documents
import Outbox.Proofs.Startup
import Outbox.Proofs.Forwarder.Cull
import Outbox.Proofs.Report
import Outbox.Proofs.Times
import Outbox.Proofs.Frame.Words
import Outbox.Proofs.SecretKey
