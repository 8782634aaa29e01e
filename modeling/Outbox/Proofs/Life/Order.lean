import Outbox.Proofs.Life.Once

namespace Outbox

/-!
# The order of deliveries

Where the keys of the entries that are put increase, the sink accepts what it has not accepted
before in the order of the keys, although passes fail, sinks accept the start of a batch and die,
removals fail and everything crashes:

* `Follows` — entries come one after another, none of them before a known entry with a smaller key.
* `Follows.of_sorted` — so do the readable entries of a store, as a pass comes to them.
* `Follows.isPrefix` — what follows so, repetitions left out, is a start of what is known.
* `Job.Step.follows` — a step of a pass has the next entries accepted, and keeps the others waiting.
* `Life.InOrder` — every readable entry is in the store or has been accepted, and what waits for the
  sink comes next.
* `Life.delivers_in_order` — so first acceptances are in order, and nothing is skipped.
-/

/-! ### Entries one after another -/

/-- Entries that come after those that are done, each one only when the known entries with smaller
    keys are done or have come before it. -/
def Follows (known : List Entry) : (done xs : List Entry) → Prop
  | _, [] => True
  | done, x :: xs =>
    (∀ y ∈ known, y.key < x.key → y ∈ done) ∧ Follows known (done ++ [x]) xs

namespace Follows

variable {known done done' more xs ys : List Entry}

/-- Acceptances follow when the first ones do, and the others after these. -/
theorem append_iff :
    Follows known done (xs ++ ys) ↔ Follows known done xs ∧ Follows known (done ++ xs) ys := by
  induction xs generalizing done with
  | nil => simp [Follows]
  | cons x xs ih => simp [Follows, ih, and_assoc]

/-- What follows some entries follows more of them. -/
theorem mono (h : Follows known done xs) (hd : ∀ y ∈ done, y ∈ done') :
    Follows known done' xs := by
  induction xs generalizing done done' with
  | nil => trivial
  | cons x xs ih =>
    refine ⟨fun y hy hlt => hd y (h.1 y hy hlt), ih h.2 fun y hy => ?_⟩
    simp only [List.mem_append] at hy ⊢
    exact hy.imp_left (hd y)

/-- Entries that become known with keys that are not smaller change nothing. -/
theorem grow (h : Follows known done xs) (hm : ∀ x ∈ xs, ∀ y ∈ more, ¬ y.key < x.key) :
    Follows (known ++ more) done xs := by
  induction xs generalizing done with
  | nil => trivial
  | cons x xs ih =>
    refine ⟨fun y hy hlt => ?_, ih h.2 fun z hz => hm z (List.mem_cons_of_mem _ hz)⟩
    rcases List.mem_append.1 hy with hy | hy
    · exact h.1 y hy hlt
    · exact absurd hlt (hm x (List.mem_cons_self ..) y hy)

/-- What has come before an entry. -/
theorem mem_before {before after : List Entry} {x y : Entry}
    (h : Follows known [] (before ++ x :: after)) (hy : y ∈ known) (hlt : y.key < x.key) :
    y ∈ before := by
  have hx := (append_iff.1 h).2.1 y hy hlt
  rwa [List.nil_append] at hx

variable {c : Cipher}

/-- Where entries are in the order of their keys, the readable ones of a stretch of them follow, if
    all readable entries before them are done. -/
theorem of_sorted {sorted before after : List Entry}
    (hs : sorted.Pairwise fun x y => x.key < y.key)
    (hk : ∀ y ∈ known, c.reads y = true ∧ (y ∈ sorted ∨ y ∈ done))
    (hsplit : sorted = before ++ (xs ++ after)) (hb : ∀ y ∈ before, c.reads y = true → y ∈ done) :
    Follows known done (xs.filter c.reads) := by
  induction xs generalizing before done with
  | nil => trivial
  | cons x xs ih =>
    have hsplit' : sorted = (before ++ [x]) ++ (xs ++ after) := by simp [hsplit]
    by_cases hx : c.reads x = true
    · rw [List.filter_cons_of_pos hx]
      refine ⟨fun y hy hlt => ?_, ih (fun y hy => ?_) hsplit' fun y hy hread => ?_⟩
      · obtain ⟨hread, hin | hdone⟩ := hk y hy
        · -- neither the entry itself nor one that comes after it has a smaller key
          rw [hsplit] at hs hin
          have hafter := (List.pairwise_append.1 hs).2.1
          rcases List.mem_append.1 hin with hin | hin
          · exact hb y hin hread
          · rcases List.mem_cons.1 hin with rfl | hin
            · exact absurd hlt (Bytes.lt_irrefl _)
            · have hgt := List.rel_of_pairwise_cons hafter hin
              exact absurd (Bytes.lt_trans hlt hgt) (Bytes.lt_irrefl _)
        · exact hdone
      · exact ⟨(hk y hy).1, (hk y hy).2.imp_right (List.mem_append_left _)⟩
      · simp only [List.mem_append, List.mem_singleton] at hy ⊢
        exact hy.imp_left fun hy => hb y hy hread
    · rw [List.filter_cons_of_neg hx]
      refine ih hk hsplit' fun y hy hread => ?_
      rcases List.mem_append.1 hy with hy | hy
      · exact hb y hy hread
      · rw [List.mem_singleton.1 hy] at hread
        exact absurd hread hx

/-- Known entries that follow from the beginning are, without repetitions, a start of all known
    entries in the order of their keys. -/
theorem isPrefix (hk : known.Pairwise fun x y => x.key < y.key) (h : Follows known [] xs)
    (hm : ∀ x ∈ xs, x ∈ known) : xs.eraseDups <+: known := by
  induction xs using List.reverseRecOn with
  | nil => exact List.nil_prefix
  | append_singleton xs x ih =>
    obtain ⟨hxs, hx, -⟩ := append_iff.1 h
    rw [List.nil_append] at hx
    have ih := ih hxs fun y hy => hm y (List.mem_append_left _ hy)
    rw [eraseDups_concat]
    split
    · exact ih
    · next hnew =>
      obtain ⟨rest, hrest⟩ := ih
      have hin : x ∈ rest := by
        have hin : x ∈ xs.eraseDups ++ rest := by
          rw [hrest]
          exact hm x (by simp)
        simpa [hnew] using hin
      -- the next known entry cannot have a smaller key, for then it would have come already
      rw [← hrest] at hk hx
      obtain ⟨-, hsorted, hlt⟩ := List.pairwise_append.1 hk
      cases rest with
      | nil => cases hin
      | cons r rest =>
        rcases List.mem_cons.1 hin with rfl | hin
        · exact ⟨rest, by rw [← hrest, List.append_assoc, List.singleton_append]⟩
        · have hr : r ∈ xs := hx r (by simp) (List.rel_of_pairwise_cons hsorted hin)
          have hself := hlt r (List.mem_eraseDups.2 hr) r (List.mem_cons_self ..)
          exact absurd hself (Bytes.lt_irrefl _)

end Follows

/-! ### Passes -/

section

variable {known done : List Entry} {a : Account} {history news : List Occurrence}

/-- What a pass has come to, with what its next step reads, follows what has been accepted. -/
theorem Pass.Fits.follows {s : Forwarder.Settings} {h : Hub} {p : Pass}
    (hf : p.Fits s a h.store.files)
    (hr : a.read.filter s.cipher.reads = a.taken ++ a.waiting) (ht : ∀ y ∈ a.taken, y ∈ done)
    (hk : ∀ y ∈ known, s.cipher.reads y = true ∧ (y ∈ h.store.table.toList ∨ y ∈ done))
    (hw : Follows known done a.waiting) (now : Nat) :
    Follows known done (p.account s h now a).waiting := by
  have hsorted := h.store.table.sorted
  cases p with
  | starting =>
    obtain ⟨n, hn⟩ := reads_starting s h
    show Follows known done ([] ++ (starting.reads s h).filter _)
    rw [hn, List.nil_append]
    have hsplit : h.store.table.toList =
        [] ++ (h.store.table.toList.take n ++ h.store.table.toList.drop n) := by
      rw [List.nil_append, List.take_append_drop]
    exact .of_sorted hsorted hk hsplit nofun
  | walking op delivered dropped refused =>
    rcases hf.reads_walking with hnone | ⟨x, rest, hx, hreads, htable⟩
    · rw [account_of_reads_nil _ hnone]
      exact hw
    · have hwait : a.waiting = [] := hf.waiting_of_offered hx
      show Follows known done (a.waiting ++ (reads _ _ _).filter _)
      rw [hreads, hwait, List.nil_append]
      -- what the walk has come past is unreadable or has been taken over
      have hsplit : h.store.table.toList = a.read ++ ([x] ++ rest) := htable
      refine .of_sorted hsorted hk hsplit fun y hy hread => ?_
      have htaken : y ∈ a.read.filter s.cipher.reads := List.mem_filter.2 ⟨hy, hread⟩
      rw [hr, hwait, List.append_nil] at htaken
      exact ht y htaken
  | _ =>
    rw [account_of_reads_nil _ rfl]
    exact hw

end

/-! ### Steps of actors -/

namespace Job

/-- The entries that wait for the sink. -/
def waiting : Job → List Entry
  | forwarding _ a => a.waiting
  | _ => []

/-- The cipher that an actor opens entries with. -/
def opener? : Job → Option Cipher
  | forwarding w _ => some w.settings.cipher
  | _ => none

variable {known : List Entry} {history news : List Occurrence} {f : Files} {j j' : Job}

/-- What waits for the sink has been read. -/
theorem Fits.mem_waiting (hf : j.Fits f history) {x : Entry} (hx : x ∈ j.waiting) :
    x ∈ j.read := by
  cases j with
  | forwarding w a =>
    have hx : x ∈ a.taken ++ a.waiting := List.mem_append_right _ hx
    rw [← hf.2.2.readable] at hx
    exact List.mem_of_mem_filter hx
  | _ => cases hx

/-- What the sink has taken over has been accepted. -/
theorem Fits.mem_taken {w : Scenario.Work} {a : Account} (hf : (forwarding w a).Fits f history)
    {x : Entry} (hx : x ∈ a.taken) : x ∈ acceptedEntries history := by
  obtain ⟨event, entries, events, -, hx, -, hacc⟩ := hf.2.2.accepted x hx
  exact mem_acceptedEntries (List.mem_of_mem_drop hacc) hx

namespace Step

variable {ended : Bool} {how : Act} {s s' : Session} {past : Nat} {c : Cipher}

/-- An actor keeps its cipher. -/
theorem opener_eq (h : Step ended past s how j j' s' news) : j'.opener? = j.opener? := by
  cases h with
  | forward hw =>
    show some (Scenario.Work.settings _).cipher = some _
    rw [hw.settings_eq]
  | answer hw =>
    obtain ⟨hs, -, -, -⟩ := hw
    show some (Scenario.Work.settings _).cipher = some _
    rw [hs]
  | _ => rfl

/-- What is accepted has been opened by the actor. -/
theorem opener_of_accepted (h : Step ended past s how j j' s' news) {entries : List Entry}
    {events : List Event} (hn : .accepted c entries events ∈ news) : j.opener? = some c := by
  cases h with
  | forward hw =>
    obtain ⟨y, -, -, hy⟩ := exists_of_mem_removals hn
    cases hy
  | answer hw =>
    cases (of_mem_acceptance hn).2
    rfl
  | call => cases (of_mem_confirmation hn).2
  | @task e sub sub' h hs =>
    cases hl : Submission.landing e sub sub' <;> simp [hl] at hn
  | drop => cases hn
  | stop same => cases hn

/-- What waits for the sink and is accepted in a step comes next, and so does what waits then. -/
theorem follows (h : Step ended past s how j j' s' news) (hf : j.Fits s.hub.store.files history)
    (hc : ∀ c' ∈ j.opener?, c' = c)
    (hk : ∀ y ∈ known, c.reads y = true ∧
      (y ∈ s.hub.store.table.toList ∨ y ∈ acceptedEntries history))
    (hw : Follows known (acceptedEntries history) j.waiting) :
    Follows known (acceptedEntries history) (acceptedEntries news ++ j'.waiting) := by
  cases h with
  | @forward now w w' a h hstep =>
    rw [(entries_removals w.settings.cipher s.hub.store.table h.store.table).2, List.nil_append]
    show Follows known _ (w.account s.hub past a).waiting
    cases hp : w.pass? with
    | none =>
      unfold Scenario.Work.account
      rw [hp]
      exact hw
    | some p =>
      obtain rfl := hc _ rfl
      rw [Scenario.Work.account_of_pass hp]
      exact (hf.1 p hp).follows hf.2.2.readable (fun y hy => hf.mem_taken hy) hk hw past
  | @answer w w' a h r events hw' =>
    cases r with
    | accepted =>
      have hacc : acceptedEntries (acceptance .accepted w.settings.cipher a events) =
          a.waiting.take events.length := List.append_nil _
      rw [hacc]
      show Follows known _ (a.waiting.take events.length ++ a.waiting.drop events.length)
      rw [List.take_append_drop]
      exact hw
    | _ => exact hw
  | @call now e sub sub' h hs same =>
    rw [(entries_confirmation e sub').2]
    trivial
  | @task e sub sub' h hs =>
    cases Submission.landing e sub sub' <;> trivial
  | drop => trivial
  | stop same => trivial

end Step

end Job

/-! ### Lives -/

/-- Moves of a life in which all who forward have the same cipher. -/
def Life.forwardsWith (c : Cipher) (_ : Life) : Move → Prop
  | .forwards _ s _ => s.cipher = c
  | _ => True

instance (c : Cipher) (l : Life) (m : Move) : Decidable (Life.forwardsWith c l m) := by
  cases m <;> unfold Life.forwardsWith <;> infer_instance

/-- The entries that were in a table, and those that have been committed since. -/
def knownEntries (t : Table) (history : List Occurrence) : List Entry :=
  t.toList ++ committedEntries history

namespace Life

variable {l l' : Life} {t : Table} {c : Cipher} {history news : List Occurrence} {x y : Entry}

/-- The known entries are those of the table and those that have been committed. -/
theorem mem_knownEntries_iff : x ∈ knownEntries t history ↔ Known t history x := by
  unfold knownEntries Known
  rw [List.mem_append]
  refine or_congr_right ⟨fun h => ?_, fun ⟨e, he⟩ => mem_committedEntries he⟩
  obtain ⟨o, ho, hx⟩ := List.mem_filterMap.1 h
  cases o with
  | committed e y =>
    cases hx
    exact ⟨e, ho⟩
  | _ => cases hx

/-- What is committed becomes known after what was. -/
theorem knownEntries_append :
    knownEntries t (history ++ news) = knownEntries t history ++ committedEntries news := by
  unfold knownEntries
  rw [committedEntries_append, List.append_assoc]

/-- Keys have come to be known in their order. -/
def Ascends (t : Table) (history : List Occurrence) : Prop :=
  ((knownEntries t history).map Entry.key).Pairwise (· < ·)

/-- Where keys ascend, the known entries are in their order. -/
theorem Ascends.pairwise (h : Ascends t history) :
    (knownEntries t history).Pairwise fun x y => x.key < y.key :=
  List.pairwise_map.1 h

/-- Where keys ascend in the end, they did so before. -/
theorem Ascends.before (h : Ascends t (history ++ news)) : Ascends t history := by
  unfold Ascends at h
  rw [knownEntries_append, List.map_append] at h
  exact (List.pairwise_append.1 h).1

/-- What is committed next has a greater key than all that is known. -/
theorem Ascends.key_lt (h : Ascends t (history ++ news)) (hx : Known t history x)
    (hy : y ∈ committedEntries news) : x.key < y.key := by
  have hp := h.pairwise
  rw [knownEntries_append] at hp
  exact (List.pairwise_append.1 hp).2.2 x (mem_knownEntries_iff.2 hx) y hy

/-- Known entries with the same key are the same entry. -/
theorem Ascends.eq_of_key_eq (h : Ascends t history) (hx : Known t history x)
    (hy : Known t history y) (hk : x.key = y.key) : x = y := by
  have hnd : ((knownEntries t history).map Entry.key).Nodup := by
    refine List.Pairwise.imp (fun {k k'} hlt heq => ?_) h
    rw [heq] at hlt
    exact Bytes.lt_irrefl _ hlt
  exact List.inj_on_of_nodup_map hnd (mem_knownEntries_iff.2 hx) (mem_knownEntries_iff.2 hy) hk

/-- The readable entries that are known. -/
def readable (c : Cipher) (t : Table) (history : List Occurrence) : List Entry :=
  (knownEntries t history).filter c.reads

/-- The readable entries are the known ones that the cipher reads. -/
theorem mem_readable_iff :
    x ∈ readable c t history ↔ Known t history x ∧ c.reads x = true := by
  unfold readable
  rw [List.mem_filter, mem_knownEntries_iff]

/-- What is known to be readable is in the store or has been accepted; what has been accepted, and
    then what waits with any actor, comes in the order of the keys. -/
structure InOrder (c : Cipher) (t : Table) (l : Life) : Prop where
  openers : ∀ a ∈ l.actors, ∀ c' ∈ a.job.opener?, c' = c
  opens : ∀ c' xs es, .accepted c' xs es ∈ l.history → Opens c xs es
  held : ∀ x ∈ readable c t l.history,
    x ∈ l.files.table.toList ∨ x ∈ acceptedEntries l.history
  accepted : Follows (readable c t l.history) [] (acceptedEntries l.history)
  waiting : ∀ a ∈ l.actors,
    Follows (readable c t l.history) (acceptedEntries l.history) a.job.waiting

/-- Known entries follow as before when others are committed. -/
theorem Ascends.follows {done xs : List Entry} (h : Ascends t (history ++ news))
    (hf : Follows (readable c t history) done xs) (hx : ∀ x ∈ xs, Known t history x) :
    Follows (readable c t (history ++ news)) done xs := by
  unfold readable
  rw [knownEntries_append, List.filter_append]
  refine hf.grow fun x hin y hy hlt => ?_
  have hgt := h.key_lt (hx x hin) (List.mem_of_mem_filter hy)
  exact Bytes.lt_irrefl _ (Bytes.lt_trans hlt hgt)

/-- What leaves the store has been accepted, if it was readable. -/
theorem InOrder.held_act {i : Nat} {how : Act} (hl : l.InOrder c t)
    (hr : Reached (forwardsWith c) t l) (ha : Ascends t l'.history) (h : l.act i how = some l') :
    ∀ x ∈ readable c t l'.history, x ∈ l'.files.table.toList ∨ x ∈ acceptedEntries l'.history := by
  obtain @⟨a, s, s', j, news, hactor, hsess, hstep⟩ := act_cases h
  have hfits := hr.sound.fits_session hactor hsess
  have hrec : l.Record (fun _ => True) t := hr.record fun _ _ _ _ _ => trivial
  intro x hx
  obtain ⟨hknown, hreads⟩ := mem_readable_iff.1 hx
  show x ∈ s'.hub.store.table.toList ∨ x ∈ acceptedEntries (l.history ++ news)
  rw [acceptedEntries_append, List.mem_append]
  by_cases hold : Known t l.history x
  · rcases hl.held x (mem_readable_iff.2 ⟨hold, hreads⟩) with hin | hacc
    · by_cases hgone : x ∈ s'.hub.store.table.toList
      · exact .inl hgone
      · rw [← table_of_session hsess] at hin
        rcases hstep.leaves hfits hin hgone with
          ⟨w, acc, hj, -, hwait, hkey⟩ | ⟨e, y, hy, hk, -⟩
        · -- the pass has read this entry, and nothing that it has read waits any more
          obtain ⟨y, hy, hk⟩ := List.mem_map.1 hkey
          have hmem := List.mem_of_getElem? hactor
          have hread : Known t l.history y := hrec.read a hmem y (by rw [hj]; exact hy)
          obtain rfl : y = x := ha.before.eq_of_key_eq hread hold hk
          have hopen : w.settings.cipher = c := hl.openers a hmem _ (by rw [hj]; rfl)
          rw [hj] at hfits
          have htaken : y ∈ acc.taken := by
            have hfilter : y ∈ acc.read.filter w.settings.cipher.reads :=
              List.mem_filter.2 ⟨hy, by rw [hopen]; exact hreads⟩
            rwa [hfits.2.2.readable, hwait, List.append_nil] at hfilter
          exact .inr (.inl (hfits.mem_taken htaken))
        · -- an entry that takes its place would have a greater key
          have hlt := ha.key_lt hold (mem_committedEntries hy)
          rw [hk] at hlt
          exact absurd hlt (Bytes.lt_irrefl _)
    · exact .inr (.inl hacc)
  · -- what has been unknown is put now
    rcases hknown with hin | ⟨e, he⟩
    · exact absurd (.inl hin) hold
    · rcases List.mem_append.1 he with he | he
      · exact absurd (.inr ⟨e, he⟩) hold
      · exact .inl (hstep.mem_of_committed hfits he)

/-- What is accepted is known. -/
theorem known_of_accepted {uses : Cipher → Prop} (h : ∀ o ∈ news, o.Grounded uses t history) :
    ∀ x ∈ acceptedEntries news, Known t history x := by
  intro x hx
  obtain ⟨o, ho, hx⟩ := List.mem_flatMap.1 hx
  cases o with
  | accepted c' xs es => exact (h _ ho).2.2 x hx
  | _ => cases hx

/-- A step of an actor keeps the order. -/
theorem InOrder.act {i : Nat} {how : Act} (hl : l.InOrder c t)
    (hr : Reached (forwardsWith c) t l) (ha : Ascends t l'.history) (h : l.act i how = some l') :
    l'.InOrder c t := by
  have hheld := hl.held_act hr ha h
  have hsound := hr.sound.act h
  obtain @⟨a, s, s', j, news, hactor, hsess, hstep⟩ := act_cases h
  have htable := table_of_session hsess
  have hfits := hr.sound.fits_session hactor hsess
  have hrec : l.Record (fun _ => True) t := hr.record fun _ _ _ _ _ => trivial
  have hmem := List.mem_of_getElem? hactor
  have hk : ∀ y ∈ readable c t l.history, c.reads y = true ∧
      (y ∈ s.hub.store.table.toList ∨ y ∈ acceptedEntries l.history) := by
    intro y hy
    rw [htable]
    exact ⟨(mem_readable_iff.1 hy).2, hl.held y hy⟩
  -- what is accepted in this step comes next, and so does what the actor has waiting then
  obtain ⟨hnews, hwait⟩ := Follows.append_iff.1
    (hstep.follows hfits (hl.openers a hmem) hk (hl.waiting a hmem))
  rw [← acceptedEntries_append] at hwait
  -- all of this has been known before the step, and so has what waits with the others
  have hold : ∀ x ∈ acceptedEntries l.history, Known t l.history x :=
    known_of_accepted hrec.grounded
  have hgrounds : ∀ o ∈ news, o.Grounded (fun _ => True) t l.history :=
    fun o ho => hstep.grounded hfits (fun _ _ => trivial) (hrec.read a hmem) ho
  have hnew : ∀ x ∈ acceptedEntries news, Known t l.history x := known_of_accepted hgrounds
  refine ⟨fun b hb => ?_, fun c' xs es hacc => ?_, hheld, ?_, fun b hb => ?_⟩
  · rcases List.mem_or_eq_of_mem_set hb with hb | rfl
    · exact hl.openers b hb
    · show ∀ c' ∈ j.opener?, c' = c
      rw [hstep.opener_eq]
      exact hl.openers a hmem
  · rcases List.mem_append.1 hacc with hacc | hacc
    · exact hl.opens c' xs es hacc
    · rw [← hl.openers a hmem c' (hstep.opener_of_accepted hacc)]
      exact (hgrounds _ hacc).2.1
  · show Follows _ [] (acceptedEntries (l.history ++ news))
    refine ha.follows ?_ fun x hx => ?_
    · rw [acceptedEntries_append]
      exact Follows.append_iff.2 ⟨hl.accepted, hnews⟩
    · rw [acceptedEntries_append] at hx
      exact (List.mem_append.1 hx).elim (hold x) (hnew x)
  · obtain ⟨k, hk⟩ := List.mem_iff_getElem?.1 hb
    show Follows _ (acceptedEntries (l.history ++ news)) b.job.waiting
    rcases getElem?_set_cases hk with ⟨-, rfl⟩ | ⟨-, hk'⟩
    · refine ha.follows hwait fun x hx => ?_
      rcases hstep.mem_read hfits ((hsound.fits hk).mem_waiting hx) with hx | hx
      · exact hrec.read a hmem x hx
      · rw [htable] at hx
        exact hrec.stored x hx
    · have hb := List.mem_of_getElem? hk'
      refine ha.follows ((hl.waiting b hb).mono fun y hy => ?_) fun x hx => ?_
      · rw [acceptedEntries_append]
        exact List.mem_append_left _ hy
      · exact hrec.read b hb x ((hr.sound.fits hk').mem_waiting hx)

/-- One more actor for whom nothing waits, where nothing is committed or accepted. -/
theorem InOrder.enlist {n : Nat} {j : Job} (hl : l.InOrder c t) (hc : ∀ c' ∈ j.opener?, c' = c)
    (hw : j.waiting = []) (hcom : committedEntries news = [])
    (hacc : ∀ c' xs es, .accepted c' xs es ∉ news) :
    InOrder c t ⟨l.files, l.sessions, l.actors ++ [⟨n, j⟩], l.history ++ news⟩ := by
  have hreadable : readable c t (l.history ++ news) = readable c t l.history := by
    unfold readable
    rw [knownEntries_append, hcom, List.append_nil]
  have haccepted : acceptedEntries (l.history ++ news) = acceptedEntries l.history := by
    have hnone : acceptedEntries news = [] := by
      refine List.eq_nil_iff_forall_not_mem.2 fun x hx => ?_
      obtain ⟨o, ho, hx⟩ := List.mem_flatMap.1 hx
      cases o with
      | accepted c' xs es => exact hacc c' xs es ho
      | _ => cases hx
    rw [acceptedEntries_append, hnone, List.append_nil]
  constructor
  · intro b hb
    rcases List.mem_append.1 hb with hb | hb
    · exact hl.openers b hb
    · rw [List.mem_singleton.1 hb]
      exact hc
  · intro c' xs es h
    rcases List.mem_append.1 h with h | h
    · exact hl.opens c' xs es h
    · exact absurd h (hacc c' xs es)
  · simp only [hreadable, haccepted]
    exact hl.held
  · simp only [hreadable, haccepted]
    exact hl.accepted
  · simp only [hreadable, haccepted]
    intro b hb
    rcases List.mem_append.1 hb with hb | hb
    · exact hl.waiting b hb
    · rw [List.mem_singleton.1 hb, hw]
      trivial

/-- A move keeps the order. -/
theorem InOrder.move {m : Move} (hl : l.InOrder c t) (hr : Reached (forwardsWith c) t l)
    (ok : forwardsWith c l m) (ha : Ascends t l'.history) (h : l.move m = some l') :
    l'.InOrder c t := by
  cases m with
  | opens queue style faults mapSize =>
    cases h
    exact ⟨hl.openers, hl.opens, hl.held, hl.accepted, hl.waiting⟩
  | sends n p nonce e =>
    obtain ⟨l₁, h₁, rfl⟩ := Option.map_eq_some_iff.1 h
    obtain ⟨-, rfl⟩ := enlist_cases h₁
    exact hl.enlist nofun rfl rfl (by simp)
  | forwards n s loops =>
    obtain ⟨-, rfl⟩ := enlist_cases h
    rw [← List.append_nil l.history]
    refine hl.enlist (fun c' hc' => ?_) rfl rfl nofun
    -- a pass and a loop open entries with the cipher of their settings
    have hs : s.cipher = c := ok
    cases loops <;> cases hc' <;> exact hs
  | stops n graceful =>
    obtain ⟨-, rfl⟩ := enlist_cases h
    rw [← List.append_nil l.history]
    exact hl.enlist nofun rfl rfl (by simp)
  | acts i how => exact hl.act hr ha h
  | raises n =>
    obtain ⟨s, -, rfl⟩ := Option.map_eq_some_iff.1 h
    exact ⟨hl.openers, hl.opens, hl.held, hl.accepted, hl.waiting⟩
  | spoils n faults =>
    obtain ⟨s, -, rfl⟩ := Option.map_eq_some_iff.1 h
    exact ⟨hl.openers, hl.opens, hl.held, hl.accepted, hl.waiting⟩
  | crashes =>
    -- the entries are still in the store, and nobody is left for whom any wait
    cases h
    exact ⟨fun a ha => (List.not_mem_nil ha).elim, hl.opens, hl.held, hl.accepted,
      fun a ha => (List.not_mem_nil ha).elim⟩

/-- The order is kept throughout. -/
theorem Reached.inOrder (h : Reached (forwardsWith c) t l) (ha : Ascends t l.history) :
    l.InOrder c t := by
  induction h with
  | new =>
    refine ⟨fun a ha => (List.not_mem_nil ha).elim, nofun, fun x hx => .inl ?_, trivial,
      fun a ha => (List.not_mem_nil ha).elim⟩
    obtain ⟨hin | ⟨e, he⟩, -⟩ := mem_readable_iff.1 hx
    · exact hin
    · cases he
  | move before ok hm ih =>
    obtain ⟨news, hnews⟩ := history_of_move hm
    have ha' := ha
    rw [hnews] at ha'
    exact (ih ha'.before).move before ok ha hm

/-- Where the keys of the entries increase in the order in which they are committed, and all who
    forward have the same cipher: whatever fails, refuses, dies or crashes, the sink is given what
    entries open to, and the entries that it has accepted are, without repetitions, those that can
    be read up to one of them, in the order of their keys. None of them has been accepted before all
    readable ones with smaller keys. -/
theorem delivers_in_order (h : Reached (forwardsWith c) t l)
    (ha : ((t.toList ++ committedEntries l.history).map Entry.key).Pairwise (· < ·)) :
    Opens c (acceptedEntries l.history) (acceptedEvents l.history) ∧
      ((acceptedEntries l.history).eraseDups.map Entry.key).Pairwise (· < ·) ∧
      (acceptedEntries l.history).eraseDups <+:
        (t.toList ++ committedEntries l.history).filter c.reads ∧
      ∀ before x after, acceptedEntries l.history = before ++ x :: after →
        ∀ y ∈ t.toList ++ committedEntries l.history, c.reads y = true → y.key < x.key →
          y ∈ before := by
  have ha : Ascends t l.history := ha
  have hl := h.inOrder ha
  have hrec : l.Record (fun _ => True) t := h.record fun _ _ _ _ _ => trivial
  -- what has been accepted is known, and it could be opened
  have hreadable : ∀ x ∈ acceptedEntries l.history, x ∈ readable c t l.history := by
    intro x hx
    obtain ⟨event, -, ho⟩ := (opens_accepted hl.opens).exists_of_mem hx
    exact mem_readable_iff.2 ⟨known_of_accepted hrec.grounded x hx, Cipher.reads_of_open ho⟩
  have hsorted : (readable c t l.history).Pairwise fun x y => x.key < y.key :=
    ha.pairwise.filter _
  have hprefix := hl.accepted.isPrefix hsorted hreadable
  refine ⟨opens_accepted hl.opens, ?_, hprefix, fun before x after hacc y hy hread hlt => ?_⟩
  · exact List.pairwise_map.2 (hsorted.sublist hprefix.sublist)
  · have hfollows := hl.accepted
    rw [hacc] at hfollows
    exact hfollows.mem_before (List.mem_filter.2 ⟨hy, hread⟩) hlt

/-- Two events are sent, and a sink that takes one event after another dies with the second one. All
    is opened again after a crash, and both are delivered from the beginning. -/
def relapsing : List Move :=
  let opening : Move := .opens ⟨"", 2, ⟨.plaintext, 0⟩, 0, false, none⟩ .each .none 64
  opening :: (submitting 0 letter ++ submitting 1 postcard ++
    [.forwards 0 (.of .plaintext 2 0) false, .acts 2 (.step 0), .acts 2 (.answer .accepted),
      .acts 2 (.answer .died), .crashes, opening, .forwards 0 (.of .plaintext 2 0) false,
      .acts 0 (.step 0), .acts 0 (.answer .accepted), .acts 0 (.answer .accepted)])

/-- A refusal and a crash come between, and the order is kept. -/
theorem delivers_in_order_of_relapse :
    let l := after (forwardsWith .plaintext) .empty relapsing
    (Reached (forwardsWith .plaintext) .empty l ∧
      ((Table.empty.toList ++ committedEntries l.history).map Entry.key).Pairwise (· < ·) ∧
      (acceptedEntries l.history).map Entry.key = [[97], [97], [98]]) ∧
    Opens .plaintext (acceptedEntries l.history) (acceptedEvents l.history) ∧
      ((acceptedEntries l.history).eraseDups.map Entry.key).Pairwise (· < ·) ∧
      (acceptedEntries l.history).eraseDups <+:
        (Table.empty.toList ++ committedEntries l.history).filter Cipher.plaintext.reads ∧
      ∀ before x after, acceptedEntries l.history = before ++ x :: after →
        ∀ y ∈ Table.empty.toList ++ committedEntries l.history,
          Cipher.plaintext.reads y = true → y.key < x.key → y ∈ before := by
  intro l
  have hl : Reached (forwardsWith .plaintext) .empty l := Reached.after (by decide +kernel)
  have ha : ((Table.empty.toList ++ committedEntries l.history).map Entry.key).Pairwise
      (· < ·) := by
    decide +kernel
  have hkeys : (acceptedEntries l.history).map Entry.key = [[97], [97], [98]] := by decide +kernel
  exact ⟨⟨hl, ha, hkeys⟩, delivers_in_order hl ha⟩

end Life

end Outbox
