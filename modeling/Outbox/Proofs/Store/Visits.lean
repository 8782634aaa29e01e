import Mathlib.Logic.Relation
import Outbox.Proofs.Store.Whole

namespace Outbox

/-!
# What a walk asks its visitor

A walk step by step, with a visitor of any kind:

* `Visit` — an entry that the visitor was asked about, and its answer.
* `Visit.Tours` — the visits of a tour: entries in order, each once, up to the answer that ends it.
* `Table.spared` — what the visits leave.
* `Walker` — a walk under way, with its visitor, its store and its visits.
* `Walker.next`, `Walker.Reaches` — its next step, and where it gets to.
* `Walker.Stage` — where a walker can be, and what it has made of the store there.
* `Walker.Stage.next`, `Walker.Stage.of_reaches` — steps keep this up.
* `Walker.exists_end` — every walk gets to an end, and `Store.walkUnder` tells what it is.
* `Store.walk_exact` — what a walk asks, gives and leaves.
-/

/-! ### Visits -/

/-- An entry that a visitor was asked about, and what it answered; without an answer it has died. -/
structure Visit where
  entry : Entry
  answer : Option Verdict
  deriving DecidableEq

namespace Visit

/-- How a visit ends the tour, unless the tour goes on. -/
def ending? (v : Visit) : Option Tour.Ending :=
  match v.answer with
  | some .delete | some .keep => none
  | some .stop => some .stopped
  | some .abort => some .aborted
  | none => some .died

/-- How many of the answers are to delete. -/
def deletions (vs : List Visit) : Nat := vs.countP fun v => v.answer = some .delete

/-- The visits of a tour of some entries: they are asked about in order, each once, up to the one
    whose answer ends the tour, or all of them. -/
inductive Tours (es : List Entry) : List Visit → Tour.Ending → Prop
  | all {vs : List Visit} (he : vs.map entry = es) (hgo : ∀ v ∈ vs, v.ending? = none) :
      Tours es vs .finished
  | upTo {vs : List Visit} {v : Visit} {rest : List Entry} {ending : Tour.Ending}
      (he : vs.map entry ++ v.entry :: rest = es) (hgo : ∀ v ∈ vs, v.ending? = none)
      (hend : v.ending? = some ending) : Tours es (vs ++ [v]) ending

theorem deletions_concat (vs : List Visit) (v : Visit) :
    deletions (vs ++ [v]) = deletions vs + if v.answer = some .delete then 1 else 0 := by
  unfold deletions
  rw [List.countP_append, List.countP_singleton]
  simp

/-- The entries that are asked about are the first ones. -/
theorem Tours.isPrefix {es : List Entry} {vs : List Visit} {ending : Tour.Ending}
    (h : Tours es vs ending) : vs.map entry <+: es := by
  cases h with
  | all he => exact he ▸ List.prefix_rfl
  | @upTo vs v rest ending he =>
    refine ⟨rest, ?_⟩
    rw [← he, List.map_append, List.map_singleton, List.append_assoc]
    rfl

end Visit

/-! ### What visits leave -/

namespace Table

variable {t : Table} {e : Entry}

/-- The table without the entries that visits have deleted. -/
def spared (t : Table) (vs : List Visit) : Table :=
  ⟨t.toList.filter fun e => ⟨e, some .delete⟩ ∉ vs, t.sorted.filter _⟩

@[simp] theorem spared_nil (t : Table) : t.spared [] = t :=
  ext_toList (List.filter_eq_self.2 fun _ _ => by simp)

/-- To delete an entry is to erase its key. -/
theorem spared_delete (he : e ∈ t.toList) (vs : List Visit) :
    t.spared (vs ++ [⟨e, some .delete⟩]) = (t.spared vs).erase e.key := by
  refine ext_toList ?_
  rw [toList_erase]
  unfold spared
  dsimp only
  rw [List.filter_filter]
  refine List.filter_congr fun x hx => ?_
  by_cases hxe : x = e
  · simp [hxe]
  · have hne : x.key ≠ e.key := fun h => hxe (eq_of_key_eq hx he h)
    simp [hxe, hne]

/-- Any other answer leaves its entry. -/
theorem spared_other {v : Visit} (hv : v.answer ≠ some .delete) (vs : List Visit) :
    t.spared (vs ++ [v]) = t.spared vs := by
  refine ext_toList (List.filter_congr fun x _ => ?_)
  have hne : Visit.mk x (some .delete) ≠ v := fun h => hv (h ▸ rfl)
  simp [hne]

end Table

/-! ### Walkers -/

/-- A walk under way. -/
structure Walker (σ : Type) where
  /-- How far the walk has come; it is gone when its visitor has died. -/
  op : Option WalkOp
  visitor : σ
  store : Store
  /-- What the visitor has been asked and has answered, the oldest first. -/
  visits : List Visit

namespace Walker

variable {σ : Type}

/-- A walk that is about to begin. -/
def start (s : Store) (a : σ) : Walker σ := ⟨some .entering, a, s, []⟩

/-- The next step of a walk: a question to the visitor where an entry is offered, else a step of the
    operation; `failure` says why a commit would fail. -/
def next (failure : Option EngineFault) (visit : σ → Entry → Option Verdict × σ) (w : Walker σ) :
    Option (Walker σ) :=
  match w.op with
  | none => none
  | some op =>
    match op.offered? with
    | none => (op.step failure w.store).map fun (op, store) => { w with op := some op, store }
    | some e =>
      match visit w.visitor e with
      | (none, a) => some ⟨none, a, w.store.abort, w.visits ++ [⟨e, none⟩]⟩
      | (some v, a) =>
        some ⟨some (op.answer v w.store).1, a, (op.answer v w.store).2, w.visits ++ [⟨e, some v⟩]⟩

/-- Where a walk gets to. -/
def Reaches (failure : Option EngineFault) (visit : σ → Entry → Option Verdict × σ) :
    Walker σ → Walker σ → Prop :=
  Relation.ReflTransGen fun w w' => w.next failure visit = some w'

/-- Whether a walk holds the lock. -/
def holds (w : Walker σ) : Bool := w.op.elim false WalkOp.holds

variable {failure : Option EngineFault} {visit : σ → Entry → Option Verdict × σ} {s : Store}
  {w w' : Walker σ}

/-! ### Where a walker can be -/

/-- Where a walk that has begun in a store can be, and what it has made of the store there. -/
inductive Stage (failure : Option EngineFault) (s : Store) : Walker σ → Prop
  | entering {a : σ} : Stage failure s ⟨some .entering, a, s, []⟩
  | locking {a : σ} : Stage failure s ⟨some .locking, a, s, []⟩
  | walking {a : σ} {vs : List Visit} {rest : List Entry}
      (he : vs.map Visit.entry ++ rest = s.table.toList) (hgo : ∀ v ∈ vs, v.ending? = none) :
      Stage failure s ⟨some (.walking rest vs.length (Visit.deletions vs)), a,
        { s with writer := some (s.table.spared vs) }, vs⟩
  | committing {a : σ} {vs : List Visit} {ending : Tour.Ending}
      (tour : Visit.Tours s.table.toList vs ending) (commits : ending.commits = true) :
      Stage failure s ⟨some (.committing vs.length (Visit.deletions vs)), a,
        { s with writer := some (s.table.spared vs) }, vs⟩
  | releasing {a : σ} {vs : List Visit} {ending : Tour.Ending} (works : failure = none)
      (tour : Visit.Tours s.table.toList vs ending) (commits : ending.commits = true) :
      Stage failure s ⟨some (.releasing vs.length (Visit.deletions vs)), a,
        { s with table := s.table.spared vs }, vs⟩
  | tallying {a : σ} {vs : List Visit} {ending : Tour.Ending} (works : failure = none)
      (tour : Visit.Tours s.table.toList vs ending) (commits : ending.commits = true) :
      Stage failure s ⟨some (.tallying vs.length (Visit.deletions vs)), a,
        { s.release (Visit.deletions vs) with table := s.table.spared vs }, vs⟩
  | committed {a : σ} {vs : List Visit} {ending : Tour.Ending} (works : failure = none)
      (tour : Visit.Tours s.table.toList vs ending) (commits : ending.commits = true) :
      Stage failure s ⟨some (.done (.ok ⟨vs.length, Visit.deletions vs, true⟩)), a,
        { s.release (Visit.deletions vs) with
          table := s.table.spared vs
          deletes := s.deletes + Visit.deletions vs }, vs⟩
  | failed {a : σ} {vs : List Visit} {ending : Tour.Ending} {fault : EngineFault}
      (fails : failure = some fault) (tour : Visit.Tours s.table.toList vs ending)
      (commits : ending.commits = true) :
      Stage failure s ⟨some (.done (.error (.engine fault))), a,
        { s with failedCommits := s.failedCommits + 1 }, vs⟩
  | aborted {a : σ} {vs : List Visit} (tour : Visit.Tours s.table.toList vs .aborted) :
      Stage failure s ⟨some (.done (.ok ⟨vs.length, Visit.deletions vs, false⟩)), a, s, vs⟩
  | died {a : σ} {vs : List Visit} (tour : Visit.Tours s.table.toList vs .died) :
      Stage failure s ⟨none, a, s, vs⟩

/-- The answer to a question takes a walk on, or ends it. -/
theorem Stage.answer {a : σ} {vs : List Visit} {e : Entry} {rest : List Entry}
    (free : s.writer = none) (he : vs.map Visit.entry ++ e :: rest = s.table.toList)
    (hgo : ∀ v ∈ vs, v.ending? = none)
    (hn : next failure visit ⟨some (.walking (e :: rest) vs.length (Visit.deletions vs)), a,
      { s with writer := some (s.table.spared vs) }, vs⟩ = some w') : Stage failure s w' := by
  have hin : e ∈ s.table.toList := he ▸ List.mem_append_right _ List.mem_cons_self
  have habort : Store.abort { s with writer := some (s.table.spared vs) } = s := by
    unfold Store.abort
    rw [← free]
  -- where the tour goes on, the next entry comes
  have hon : ∀ v : Visit, v.entry = e → v.ending? = none →
      (vs ++ [v]).map Visit.entry ++ rest = s.table.toList ∧
        ∀ u ∈ vs ++ [v], u.ending? = none := by
    intro v hv hend
    refine ⟨by rw [← he, ← hv]; simp, fun u hu => ?_⟩
    rcases List.mem_append.1 hu with hu | hu
    · exact hgo u hu
    · rw [List.mem_singleton.1 hu]
      exact hend
  rcases hv : visit a e with ⟨_ | _ | _ | _ | _, b⟩
  · simp only [next, WalkOp.offered?, hv, Option.some.injEq] at hn
    rw [habort] at hn
    exact hn ▸ .died (.upTo (v := ⟨e, none⟩) he hgo rfl)
  · simp only [next, WalkOp.offered?, hv, Option.some.injEq, WalkOp.answer] at hn
    obtain ⟨he', hgo'⟩ := hon ⟨e, some .delete⟩ rfl rfl
    have hstage : Stage failure s (_ : Walker σ) := .walking (a := b) he' hgo'
    rw [Visit.deletions_concat, List.length_append, Table.spared_delete hin] at hstage
    exact hn ▸ hstage
  · simp only [next, WalkOp.offered?, hv, Option.some.injEq, WalkOp.answer] at hn
    obtain ⟨he', hgo'⟩ := hon ⟨e, some .keep⟩ rfl rfl
    have hstage : Stage failure s (_ : Walker σ) := .walking (a := b) he' hgo'
    rw [Visit.deletions_concat, List.length_append, Table.spared_other (by simp)] at hstage
    exact hn ▸ hstage
  · simp only [next, WalkOp.offered?, hv, Option.some.injEq, WalkOp.answer] at hn
    have hstage : Stage failure s (_ : Walker σ) :=
      .committing (a := b) (.upTo (v := ⟨e, some .stop⟩) he hgo rfl) rfl
    rw [Visit.deletions_concat, List.length_append, Table.spared_other (by simp)] at hstage
    exact hn ▸ hstage
  · simp only [next, WalkOp.offered?, hv, Option.some.injEq, WalkOp.answer] at hn
    rw [habort] at hn
    have hstage : Stage failure s (_ : Walker σ) :=
      .aborted (a := b) (.upTo (v := ⟨e, some .abort⟩) he hgo rfl)
    rw [Visit.deletions_concat, List.length_append] at hstage
    exact hn ▸ hstage

/-- A step takes a walk from where it can be to where it can be. -/
theorem Stage.next (isOpen : s.closed = false) (free : s.writer = none)
    (h : Stage failure s w) (hn : w.next failure visit = some w') : Stage failure s w' := by
  cases h with
  | entering =>
    simp only [Walker.next, WalkOp.offered?, WalkOp.step, isOpen, Option.map_some,
      Option.some.injEq] at hn
    exact hn ▸ .locking
  | @locking a =>
    simp only [Walker.next, WalkOp.offered?, WalkOp.step, Store.lock, free, Option.map_some,
      Option.some.injEq] at hn
    have hstage : Stage failure s (_ : Walker σ) :=
      .walking (a := a) (show [].map Visit.entry ++ s.table.toList = _ from rfl) (by simp)
    rw [Table.spared_nil] at hstage
    exact hn ▸ hstage
  | @walking a vs rest he hgo =>
    cases rest with
    | cons e rest => exact .answer free he hgo hn
    | nil =>
      simp only [Walker.next, WalkOp.offered?, WalkOp.step, Option.map_some,
        Option.some.injEq] at hn
      exact hn ▸ .committing (.all (by simpa using he) hgo) rfl
  | @committing a vs ending tour commits =>
    cases hf : failure with
    | some fault =>
      simp only [Walker.next, WalkOp.offered?, WalkOp.step, hf, Option.map_some,
        Option.some.injEq, Store.failCommit, Store.abort] at hn
      rw [← free] at hn
      exact hn ▸ .failed rfl tour commits
    | none =>
      simp only [Walker.next, WalkOp.offered?, WalkOp.step, hf, Option.map_some,
        Option.some.injEq, Store.commit, Option.getD_some] at hn
      rw [← free] at hn
      -- where nothing is deleted, the counters are not touched
      by_cases hd : Visit.deletions vs = 0
      · have hstage : Stage none s (_ : Walker σ) := .committed (a := a) rfl tour commits
        rw [hd, Store.release_zero] at hstage
        rw [if_pos hd] at hn
        exact hn ▸ hstage
      · rw [if_neg hd] at hn
        exact hn ▸ .releasing rfl tour commits
  | releasing works tour commits =>
    simp only [Walker.next, WalkOp.offered?, WalkOp.step, Option.map_some,
      Option.some.injEq] at hn
    exact hn ▸ .tallying works tour commits
  | tallying works tour commits =>
    simp only [Walker.next, WalkOp.offered?, WalkOp.step, Option.map_some,
      Option.some.injEq] at hn
    exact hn ▸ .committed works tour commits
  | committed | failed | aborted | died => cases hn

/-- So wherever a walk gets to, it is where it can be. -/
theorem Stage.of_reaches (isOpen : s.closed = false) (free : s.writer = none) {a : σ}
    (h : Reaches failure visit (start s a) w) : Stage failure s w := by
  induction h with
  | refl => exact .entering
  | tail _ hn ih => exact ih.next isOpen free hn

/-- The entries that a walk has asked about are the first ones. -/
theorem Stage.isPrefix (h : Stage failure s w) : w.visits.map Visit.entry <+: s.table.toList := by
  cases h with
  | entering | locking => exact List.nil_prefix
  | walking he => exact ⟨_, he⟩
  | committing tour | aborted tour | died tour => exact tour.isPrefix
  | releasing _ tour | tallying _ tour | committed _ tour | failed _ tour => exact tour.isPrefix

/-- Under the lock, readers see what was there before the walk. -/
theorem Stage.store_of_holds (h : Stage failure s w) (hh : w.holds = true) :
    ∃ t, w.store = { s with writer := some t } := by
  cases h with
  | walking | committing => exact ⟨_, rfl⟩
  | entering | locking | releasing | tallying | committed | failed | aborted | died => cases hh

/-- A walk without a next step is done, or its visitor has died. -/
theorem Stage.over (free : s.writer = none) (h : Stage failure s w)
    (hn : w.next failure visit = none) : w.op = none ∨ ∃ r, w.op = some (.done r) := by
  cases h with
  | died => exact .inl rfl
  | committed | failed | aborted => exact .inr ⟨_, rfl⟩
  | locking => simp [Walker.next, WalkOp.offered?, WalkOp.step, Store.lock, free] at hn
  | @walking a _ rest =>
    cases rest with
    | nil => cases hn
    | cons e rest =>
      rcases hv : visit a e with ⟨_ | v, b⟩ <;> simp [Walker.next, WalkOp.offered?, hv] at hn
  | committing =>
    cases failure <;> cases hn
  | entering | releasing | tallying => cases hn

/-! ### To the end -/

/-- The steps of an operation are steps of its walk. -/
theorem reaches_iterate {op op' : WalkOp} {t t' : Store} {a : σ} {vs : List Visit} {fuel : Nat}
    (h : Store.iterate (fun (op, s) => WalkOp.step failure op s) fuel (op, t) = (op', t')) :
    Reaches failure visit ⟨some op, a, t, vs⟩ ⟨some op', a, t', vs⟩ := by
  induction fuel generalizing op t with
  | zero => cases h; exact .refl
  | succ fuel ih =>
    unfold Store.iterate at h
    split at h
    · cases h
      exact .refl
    · next p hp =>
      obtain ⟨op₁, t₁⟩ := p
      have hoff : op.offered? = none := by
        cases op with
        | walking rest => cases rest with
          | nil => rfl
          | cons => cases hp
        | _ => rfl
      refine .head ?_ (ih h)
      simp only [next, hoff]
      rw [show WalkOp.step failure op t = some (op₁, t₁) from hp]
      rfl

/-- The questions of a walk are steps of it. -/
theorem reaches_visitAll (failure : Option EngineFault) {op : Option WalkOp} {t t' : Store}
    {a b : σ} (vs : List Visit) {rest : List Entry} {n d : Nat}
    (h : WalkOp.visitAll visit rest a (.walking rest n d) t = (op, b, t')) :
    ∃ vs', Reaches failure visit ⟨some (.walking rest n d), a, t, vs⟩ ⟨op, b, t', vs'⟩ := by
  induction rest generalizing a t vs n d with
  | nil =>
    cases h
    exact ⟨vs, .refl⟩
  | cons e rest ih =>
    rcases hv : visit a e with ⟨_ | v, c⟩
    · simp only [WalkOp.visitAll, hv] at h
      cases h
      exact ⟨vs ++ [⟨e, none⟩], .single (by simp only [next, WalkOp.offered?, hv])⟩
    · have hfirst : next failure visit ⟨some (.walking (e :: rest) n d), a, t, vs⟩ =
          some ⟨some (WalkOp.answer v (.walking (e :: rest) n d) t).1, c,
            (WalkOp.answer v (.walking (e :: rest) n d) t).2, vs ++ [⟨e, some v⟩]⟩ := by
        simp only [next, WalkOp.offered?, hv]
      simp only [WalkOp.visitAll, hv] at h
      cases v with
      | delete | keep =>
        obtain ⟨vs', hreach⟩ := ih (vs ++ [⟨e, some _⟩]) h
        exact ⟨vs', .head hfirst hreach⟩
      | stop | abort =>
        cases h
        exact ⟨_, .single hfirst⟩

/-- After the tour a walk is done in four steps. -/
theorem iterate_ofEnding (failure : Option EngineFault) {n d : Nat} {ending : Tour.Ending}
    {op : WalkOp} (t : Store)
    (h : WalkOp.ofEnding n d ending = some op) :
    ∃ r t', Store.iterate (fun (op, s) => WalkOp.step failure op s) 4 (op, t) = (.done r, t') := by
  cases ending with
  | died => cases h
  | aborted =>
    cases h
    exact ⟨_, _, rfl⟩
  | finished | stopped =>
    cases h
    cases failure with
    | some fault => exact ⟨_, _, rfl⟩
    | none =>
      by_cases hd : d = 0
      · simp [Store.iterate, WalkOp.step, hd]
      · simp [Store.iterate, WalkOp.step, hd]

/-- Every walk gets to an end, and a whole walk tells what that is. -/
theorem exists_end (isOpen : s.closed = false) (free : s.writer = none)
    (failure : Option EngineFault) (visit : σ → Entry → Option Verdict × σ) (a : σ) :
    ∃ w, Reaches failure visit (start s a) w ∧ w.next failure visit = none ∧
      s.walkUnder failure visit a = (w.op.bind WalkOp.result?, w.visitor, w.store) := by
  have hbegin : Store.iterate (fun (op, s) => WalkOp.step failure op s) 2 (.entering, s) =
      (.walking s.table.toList 0 0, { s with writer := some s.table }) := by
    simp [Store.iterate, WalkOp.step, Store.lock, isOpen, free]
  have hstart : Reaches failure visit (start s a) _ := reaches_iterate hbegin
  rcases hv : WalkOp.visitAll visit s.table.toList a (.walking s.table.toList 0 0)
    { s with writer := some s.table } with ⟨op, b, t⟩
  obtain ⟨vs, hasks⟩ := reaches_visitAll failure [] hv
  cases op with
  | none =>
    refine ⟨⟨none, b, t, vs⟩, hstart.trans hasks, rfl, ?_⟩
    unfold Store.walkUnder
    simp only [hbegin, hv]
    rfl
  | some op =>
    have hend := hv
    rw [WalkOp.visitAll_eq rfl] at hend
    obtain ⟨r, t', hlast⟩ := iterate_ofEnding failure t (congrArg Prod.fst hend)
    refine ⟨⟨some (.done r), b, t', vs⟩, (hstart.trans hasks).trans (reaches_iterate hlast), rfl,
      ?_⟩
    unfold Store.walkUnder
    simp only [hbegin, hv, hlast]
    rfl

/-- A walk has one end. -/
theorem Reaches.unique {a : σ} {v : Walker σ} (h : Reaches failure visit (start s a) v)
    (hv : v.next failure visit = none) (h' : Reaches failure visit (start s a) w)
    (hw : w.next failure visit = none) : v = w := by
  have hstays : ∀ {u u' : Walker σ}, u.next failure visit = none →
      Reaches failure visit u u' → u = u' := by
    intro u u' hu hreach
    rcases hreach.cases_head with rfl | ⟨_, hn, -⟩
    · rfl
    · rw [hu] at hn
      cases hn
  have hdet : Relator.RightUnique fun w w' : Walker σ => w.next failure visit = some w' :=
    fun _ _ _ hb hc => Option.some.inj (hb.symm.trans hc)
  rcases Relation.ReflTransGen.total_of_right_unique hdet h h' with hreach | hreach
  · exact hstays hv hreach
  · exact (hstays hw hreach).symm

end Walker

/-! ### The whole walk -/

/-- A walk in a store that nobody else works with, with any visitor. It gets to an end. Wherever it
    gets to, it has asked about the first entries in the order of their keys, about each once; as
    long as it holds the lock, others see what was there before. In the end the visitor has been
    asked about all entries, or up to its answer to stop or to abort or up to its death; the result
    counts the questions and the answers to delete. A commit removes exactly the entries that the
    visitor has deleted, and otherwise they are all there. -/
theorem Store.walk_exact {σ : Type} (failure : Option EngineFault) (s : Store)
    (visit : σ → Entry → Option Verdict × σ) (a : σ)
    (isOpen : s.closed = false) (free : s.writer = none) :
    (∃ w, Walker.Reaches failure visit (.start s a) w ∧ w.next failure visit = none) ∧
    ∀ w, Walker.Reaches failure visit (.start s a) w →
      (w.visits.map Visit.entry <+: s.table.toList ∧
        (w.visits.map Visit.entry).Pairwise fun e e' => e.key < e'.key) ∧
      (w.holds = true →
        (∀ n, w.store.scan n = s.scan n) ∧ w.store.count = s.count ∧ w.store.stats = s.stats) ∧
      (w.next failure visit = none →
        s.walkUnder failure visit a = (w.op.bind WalkOp.result?, w.visitor, w.store) ∧
        ∃ ending, Visit.Tours s.table.toList w.visits ending ∧
          (ending.commits = true → failure = none →
            w.op = some (.done (.ok ⟨w.visits.length, Visit.deletions w.visits, true⟩)) ∧
            w.store = { s.release (Visit.deletions w.visits) with
              table := s.table.spared w.visits
              deletes := s.deletes + Visit.deletions w.visits }) ∧
          (ending.commits = true → ∀ fault, failure = some fault →
            w.op = some (.done (.error (.engine fault))) ∧
            w.store = { s with failedCommits := s.failedCommits + 1 }) ∧
          (ending = .aborted →
            w.op = some (.done (.ok ⟨w.visits.length, Visit.deletions w.visits, false⟩)) ∧
            w.store = s) ∧
          (ending = .died → w.op = none ∧ w.store = s)) := by
  -- there is an end; as walks go one way only, whatever has ended has got there
  obtain ⟨v, hv, hend, hwhole⟩ := Walker.exists_end isOpen free failure visit a
  refine ⟨⟨v, hv, hend⟩, fun w hw => ?_⟩
  -- how far a walk has come tells everything about it, by the stage that it has reached
  have hstage := Walker.Stage.of_reaches isOpen free hw
  refine ⟨⟨hstage.isPrefix, ?_⟩, fun hholds => ?_, fun hover => ?_⟩
  · exact s.table.sorted.sublist hstage.isPrefix.sublist
  · obtain ⟨t, ht⟩ := hstage.store_of_holds hholds
    rw [ht]
    exact ⟨fun _ => rfl, rfl, rfl⟩
  · obtain rfl := hv.unique hend hw hover
    refine ⟨hwhole, ?_⟩
    -- a walk without a next step has died or has a result
    obtain hgone | ⟨r, hdone⟩ := hstage.over free hover
    · cases hstage with
      | died tour => exact ⟨_, tour, nofun, nofun, nofun, fun _ => ⟨rfl, rfl⟩⟩
      | _ => cases hgone
    · cases hstage with
      | committed works tour commits =>
        refine ⟨_, tour, fun _ _ => ⟨rfl, rfl⟩, fun _ fault hfails => ?_, ?_, ?_⟩
        · rw [works] at hfails
          cases hfails
        · rintro rfl
          cases commits
        · rintro rfl
          cases commits
      | failed fails tour commits =>
        refine ⟨_, tour, fun _ hworks => ?_, fun _ fault hfails => ?_, ?_, ?_⟩
        · rw [fails] at hworks
          cases hworks
        · obtain rfl := Option.some.inj (fails.symm.trans hfails)
          exact ⟨rfl, rfl⟩
        · rintro rfl
          cases commits
        · rintro rfl
          cases commits
      | aborted tour => exact ⟨_, tour, nofun, nofun, fun _ => ⟨rfl, rfl⟩, nofun⟩
      | _ => cases hdone

/-- A visitor that gives some answers, and dies when it has none left. -/
def Visit.scripted : List Verdict → Entry → Option Verdict × List Verdict
  | [], _ => (none, [])
  | v :: vs, _ => (some v, vs)

/-- A store with five entries, of which the counter knows one. -/
def Store.undercounted : Store :=
  { Store.ofTable (((((Table.empty.insert [4] []).insert [1, 0] []).insert [3] []).insert [5]
      []).insert [1] []) 4096 with counter := 1 }

/-- The first and the third of five entries go, the second and the last two stay. -/
theorem Store.walk_exact_of_stop :
    (Store.undercounted.closed = false ∧ Store.undercounted.writer = none) ∧
    ∃ w, Walker.Reaches none Visit.scripted
        (.start Store.undercounted [.delete, .keep, .delete, .stop]) w ∧
      w.visits = [⟨⟨[1], []⟩, some .delete⟩, ⟨⟨[1, 0], []⟩, some .keep⟩,
        ⟨⟨[3], []⟩, some .delete⟩, ⟨⟨[4], []⟩, some .stop⟩] ∧
      w.op = some (.done (.ok ⟨4, 2, true⟩)) ∧
      w.store.table.toList = [⟨[1, 0], []⟩, ⟨[4], []⟩, ⟨[5], []⟩] ∧
      w.store.count = 0 ∧ w.store.deletes = 2 := by
  obtain ⟨w, hreach, hover, hvisits, hop⟩ : ∃ w, Walker.Reaches none Visit.scripted
      (.start Store.undercounted [.delete, .keep, .delete, .stop]) w ∧
      w.next none Visit.scripted = none ∧
      w.visits = [⟨⟨[1], []⟩, some .delete⟩, ⟨⟨[1, 0], []⟩, some .keep⟩,
        ⟨⟨[3], []⟩, some .delete⟩, ⟨⟨[4], []⟩, some .stop⟩] ∧
      w.op = some (.done (.ok ⟨4, 2, true⟩)) :=
    ⟨_, .head rfl (.head rfl (.head rfl (.head rfl (.head rfl (.head rfl (.head rfl
      (.head rfl (.head rfl .refl)))))))), rfl, rfl, rfl⟩
  obtain ⟨-, ending, -, hcommits, -, haborts, hdies⟩ :=
    ((Store.walk_exact none Store.undercounted Visit.scripted
      [.delete, .keep, .delete, .stop] rfl rfl).2 w hreach).2.2 hover
  have hends : ending.commits = true := by
    cases ending with
    | finished | stopped => rfl
    | aborted => simpa [hop] using (haborts rfl).1
    | died => simpa [hop] using (hdies rfl).1
  refine ⟨⟨rfl, rfl⟩, w, hreach, hvisits, hop, ?_⟩
  rw [(hcommits hends rfl).2, hvisits]
  decide

end Outbox
