import Outbox.Proofs.Lists
import Outbox.Queue

namespace Outbox

/-!
# Startup

What keeps a queue from being opened, and which key it is opened with:

* `KeyRing.ofList`, `KeyRing.get?_ofList` — of the providers that agree in lower case, the one that
  was registered last is found.
* `KeyRing.Yields`, `KeyRing.resolve_of_yields` — the key that a configured name yields.
* `KeyRing.isSome_resolve`, `KeyRing.length_errors_resolve` — there is a key if the name yields one,
  and otherwise an error is logged.
* `Queue.startOn_of_noTargets`, `Queue.startOn_of_crash`, `Queue.startOn_of_error`,
  `Queue.startOn_of_ok` — the ways in which opening a queue goes.
* `Queue.fails_as_stated` — so nothing but a sink without targets and a store that cannot be opened
  keeps a queue from being opened, and it is encrypted if and only if there is a key.
-/

/-- The log lines of a journal that report an error. -/
def Journal.errors (j : Journal) : List LogLine :=
  (lines j).filter fun l => l.severity = .error

theorem Journal.errors_append (j j' : Journal) : errors (j ++ j') = errors j ++ errors j' := by
  simp [errors, lines, incidents]

/-! ### Key rings -/

namespace KeyRing

variable {p : KeyProvider} {ps : List KeyProvider} {name : String} {env : Environment}
  {configured : Option String} {key : SecretKey}

/-- The key ring of providers that are registered one after another. -/
def ofList (ps : List KeyProvider) : KeyRing := ps.foldl register empty

/-- A provider is of a name if the two agree in lower case. -/
abbrev Named (name : String) (p : KeyProvider) : Prop := Text.lower p.name = Text.lower name

theorem get?_register (r : KeyRing) (p : KeyProvider) (name : String) :
    (r.register p).get? name = if Named name p then some p else r.get? name := by
  show List.lookup (Text.lower name) ((Text.lower p.name, p) :: _) = _
  rw [List.lookup_cons]
  by_cases h : Named name p
  · rw [if_pos h, h, BEq.rfl]
  · rw [if_neg h, beq_eq_false_iff_ne.2 (Ne.symm h)]
    exact lookup_filter_ne r.providers (Ne.symm h)

/-- Under a name is found who was registered last among those of the name. -/
theorem get?_ofList : (ofList ps).get? name = some p ↔ IsLast (Named name) ps p := by
  induction ps using List.reverseRecOn with
  | nil => exact ⟨nofun, fun h => (not_isLast_nil h).elim⟩
  | append_singleton ps q ih =>
    rw [ofList, List.foldl_concat, get?_register, isLast_concat]
    split
    · rw [Option.some.injEq, eq_comm]
    · exact ih

/-- The configured name yields a key: the provider that was registered last under it has this
    key. -/
def Yields (ps : List KeyProvider) (env : Environment) (configured : Option String)
    (key : SecretKey) : Prop :=
  ∃ name p, configured = some name ∧ IsLast (Named name) ps p ∧ p.secretKey env = .ok key

theorem resolve_of_yields (h : Yields ps env configured key) :
    (ofList ps).resolve env configured = (some key, []) := by
  obtain ⟨name, p, rfl, hlast, hkey⟩ := h
  simp only [resolve, get?_ofList.2 hlast, hkey]

/-- Where there is no key, that is logged as one error if a name is configured. -/
theorem resolve_of_not_yields (h : ∀ key, ¬ Yields ps env configured key) :
    ∃ journal, (ofList ps).resolve env configured = (none, journal) ∧
      (Journal.errors journal).length = if configured.isSome then 1 else 0 := by
  cases configured with
  | none => exact ⟨[], rfl, rfl⟩
  | some name =>
    cases hget : (ofList ps).get? name with
    | none => exact ⟨[.incident (.unknownKeyProvider name)], by simp only [resolve, hget], rfl⟩
    | some p =>
      cases hkey : p.secretKey env with
      | ok key => exact absurd ⟨name, p, rfl, get?_ofList.1 hget, hkey⟩ (h key)
      | error e =>
        exact ⟨[.incident (.keyProviderFailed p.name e)], by simp only [resolve, hget, hkey], rfl⟩

theorem isSome_resolve : ((ofList ps).resolve env configured).1.isSome = true ↔
    ∃ key, Yields ps env configured key := by
  by_cases h : ∃ key, Yields ps env configured key
  · obtain ⟨key, hkey⟩ := h
    rw [resolve_of_yields hkey]
    exact iff_of_true rfl ⟨key, hkey⟩
  · obtain ⟨journal, hresolve, -⟩ := resolve_of_not_yields (not_exists.1 h)
    rw [hresolve]
    exact iff_of_false nofun h

/-- A configured name without a key is the one error that is logged. -/
theorem length_errors_resolve : (Journal.errors ((ofList ps).resolve env configured).2).length =
    if configured.isSome ∧ ¬ ((ofList ps).resolve env configured).1.isSome then 1 else 0 := by
  by_cases h : ∃ key, Yields ps env configured key
  · obtain ⟨key, hkey⟩ := h
    rw [resolve_of_yields hkey, if_neg fun hnone => hnone.2 rfl]
    rfl
  · obtain ⟨journal, hresolve, hlog⟩ := resolve_of_not_yields (not_exists.1 h)
    rw [hresolve, hlog]
    simp

end KeyRing

/-! ### Opening a queue -/

namespace Queue

open KeyRing

variable {World Opened : Type} {backend : Backend World Opened} {c : QueueConfig}
  {targets : List String} {ring : KeyRing} {env : Environment} {w w' : World}

/-- Without a target the store is not looked at. -/
theorem startOn_of_noTargets :
    startOn backend c [] ring env w = (w, [], .error (.error (.config .noTargets))) := rfl

theorem startOn_of_crash (ht : targets ≠ []) (h : backend c.store w = (w', .error .crash)) :
    startOn backend c targets ring env w = (w', batchSizeIncidents c, .error .crash) := by
  simp only [startOn, List.isEmpty_iff, ht, h, if_false]

theorem startOn_of_error {e : Error} (ht : targets ≠ [])
    (h : backend c.store w = (w', .error (.error e))) :
    startOn backend c targets ring env w =
      (w', batchSizeIncidents c, .error (.error (openError e))) := by
  simp only [startOn, List.isEmpty_iff, ht, h, if_false]

/-- With its store open, a queue is opened whatever becomes of the key. -/
theorem startOn_of_ok (ring : KeyRing) (env : Environment) {store : Opened} (ht : targets ≠ [])
    (h : backend c.store w = (w', .ok store)) :
    ∃ s, startOn backend c targets ring env w =
        (w', batchSizeIncidents c ++ (ring.resolve env c.keyProvider).2, .ok s) ∧
      s.store = store ∧ s.queue.producer.cipher = ⟨(ring.resolve env c.keyProvider).1⟩ ∧
      s.forwarder.settings.cipher = s.queue.producer.cipher := by
  simp only [startOn, List.isEmpty_iff, ht, h, if_false]
  exact ⟨_, rfl, rfl, rfl, rfl⟩

theorem exists_openError (e : Error) : ∃ fault, openError e = .storeOpen fault := by
  cases e <;> exact ⟨_, rfl⟩

/-- A batch size that is none is no error. -/
theorem errors_batchSizeIncidents (c : QueueConfig) :
    Journal.errors (batchSizeIncidents c) = [] := by
  unfold batchSizeIncidents
  split <;> rfl

/-- Whatever is configured, on whatever kind of store and with whatever providers: opening a queue
    fails on account of the configuration if and only if the sink has no target, and then nothing
    has been done in the world where stores are. With a target it fails if and only if the store
    fails to open, with an error that says so whatever error that was. A queue that has been opened
    is encrypted if and only if the configured name yields a key, and then its producer and its
    forwarder have this key; a configured name that yields none has been logged as the one error. -/
theorem fails_as_stated (backend : Backend World Opened) (c : QueueConfig) (targets : List String)
    (providers : List KeyProvider) (env : Environment) (w : World) :
    let run := startOn backend c targets (.ofList providers) env w
    let opened := backend c.store w
    ((∃ fault, run.2.2 = .error (.error (.config fault))) ↔ targets = []) ∧
    (targets = [] → run = (w, [], .error (.error (.config .noTargets)))) ∧
    (targets ≠ [] → run.1 = opened.1 ∧
      ((∃ failure, run.2.2 = .error failure) ↔ ∃ failure, opened.2 = .error failure) ∧
      (run.2.2 = .error .crash ↔ opened.2 = .error .crash) ∧
      (∀ e, opened.2 = .error (.error e) → ∃ fault, run.2.2 = .error (.error (.storeOpen fault))) ∧
      ∀ fault, opened.2 = .error (.error (.storeOpen fault)) →
        run.2.2 = .error (.error (.storeOpen fault))) ∧
    ∀ s, run.2.2 = .ok s → opened.2 = .ok s.store ∧
      (s.queue.isEncrypted = true ↔ ∃ key, Yields providers env c.keyProvider key) ∧
      (∀ key, Yields providers env c.keyProvider key → s.queue.producer.cipher = ⟨some key⟩) ∧
      s.forwarder.settings.cipher = s.queue.producer.cipher ∧
      (Journal.errors run.2.1).length =
        if c.keyProvider.isSome ∧ ¬ s.queue.isEncrypted then 1 else 0 := by
  intro run opened
  have hrun : startOn backend c targets (.ofList providers) env w = run := rfl
  have hopened : backend c.store w = opened := rfl
  -- what the store comes to is all that the cases below need to know of the world
  clear_value run opened
  by_cases ht : targets = []
  · subst ht
    obtain rfl := hrun.symm.trans startOn_of_noTargets
    refine ⟨⟨fun _ => rfl, fun _ => ⟨_, rfl⟩⟩, fun _ => rfl, (absurd rfl ·), ?_⟩
    intro s hs
    cases hs
  · obtain ⟨w', result⟩ := opened
    cases result with
    | error failure =>
      cases failure with
      | crash =>
        obtain rfl := hrun.symm.trans (startOn_of_crash ht hopened)
        simp [ht]
      | error e =>
        obtain ⟨fault, hfault⟩ := exists_openError e
        obtain rfl := hrun.symm.trans (startOn_of_error ht hopened)
        refine ⟨by simp [ht, hfault], (absurd · ht), fun _ => ⟨rfl, ?_, ?_, ?_, ?_⟩, ?_⟩
        · simp
        · simp
        · exact fun _ _ => ⟨fault, congrArg (fun e => Except.error (Failure.error e)) hfault⟩
        · rintro fault' ⟨rfl⟩
          rfl
        · intro s hs
          cases hs
    | ok store =>
      obtain ⟨s, hs, rfl, hproducer, hforwarder⟩ := startOn_of_ok (.ofList providers) env ht hopened
      obtain rfl := hrun.symm.trans hs
      refine ⟨by simp [ht], (absurd · ht), fun _ => by simp, ?_⟩
      rintro _ ⟨rfl⟩
      have hencrypted : s.queue.isEncrypted =
          ((KeyRing.ofList providers).resolve env c.keyProvider).1.isSome := by
        rw [isEncrypted, hproducer]
        rfl
      refine ⟨rfl, ?_, fun key hkey => ?_, hforwarder, ?_⟩
      · rw [hencrypted, isSome_resolve]
      · rw [hproducer, resolve_of_yields hkey]
      · rw [Journal.errors_append, errors_batchSizeIncidents, List.nil_append,
          length_errors_resolve, hencrypted]

end Queue

end Outbox
