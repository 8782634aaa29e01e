import Outbox.Documents
import Outbox.Proofs.Json.RoundTrip

namespace Outbox

/-!
# Documents keep their values

* `Json.GivesSome` — a document that gives some of the fields of a record, in any order, and fields
  that the record does not have.
* `Json.record?_of_givesSome` — it is read as the fields that it gives.
* `Headers.ofJson?_toJson`, `Event.ofJson?_toJson`, `StoreStats.ofJson?_toJson` — what is written is
  read as it was.
* `StoreConfig.reset`, `QueueConfig.reset` — a configuration with some fields at their defaults.
* `StoreConfig.ofJson?_of_givesSome`, `QueueConfig.ofJson?_of_givesSome` — a field that a document
  does not give has its default, and all others have what is given.
* `documents_keep_values` — all of this for the texts.
-/

namespace Json

variable {fields : List (String × Json)} {keep : String → Bool} {v : Json} {name : String}

/-! ### Records -/

/-- An object that gives those fields of a record that are kept, in any order, and fields that the
    record does not have. -/
def GivesSome (keep : String → Bool) (fields : List (String × Json)) (v : Json) : Prop :=
  ∃ given others, v = .object given ∧ given.Perm ((fields.filter fun f => keep f.1) ++ others) ∧
    ∀ f ∈ others, f.1 ∉ fields.map Prod.fst

/-- The object that gives every field and no other. -/
theorem givesSome_object (fields : List (String × Json)) :
    GivesSome (fun _ => true) fields (.object fields) :=
  ⟨fields, [], rfl, by rw [List.append_nil, List.filter_eq_self.2 fun _ _ => rfl], nofun⟩

/-- The empty object gives no field. -/
theorem givesSome_nil (fields : List (String × Json)) :
    GivesSome (fun _ => false) fields (.object []) :=
  ⟨[], [], rfl, by simp, nofun⟩

/-- A field is the first one of its name. -/
theorem field?_eq (fields : List (String × Json)) (name : String) :
    field? fields name = (fields.filter fun f => f.1 == name).head?.map Prod.snd := by
  unfold field?
  induction fields with
  | nil => rfl
  | cons f fields ih =>
    obtain ⟨n, w⟩ := f
    by_cases hn : n = name
    · simp [hn]
    · rw [List.lookup_cons, beq_false_of_ne (Ne.symm hn),
        List.filter_cons_of_neg (by simpa using hn)]
      exact ih

/-- Among fields with different names there is one of each name. -/
theorem filter_name_of_nodup (hnd : (fields.map Prod.fst).Nodup) (hmem : (name, v) ∈ fields) :
    (fields.filter fun f => f.1 == name) = [(name, v)] := by
  induction fields with
  | nil => cases hmem
  | cons f fields ih =>
    rw [List.map_cons, List.nodup_cons] at hnd
    obtain ⟨hnew, hnd⟩ := hnd
    rcases List.mem_cons.1 hmem with rfl | hmem
    · have hnone : (fields.filter fun f => f.1 == name) = [] := by
        rw [List.filter_eq_nil_iff]
        exact fun g hg hname => hnew (List.mem_map.2 ⟨g, hg, beq_iff_eq.1 hname⟩)
      rw [List.filter_cons_of_pos (by simp), hnone]
    · have hne : f.1 ≠ name := by
        rintro rfl
        exact hnew (List.mem_map.2 ⟨_, hmem, rfl⟩)
      rw [List.filter_cons_of_neg (by simpa using hne), ih hnd hmem]

/-- The fields of a name in an object are the one of the record if that is kept, and none
    otherwise. -/
theorem filter_name_of_perm {given others : List (String × Json)}
    (hperm : given.Perm ((fields.filter fun f => keep f.1) ++ others))
    (hothers : ∀ f ∈ others, f.1 ∉ fields.map Prod.fst) (hnd : (fields.map Prod.fst).Nodup)
    (hmem : (name, v) ∈ fields) :
    (given.filter fun f => f.1 == name) = if keep name then [(name, v)] else [] := by
  have hnone : (others.filter fun f => f.1 == name) = [] := by
    rw [List.filter_eq_nil_iff]
    intro f hf hname
    obtain rfl := beq_iff_eq.1 hname
    exact hothers f hf (List.mem_map.2 ⟨_, hmem, rfl⟩)
  have hkept : ((fields.filter fun f => keep f.1).filter fun f => f.1 == name) =
      if keep name then [(name, v)] else [] := by
    rw [List.filter_filter]
    simp only [Bool.and_comm]
    rw [← List.filter_filter, filter_name_of_nodup hnd hmem, List.filter_cons,
      List.filter_nil]
  have hfilter := hperm.filter fun f => f.1 == name
  rw [List.filter_append, hnone, hkept, List.append_nil] at hfilter
  split
  · next h => rwa [if_pos h, List.perm_singleton] at hfilter
  · next h => rwa [if_neg h, List.perm_nil] at hfilter

/-- A record is read as the fields that are given. -/
theorem record?_of_givesSome {names : List String} (hnames : fields.map Prod.fst = names)
    (hnd : names.Nodup) (h : GivesSome keep fields v) :
    v.record? names = some (fields.map fun f => if keep f.1 then some f.2 else none) := by
  subst hnames
  obtain ⟨given, others, rfl, hperm, hothers⟩ := h
  have hfilter (f : String × Json) (hf : f ∈ fields) :
      (given.filter fun g => g.1 == f.1) = if keep f.1 then [f] else [] :=
    filter_name_of_perm hperm hothers hnd hf
  have hdistinct : distinct given (fields.map Prod.fst) = true := by
    unfold distinct
    rw [List.all_eq_true]
    intro name hname
    obtain ⟨f, hf, rfl⟩ := List.mem_map.1 hname
    rw [hfilter f hf]
    split <;> rfl
  have hfields : (fields.map Prod.fst).map (field? given) =
      fields.map fun f => if keep f.1 then some f.2 else none := by
    rw [List.map_map]
    refine List.map_congr_left fun f hf => ?_
    rw [Function.comp_apply, field?_eq, hfilter f hf]
    split <;> rfl
  show (if distinct given (fields.map Prod.fst) then _ else _) = _
  rw [hdistinct, if_pos rfl, hfields]

/-- A field that is not given has its default. -/
theorem orElse_ite {α : Type} {read : Json → Option α} {x : α} (h : read v = some x) (d : α)
    (b : Bool) : orElse read d (if b then some v else none) = some (if b then x else d) := by
  cases b with
  | false => rfl
  | true => exact h

/-! ### Values of one kind -/

/-- An integer within the bounds is read. -/
theorem intBetween?_of_mem {least most n : Int} (h : least ≤ n ∧ n ≤ most) :
    intBetween? least most (.number (.int n)) = some n := by
  rw [intBetween?, if_pos h]

/-- A word of 64 bits is read back. -/
theorem uint64?_ofNat (n : UInt64) : uint64? (.ofNat n.toNat) = some n := by
  have h := n.toNat_lt
  rw [uint64?, ofNat, intBetween?_of_mem (by omega), Option.map_some, Int.toNat_natCast,
    UInt64.ofNat_toNat]

/-- A word of 32 bits is read back. -/
theorem uint32?_ofNat (n : UInt32) : uint32? (.ofNat n.toNat) = some n := by
  have h := n.toNat_lt
  rw [uint32?, ofNat, intBetween?_of_mem (by omega), Option.map_some, Int.toNat_natCast,
    UInt32.ofNat_toNat]

/-- A byte is read back. -/
theorem byte?_ofNat (n : UInt8) : byte? (.ofNat n.toNat) = some n := by
  have h := n.toNat_lt
  rw [byte?, ofNat, intBetween?_of_mem (by omega), Option.map_some, Int.toNat_natCast,
    UInt8.ofNat_toNat]

/-- A signed word of 64 bits is read back. -/
theorem int64?_ofInt (n : Int64) : int64? (.ofInt n.toInt) = some n := by
  have hle := n.le_toInt
  have hlt := n.toInt_lt
  rw [int64?, ofInt, intBetween?_of_mem (by omega), Option.map_some, Int64.ofInt_toInt]

/-- A list of values is read value by value. -/
theorem list?_map {α : Type} {read : Json → Option α} {write : α → Json}
    (h : ∀ x, read (write x) = some x) (l : List α) :
    list? read (.array (l.map write)) = some l := by
  rw [list?]
  induction l with
  | nil => rfl
  | cons x l ih => rw [List.map_cons, List.mapM_cons, h, ih]; rfl

/-- A list of values is written if the values are. -/
theorem written_map {α : Type} {write : α → Json} (h : ∀ x, Written (write x)) (l : List α) :
    Written (.array (l.map write)) := by
  refine .array fun v hv => ?_
  obtain ⟨x, -, rfl⟩ := List.mem_map.1 hv
  exact h x

end Json

open Json

/-! ### Headers, events and statistics -/

/-- Headers have a document that can be written. -/
theorem Headers.written_toJson (h : Headers) : Written h.toJson := by
  refine written_map (fun pair => .array fun v hv => ?_) h.toList
  simp only [List.mem_cons, List.not_mem_nil, or_false] at hv
  obtain rfl | rfl := hv <;> exact .string _

/-- Headers are read back from their document. -/
theorem Headers.ofJson?_toJson (h : Headers) : Headers.ofJson? h.toJson = some h := by
  have hread (pair : String × String) :
      pair? (.array [.string pair.1, .string pair.2]) = some pair := rfl
  show (list? pair? (.array (h.toList.map fun pair => .array [.string pair.1, .string pair.2]))).map
    Headers.mk = some h
  rw [list?_map hread]
  rfl

/-- The fields of an event. -/
def Event.fields (e : Event) : List (String × Json) :=
  [("body", .array (e.body.map fun b => .ofNat b.toNat)), ("headers", e.headers.toJson)]

/-- An event has a document that can be written. -/
theorem Event.written_toJson (e : Event) : Written e.toJson := by
  refine .object fun f hf => ?_
  simp only [List.mem_cons, List.not_mem_nil, or_false] at hf
  obtain rfl | rfl := hf
  · exact written_map (fun b => written_ofNat _) e.body
  · exact e.headers.written_toJson

/-- An event is read back from its document. -/
theorem Event.ofJson?_toJson (e : Event) : Event.ofJson? e.toJson = some e := by
  have hrecord : e.toJson.record? ["body", "headers"] = some (e.fields.map fun f => some f.2) := by
    refine record?_of_givesSome ?_ ?_ (givesSome_object e.fields)
    · rfl
    · decide
  have hbody := list?_map byte?_ofNat e.body
  unfold ofJson?
  rw [hrecord]
  simp only [fields, List.map_cons, List.map_nil, required, hbody, e.headers.ofJson?_toJson]
  rfl

/-- The fields of statistics. -/
def StoreStats.fields (s : StoreStats) : List (String × Json) :=
  [("entries", .ofNat s.entries.toNat), ("puts", .ofNat s.puts.toNat),
    ("deletes", .ofNat s.deletes.toNat), ("failed_commits", .ofNat s.failedCommits.toNat)]

/-- Counters have a document that can be written. -/
theorem StoreStats.written_toJson (s : StoreStats) : Written s.toJson := by
  refine .object fun f hf => ?_
  simp only [List.mem_cons, List.not_mem_nil, or_false] at hf
  obtain rfl | rfl | rfl | rfl := hf <;> exact written_ofNat _

/-- Counters are read back from their document. -/
theorem StoreStats.ofJson?_toJson (s : StoreStats) : StoreStats.ofJson? s.toJson = some s := by
  have hrecord : s.toJson.record? ["entries", "puts", "deletes", "failed_commits"] =
      some (s.fields.map fun f => some f.2) := by
    refine record?_of_givesSome ?_ ?_ (givesSome_object s.fields)
    · rfl
    · decide
  unfold ofJson?
  rw [hrecord]
  simp only [fields, List.map_cons, List.map_nil, required, uint64?_ofNat]
  rfl

/-! ### Configurations -/

/-- A mode is read back from its document. -/
theorem SyncMode.ofJson?_toJson (m : SyncMode) : SyncMode.ofJson? m.toJson = some m :=
  m.ofWord?_word

namespace StoreConfig

variable {c : StoreConfig} {keep : String → Bool} {v : Json}

/-- The fields of a store's configuration. -/
def fields (c : StoreConfig) : List (String × Json) :=
  [("path", .string c.path), ("name", .string c.name), ("map_size", .ofNat c.mapSize.toNat),
    ("sync_mode", c.syncMode.toJson), ("max_readers", .ofNat c.maxReaders.toNat)]

/-- The configuration with the fields that are not kept at their defaults. -/
def reset (keep : String → Bool) (c : StoreConfig) : StoreConfig where
  path := if keep "path" then c.path else default.path
  name := if keep "name" then c.name else default.name
  mapSize := if keep "map_size" then c.mapSize else default.mapSize
  syncMode := if keep "sync_mode" then c.syncMode else default.syncMode
  maxReaders := if keep "max_readers" then c.maxReaders else default.maxReaders

/-- The configuration of a store has a document that can be written. -/
theorem written_toJson (c : StoreConfig) : Written c.toJson := by
  refine .object fun f hf => ?_
  simp only [List.mem_cons, List.not_mem_nil, or_false] at hf
  obtain rfl | rfl | rfl | rfl | rfl := hf
  · exact .string _
  · exact .string _
  · exact written_ofNat _
  · exact .string _
  · exact written_ofNat _

/-- A document that gives some fields of a configuration is read as the configuration with the
    others at their defaults. -/
theorem ofJson?_of_givesSome (h : GivesSome keep c.fields v) :
    StoreConfig.ofJson? v = some (c.reset keep) := by
  have hrecord : v.record? ["path", "name", "map_size", "sync_mode", "max_readers"] =
      some (c.fields.map fun f => if keep f.1 then some f.2 else none) :=
    record?_of_givesSome rfl (by decide) h
  have hpath : string? (.string c.path) = some c.path := rfl
  have hname : string? (.string c.name) = some c.name := rfl
  unfold ofJson?
  rw [hrecord]
  simp only [fields, List.map_cons, List.map_nil, orElse_ite hpath, orElse_ite hname,
    orElse_ite (uint64?_ofNat c.mapSize), orElse_ite c.syncMode.ofJson?_toJson,
    orElse_ite (uint32?_ofNat c.maxReaders)]
  rfl

end StoreConfig

namespace QueueConfig

variable {c : QueueConfig} {keep keepStore : String → Bool} {store v : Json}

/-- The fields of a queue's configuration, with a document for its store. -/
def fieldsOver (c : QueueConfig) (store : Json) : List (String × Json) :=
  [("store", store), ("batch_size", .ofInt c.batchSize.toInt), ("delay_ms", .ofNat c.delayMs.toNat),
    ("key_provider", match c.keyProvider with
      | none => .null
      | some name => .string name),
    ("commit_wait_ms", .ofNat c.commitWaitMs.toNat),
    ("shutdown_timeout_ms", .ofNat c.shutdownTimeoutMs.toNat)]

/-- The configuration with the fields that are not kept at their defaults, those of its store
    included. -/
def reset (keep keepStore : String → Bool) (c : QueueConfig) : QueueConfig where
  store := if keep "store" then c.store.reset keepStore else default.store
  batchSize := if keep "batch_size" then c.batchSize else default.batchSize
  delayMs := if keep "delay_ms" then c.delayMs else default.delayMs
  keyProvider := if keep "key_provider" then c.keyProvider else default.keyProvider
  commitWaitMs := if keep "commit_wait_ms" then c.commitWaitMs else default.commitWaitMs
  shutdownTimeoutMs :=
    if keep "shutdown_timeout_ms" then c.shutdownTimeoutMs else default.shutdownTimeoutMs

/-- The configuration of a queue has a document that can be written. -/
theorem written_toJson (c : QueueConfig) : Written c.toJson := by
  refine .object fun f hf => ?_
  simp only [List.mem_cons, List.not_mem_nil, or_false] at hf
  obtain rfl | rfl | rfl | rfl | rfl | rfl := hf
  · exact c.store.written_toJson
  · exact written_ofInt _
  · exact written_ofNat _
  · dsimp only
    cases c.keyProvider with
    | none => exact .null
    | some name => exact .string name
  · exact written_ofNat _
  · exact written_ofNat _

/-- A document that gives some fields of a configuration and of its store is read as the
    configuration with the others at their defaults. -/
theorem ofJson?_of_givesSome (hstore : GivesSome keepStore c.store.fields store)
    (h : GivesSome keep (c.fieldsOver store) v) :
    QueueConfig.ofJson? v = some (c.reset keep keepStore) := by
  have hrecord : v.record? ["store", "batch_size", "delay_ms", "key_provider", "commit_wait_ms",
      "shutdown_timeout_ms"] =
      some ((c.fieldsOver store).map fun f => if keep f.1 then some f.2 else none) :=
    record?_of_givesSome rfl (by decide) h
  have hprovider : nullable? (match c.keyProvider with
      | none => .null
      | some name => .string name) = some c.keyProvider := by
    cases c.keyProvider <;> rfl
  unfold ofJson?
  rw [hrecord]
  simp only [fieldsOver, List.map_cons, List.map_nil,
    orElse_ite (StoreConfig.ofJson?_of_givesSome hstore), orElse_ite (int64?_ofInt c.batchSize),
    orElse_ite (uint64?_ofNat c.delayMs), orElse_ite hprovider,
    orElse_ite (uint64?_ofNat c.commitWaitMs), orElse_ite (uint64?_ofNat c.shutdownTimeoutMs)]
  rfl

end QueueConfig

/-! ### Texts -/

/-- Both texts of a value are read as the value. -/
def ReadBack {α : Type} (toJson : α → Json) (ofJson? : Json → Option α) (x : α) : Prop :=
  ∀ text ∈ [compact (toJson x), pretty (toJson x)], (parse? text).bind ofJson? = some x

/-- What is read back from its document is read back from both texts of the document. -/
theorem readBack_of_written {α : Type} {toJson : α → Json} {ofJson? : Json → Option α} {x : α}
    (hwritten : Written (toJson x)) (hread : ofJson? (toJson x) = some x) :
    ReadBack toJson ofJson? x := by
  intro text htext
  have hparse : parse? text = some (toJson x) := by
    simp only [List.mem_cons, List.not_mem_nil, or_false] at htext
    obtain rfl | rfl := htext
    · exact parse?_compact hwritten
    · exact parse?_pretty hwritten
  rw [hparse]
  exact hread

/-- The texts of headers, events, statistics and configurations are read as what they were. A text
    of a configuration, from which fields are left out, in which the fields stand in another order
    or to which unknown fields are added, is read as the configuration with exactly the fields that
    are left out at their defaults; so the empty object is read as the default. Every value that can
    be written has a text. -/
theorem documents_keep_values :
    (∀ h, ReadBack Headers.toJson Headers.ofJson? h) ∧
    (∀ e, ReadBack Event.toJson Event.ofJson? e) ∧
    (∀ s, ReadBack StoreStats.toJson StoreStats.ofJson? s) ∧
    (∀ c, ReadBack StoreConfig.toJson StoreConfig.ofJson? c) ∧
    (∀ c, ReadBack QueueConfig.toJson QueueConfig.ofJson? c) ∧
    (∀ (c : StoreConfig) keep v text, GivesSome keep c.fields v → parse? text = some v →
      (parse? text).bind StoreConfig.ofJson? = some (c.reset keep)) ∧
    (∀ (c : QueueConfig) keep keepStore store v text, GivesSome keepStore c.store.fields store →
      GivesSome keep (c.fieldsOver store) v → parse? text = some v →
      (parse? text).bind QueueConfig.ofJson? = some (c.reset keep keepStore)) ∧
    (∀ text, parse? text = some (.object []) →
      (parse? text).bind StoreConfig.ofJson? = some .default ∧
      (parse? text).bind QueueConfig.ofJson? = some .default) ∧
    ∀ v, Written v → parse? (compact v) = some v ∧ parse? (pretty v) = some v := by
  refine ⟨fun h => ?_, fun e => ?_, fun s => ?_, fun c => ?_, fun c => ?_, ?_, ?_, ?_, ?_⟩
  · exact readBack_of_written h.written_toJson h.ofJson?_toJson
  · exact readBack_of_written e.written_toJson e.ofJson?_toJson
  · exact readBack_of_written s.written_toJson s.ofJson?_toJson
  · exact readBack_of_written c.written_toJson
      (StoreConfig.ofJson?_of_givesSome (givesSome_object c.fields))
  · exact readBack_of_written c.written_toJson
      (QueueConfig.ofJson?_of_givesSome (givesSome_object c.store.fields)
        (givesSome_object (c.fieldsOver c.store.toJson)))
  · intro c keep v text hv htext
    rw [htext]
    exact StoreConfig.ofJson?_of_givesSome hv
  · intro c keep keepStore store v text hstore hv htext
    rw [htext]
    exact QueueConfig.ofJson?_of_givesSome hstore hv
  · intro text htext
    rw [htext]
    exact ⟨StoreConfig.ofJson?_of_givesSome (givesSome_nil StoreConfig.default.fields),
      QueueConfig.ofJson?_of_givesSome (givesSome_object QueueConfig.default.store.fields)
        (givesSome_nil (QueueConfig.default.fieldsOver QueueConfig.default.store.toJson))⟩
  · exact fun v hv => ⟨parse?_compact hv, parse?_pretty hv⟩

end Outbox
