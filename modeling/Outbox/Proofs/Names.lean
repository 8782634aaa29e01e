import Outbox.Documents
import Outbox.Guid
import Outbox.Proofs.Grammar

namespace Outbox

/-!
# Different names

Headers stand for a map, so no name is to stand there twice:

* `Headers.names_remove`, `Headers.names_insert` — what removing and inserting do to the names.
* `Headers.get?_remove_iff` — a name that is removed is gone, unless it stood there twice.
* `Headers.Obtained` — the headers that a program can come by: it makes, changes, writes and reads
  them, and it is given JSON texts.
* `Headers.Obtained.nodup` — their names are different as long as those in the texts are.
* `names_unique_iff` — only then, and then removing and identifying go by the one value of a name.
* `names_not_unique` — a text in which a name stands twice is read as it is.
-/

namespace Headers

variable {h : Headers} {name value : String} {pairs : List (String × String)}

/-! ### Finding and removing -/

theorem find_eq_none_iff : find name pairs = none ↔ name ∉ pairs.map Prod.fst := by
  induction pairs with
  | nil => simp [find]
  | cons pair pairs ih =>
    rw [find, List.map_cons, List.mem_cons, not_or]
    by_cases heq : pair.1 = name
    · simp [heq]
    · simp [heq, Ne.symm heq, ih]

/-- A name has no value if and only if it is not there. -/
theorem get?_eq_none_iff : h.get? name = none ↔ name ∉ h.names := find_eq_none_iff

/-- Taking a name out of a list takes out its first place. -/
theorem map_fst_takeOut (name : String) (pairs : List (String × String)) :
    (takeOut name pairs).2.map Prod.fst = (pairs.map Prod.fst).erase name := by
  induction pairs with
  | nil => rfl
  | cons pair pairs ih =>
    rw [takeOut, List.map_cons, List.erase_cons]
    by_cases heq : pair.1 = name
    · rw [if_pos heq, if_pos (beq_iff_eq.2 heq)]
    · rw [if_neg heq, if_neg (mt beq_iff_eq.1 heq), ← ih]
      rfl

theorem names_remove (h : Headers) (name : String) :
    (h.remove name).2.names = h.names.erase name :=
  map_fst_takeOut name h.toList

theorem names_insert (h : Headers) (name value : String) :
    (h.insert name value).2.names = if name ∈ h.names then h.names else h.names ++ [name] :=
  names_add h (name, value)

/-- A name that is removed is gone if and only if it did not stand there twice. -/
theorem get?_remove_iff : (h.remove name).2.get? name = none ↔ h.names.count name ≤ 1 := by
  rw [get?_eq_none_iff, names_remove, ← List.count_eq_zero, List.count_erase_self]
  omega

/-- Names are different if and only if each of them is gone when it is removed. -/
theorem nodup_iff_get?_remove : h.names.Nodup ↔ ∀ name, (h.remove name).2.get? name = none := by
  simp only [get?_remove_iff, List.nodup_iff_count_le_one]

/-! ### What keeps names different -/

theorem nodup_insert (hnd : h.names.Nodup) : (h.insert name value).2.names.Nodup := by
  rw [names_insert]
  split
  · exact hnd
  · next hnew =>
    rw [List.nodup_append_comm, List.singleton_append, List.nodup_cons]
    exact ⟨hnew, hnd⟩

theorem nodup_remove (hnd : h.names.Nodup) : (h.remove name).2.names.Nodup := by
  rw [names_remove]
  exact hnd.erase name

/-- Headers that have been read out of a frame have different names. -/
theorem nodup_of_decode {frame : Bytes} {e : Event} (hread : Frame.decode frame = .ok e) :
    e.headers.names.Nodup := by
  obtain ⟨pairs, -, hheaders⟩ := Frame.isFrame_of_decode hread
  rw [hheaders]
  exact nodup_names_ofList pairs

/-! ### Everything that a program comes by -/

/-- Headers that are read from a JSON text, alone or as those of an event. -/
inductive WrittenIn (text : String) : Headers → Prop
  | alone {h : Headers} : (Json.parse? text).bind Headers.ofJson? = some h → WrittenIn text h
  | ofEvent {e : Event} : (Json.parse? text).bind Event.ofJson? = some e → WrittenIn text e.headers

/-- Headers that a program comes by when it is given JSON texts: it makes new ones, collects pairs,
    inserts and removes, and reads frames and the texts. -/
inductive Obtained (texts : String → Prop) : Headers → Prop
  | empty : Obtained texts .empty
  | withCapacity (capacity : Nat) : Obtained texts (.withCapacity capacity)
  | collected (pairs : List (String × String)) : Obtained texts (.ofList pairs)
  | fresh (body : Bytes) (clock : Guid.Clock) (noise : Nat) :
    Obtained texts (Event.fresh body clock noise).headers
  | inserted {h : Headers} (name value : String) :
    Obtained texts h → Obtained texts (h.insert name value).2
  | removed {h : Headers} (name : String) : Obtained texts h → Obtained texts (h.remove name).2
  | withHeader {e : Event} (name value : String) :
    Obtained texts e.headers → Obtained texts (e.withHeader name value).headers
  | decoded {frame : Bytes} {e : Event} : Frame.decode frame = .ok e → Obtained texts e.headers
  | given {text : String} {h : Headers} : texts text → WrittenIn text h → Obtained texts h

/-- Names are different in everything that a program comes by, as long as they are in the texts that
    it is given. -/
theorem Obtained.nodup {texts : String → Prop}
    (htexts : ∀ text h, texts text → WrittenIn text h → h.names.Nodup)
    (hobtained : Obtained texts h) : h.names.Nodup := by
  -- reading a text is the only step that does not keep names different by itself
  induction hobtained with
  | empty => exact List.nodup_nil
  | withCapacity => exact List.nodup_nil
  | collected pairs => exact nodup_names_ofList pairs
  | fresh => exact nodup_insert (h := .empty) List.nodup_nil
  | inserted name value _ ih => exact nodup_insert ih
  | removed name _ ih => exact nodup_remove ih
  | withHeader name value _ ih => exact nodup_insert ih
  | decoded hread => exact nodup_of_decode hread
  | given htext hwritten => exact htexts _ _ htext hwritten

end Headers

/-! ### One value for each name -/

open Headers

/-- The names are different in all headers that a program comes by if and only if they are in the
    JSON texts that it is given. Then a name that is removed is gone, and an event is the same, with
    the same identifier, when it is read out of its frame. -/
theorem names_unique_iff (texts : String → Prop) :
    (∀ text h, texts text → WrittenIn text h → h.names.Nodup) ↔
      ∀ h, Obtained texts h → h.names.Nodup ∧ (∀ name, (h.remove name).2.get? name = none) ∧
        ∀ body frame, Frame.encode ⟨body, h⟩ = .ok frame →
          ∃ e, Frame.decode frame = .ok e ∧ e = ⟨body, h⟩ ∧ e.guid? = Event.guid? ⟨body, h⟩ := by
  constructor
  · intro htexts h hobtained
    have hnd := hobtained.nodup htexts
    refine ⟨hnd, nodup_iff_get?_remove.1 hnd, ?_⟩
    intro body frame hframe
    have hrestored := Event.restored_eq (e := ⟨body, h⟩) hnd
    refine ⟨⟨body, h⟩, ?_, rfl, rfl⟩
    rw [Frame.decode_encode hframe]
    exact congrArg Except.ok hrestored
  · intro hall text h htext hwritten
    exact (hall h (.given htext hwritten)).1

/-- An event that is read from a text and given one more header, removed from and identified. -/
theorem names_unique_of_text :
    ∃ text h frame, Obtained (· = text) h ∧ h.names = [guidHeader, "k", "x"] ∧
      (h.remove "k").2.get? "k" = none ∧ Frame.encode ⟨[7], h⟩ = .ok frame ∧
      ∃ e, Frame.decode frame = .ok e ∧ e = ⟨[7], h⟩ ∧ e.guid? = Event.guid? ⟨[7], h⟩ := by
  let text := "\x7b\"body\":[7],\"headers\":[[\"guid\",\"a\"],[\"k\",\"1\"]]\x7d"
  have hread : (Json.parse? text).bind Event.ofJson? =
      some ⟨[7], ⟨[("guid", "a"), ("k", "1")]⟩⟩ := by
    decide +kernel
  have halone : (Json.parse? text).bind Headers.ofJson? = none := by decide +kernel
  have hframe : Frame.encode ⟨[7], ⟨[("guid", "a"), ("k", "1"), ("x", "")]⟩⟩ =
      .ok [0, 0, 0, 1, 7, 0, 0, 0, 3, 0, 4, 103, 117, 105, 100, 0, 1, 97, 0, 1, 107, 0, 1, 49,
        0, 1, 120, 0, 0] := by
    decide +kernel
  have htexts : ∀ t h, t = text → WrittenIn t h → h.names.Nodup := by
    rintro _ h rfl hwritten
    cases hwritten with
    | alone hgiven =>
      rw [halone] at hgiven
      cases hgiven
    | ofEvent hgiven =>
      rw [hread] at hgiven
      cases hgiven
      decide
  have hgiven : Obtained (· = text) ⟨[("guid", "a"), ("k", "1")]⟩ := .given rfl (.ofEvent hread)
  have hobtained : Obtained (· = text) ⟨[("guid", "a"), ("k", "1"), ("x", "")]⟩ :=
    hgiven.inserted "x" ""
  obtain ⟨-, hremove, hdecode⟩ := (names_unique_iff (· = text)).1 htexts _ hobtained
  exact ⟨text, _, _, hobtained, rfl, hremove "k", hframe, hdecode _ _ hframe⟩

/-- Two values of one name in a text are both kept: the second one is still there after the name is
    removed, and takes the place of the first one when the event is read out of its frame. -/
theorem names_not_unique :
    ∃ e frame e', Obtained (fun _ => True) e.headers ∧ ¬ e.headers.names.Nodup ∧
      (e.headers.remove guidHeader).2.get? guidHeader = some "b" ∧
      e.guid? = some "a" ∧ Frame.encode e = .ok frame ∧ Frame.decode frame = .ok e' ∧
      e'.guid? = some "b" := by
  have hread :
      (Json.parse? "\x7b\"body\":[],\"headers\":[[\"guid\",\"a\"],[\"guid\",\"b\"]]\x7d").bind
        Event.ofJson? = some ⟨[], ⟨[("guid", "a"), ("guid", "b")]⟩⟩ := by
    decide +kernel
  have hframe : Frame.encode ⟨[], ⟨[("guid", "a"), ("guid", "b")]⟩⟩ =
      .ok [0, 0, 0, 0, 0, 0, 0, 2, 0, 4, 103, 117, 105, 100, 0, 1, 97,
        0, 4, 103, 117, 105, 100, 0, 1, 98] := by
    decide +kernel
  refine ⟨_, _, _, .given trivial (.ofEvent hread), ?_, ?_, ?_, hframe,
    Frame.decode_encode hframe, ?_⟩
  all_goals decide

end Outbox
