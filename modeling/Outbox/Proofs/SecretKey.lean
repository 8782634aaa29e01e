import Outbox.Proofs.Text.Utf8
import Outbox.SecretKey
import Outbox.Text.LowerCase

namespace Outbox

/-!
# The texts that spell a key

A key is written as sixty-four digits, each of them in either case, and read out of the bytes of
a text. A character beyond ASCII has several bytes, none of them a digit.

* `Hex.IsDigit`, `Hex.number`, `Hex.Denotes` — the digits, and the bytes that a row of them
  denotes.
* `Hex.decode_of_denotes`, `Hex.decode_of_odd`, `Hex.decode_of_stray` — what becomes of a row of
  digits, of a text with an odd number of bytes, and of one with a byte that is no digit.
* `Hex.denotes_or_stray` — there is no other text.
* `Hex.denotes_encode`, `Hex.encode_of_denotes` — bytes that are printed are denoted by what is
  printed, and digits that are read and printed again come out in lower case.
* `SecretKey.Spells`, `SecretKey.Refuses` — the texts of a key, and the other ones with what is
  said of them.
* `SecretKey.reads_spelled_keys` — a key is read from its texts only, and every other text is
  refused for the reason that comes first.
-/

namespace Hex

/-! ### Digits -/

/-- The sixteen digits and the upper-case forms of the last six. -/
def IsDigit (c : Char) : Prop := c ∈ "0123456789abcdefABCDEF".toList

instance (c : Char) : Decidable (IsDigit c) := inferInstanceAs (Decidable (c ∈ _))

/-- The number of a digit: its place among the sixteen. -/
def number (c : Char) : Nat := "0123456789abcdef".toList.idxOf c.toLower

/-- A row of digits denotes bytes, two digits a byte. -/
inductive Denotes : List Char → Bytes → Prop
  | nil : Denotes [] []
  | cons {hi lo : Char} {cs : List Char} {b : Bytes} :
    IsDigit hi → IsDigit lo → Denotes cs b →
    Denotes (hi :: lo :: cs) (UInt8.ofNat (16 * number hi + number lo) :: b)

/-- What is so of each of them is so of every digit. -/
theorem forall_digits {p : Char → Prop} [DecidablePred p]
    (h : "0123456789abcdefABCDEF".toList.all fun c => p c) {c : Char} (hc : IsDigit c) : p c :=
  of_decide_eq_true (List.all_eq_true.mp h c hc)

/-- A digit is an ASCII character. -/
theorem toNat_lt_of_isDigit {c : Char} (h : IsDigit c) : c.toNat < 128 :=
  forall_digits (p := fun c => c.toNat < 128) (by decide +kernel) h

/-- A digit stands for a number below sixteen. -/
theorem number_lt {c : Char} (h : IsDigit c) : number c < 16 :=
  forall_digits (p := fun c => number c < 16) (by decide +kernel) h

/-- What is written for a number below sixteen is a digit. -/
theorem isDigit_digit : ∀ {n}, n < 16 → IsDigit (digit n) := by
  decide +kernel

/-- It is read as the number. -/
theorem number_digit : ∀ {n}, n < 16 → number (digit n) = n := by
  decide +kernel

/-- The lower-case form of a digit is the digit that is printed for its number. -/
theorem lowerChar_digit {c : Char} (h : IsDigit c) : Text.lowerChar c = [digit (number c)] :=
  forall_digits (p := fun c => Text.lowerChar c = [digit (number c)]) (by decide +kernel) h

/-- A digit is no capital sigma, whose lower case depends on what is around it. -/
theorem ne_sigma_of_isDigit {c : Char} (h : IsDigit c) : c ≠ 'Σ' :=
  forall_digits (p := fun c => c ≠ 'Σ') (by decide +kernel) h

/-- Characters that denote bytes are digits. -/
theorem Denotes.isDigit {cs : List Char} {b : Bytes} (h : Denotes cs b) : ∀ c ∈ cs, IsDigit c := by
  induction h with
  | nil => exact fun _ hc => nomatch hc
  | cons hhi hlo _ ih => exact List.forall_mem_cons.mpr ⟨hhi, List.forall_mem_cons.mpr ⟨hlo, ih⟩⟩

/-- Two characters denote a byte. -/
theorem Denotes.length {cs : List Char} {b : Bytes} (h : Denotes cs b) :
    cs.length = 2 * b.length := by
  induction h with
  | nil => rfl
  | cons _ _ _ ih =>
    rw [List.length_cons, List.length_cons, List.length_cons, ih]
    omega

/-- Digits that come in pairs denote bytes. -/
theorem exists_denotes : ∀ {cs : List Char}, (∀ c ∈ cs, IsDigit c) → cs.length % 2 = 0 →
    ∃ b, Denotes cs b
  | [], _, _ => ⟨[], .nil⟩
  | [_], _, heven => nomatch heven
  | hi :: lo :: cs, h, heven => by
    obtain ⟨hhi, hlo, hcs⟩ : IsDigit hi ∧ IsDigit lo ∧ ∀ c ∈ cs, IsDigit c := by
      simpa only [List.forall_mem_cons] using h
    rw [List.length_cons, List.length_cons] at heven
    obtain ⟨b, hb⟩ := exists_denotes hcs (by omega)
    exact ⟨_, .cons hhi hlo hb⟩

/-! ### The bytes of digits -/

/-- The byte of a digit. -/
def IsDigitByte (b : UInt8) : Prop := IsDigit (Char.ofNat b.toNat)

instance (b : UInt8) : Decidable (IsDigitByte b) := inferInstanceAs (Decidable (IsDigit _))

/-- A byte has a value if it is that of a digit, and then the one of the digit. -/
theorem value_eq (b : UInt8) :
    value b = if IsDigitByte b then some (number (Char.ofNat b.toNat)) else none := by
  have hall : ∀ n : Fin 256, value (UInt8.ofNat n.val) =
      if IsDigitByte (UInt8.ofNat n.val) then
        some (number (Char.ofNat (UInt8.ofNat n.val).toNat)) else none := by
    decide +kernel
  have hb := hall ⟨b.toNat, b.toNat_lt⟩
  rwa [UInt8.ofNat_toNat] at hb

/-- A digit is read as its value, wherever it stands. -/
theorem valueAt_of_digit {b : UInt8} (h : IsDigitByte b) (i : Nat) :
    valueAt i b = .ok (number (Char.ofNat b.toNat)) := by
  rw [valueAt, value_eq, if_pos h]

/-- Any other byte is refused with its place. -/
theorem valueAt_of_stray {b : UInt8} (h : ¬ IsDigitByte b) (i : Nat) :
    valueAt i b = .error (.notDigit b i) := by
  rw [valueAt, value_eq, if_neg h]

/-- A character of one byte has its own code as that byte. -/
theorem ofNat_toNat_byte {c : Char} (h : c.toNat < 128) :
    Char.ofNat (UInt8.ofNat c.toNat).toNat = c := by
  rw [Utf8.toNat_byte (by omega), Char.ofNat_toNat]

/-- An ASCII character is one byte. -/
theorem encodeChar_of_lt {c : Char} (h : c.toNat < 128) :
    Utf8.encodeChar c = [UInt8.ofNat c.toNat] := by
  unfold Utf8.encodeChar
  exact if_pos h

/-- A byte of the upper half is no digit. -/
theorem not_isDigitByte {b : UInt8} (h : 128 ≤ b.toNat) : ¬ IsDigitByte b := by
  intro hb
  have hlt : (Char.ofNat b.toNat).toNat < 128 := toNat_lt_of_isDigit hb
  have hb256 : b.toNat < 256 := b.toNat_lt
  rw [Utf8.toNat_char (by omega)] at hlt
  omega

/-- A character beyond ASCII starts with a byte of the upper half. -/
theorem exists_high_byte {c : Char} (h : 128 ≤ c.toNat) :
    ∃ b ∈ Utf8.encodeChar c, 128 ≤ b.toNat := by
  have hvalid : c.toNat < 0xD800 ∨ (0xDFFF < c.toNat ∧ c.toNat < 0x110000) := c.valid
  have hfirst {n : Nat} (hlo : 128 ≤ n) (hhi : n < 256) (rest : Bytes) :
      ∃ b ∈ UInt8.ofNat n :: rest, 128 ≤ b.toNat :=
    ⟨_, List.mem_cons_self, by rwa [Utf8.toNat_byte hhi]⟩
  unfold Utf8.encodeChar
  dsimp only
  rw [if_neg (by omega)]
  -- two, three or four bytes, by the size of the number
  split
  · exact hfirst (by omega) (by omega) _
  · split
    · exact hfirst (by omega) (by omega) _
    · exact hfirst (by omega) (by omega) _

/-- A character is a digit if and only if its bytes are. -/
theorem isDigit_iff (c : Char) : IsDigit c ↔ ∀ b ∈ Utf8.encodeChar c, IsDigitByte b := by
  by_cases hc : c.toNat < 128
  · rw [encodeChar_of_lt hc, List.forall_mem_singleton, IsDigitByte, ofNat_toNat_byte hc]
  · obtain ⟨b, hb, hhigh⟩ := exists_high_byte (Nat.not_lt.mp hc)
    constructor
    · exact fun h => absurd (toNat_lt_of_isDigit h) hc
    · exact fun h => absurd (h b hb) (not_isDigitByte hhigh)

/-- All characters are digits when all bytes are those of digits. -/
theorem isDigit_iff_bytes (cs : List Char) :
    (∀ c ∈ cs, IsDigit c) ↔ ∀ b ∈ cs.flatMap Utf8.encodeChar, IsDigitByte b := by
  constructor
  · intro h b hb
    obtain ⟨c, hc, hbc⟩ := List.mem_flatMap.mp hb
    exact (isDigit_iff c).mp (h c hc) b hbc
  · intro h c hc
    exact (isDigit_iff c).mpr fun b hb => h b (List.mem_flatMap.mpr ⟨c, hc, hb⟩)

/-- A digit in front of a row is one byte in front of it. -/
theorem flatMap_digit_cons {c : Char} (h : IsDigit c) (cs : List Char) :
    (c :: cs).flatMap Utf8.encodeChar = UInt8.ofNat c.toNat :: cs.flatMap Utf8.encodeChar := by
  rw [List.flatMap_cons, encodeChar_of_lt (toNat_lt_of_isDigit h), List.singleton_append]

/-- Digits take as many bytes as there are. -/
theorem length_flatMap_digits {cs : List Char} (h : ∀ c ∈ cs, IsDigit c) :
    (cs.flatMap Utf8.encodeChar).length = cs.length := by
  induction cs with
  | nil => rfl
  | cons c cs ih =>
    obtain ⟨hc, hcs⟩ := List.forall_mem_cons.mp h
    rw [flatMap_digit_cons hc, List.length_cons, ih hcs, List.length_cons]

/-- The byte of a digit is read as the value of the digit. -/
theorem valueAt_digit {c : Char} (h : IsDigit c) (i : Nat) :
    valueAt i (UInt8.ofNat c.toNat) = .ok (number c) := by
  have hbyte := ofNat_toNat_byte (toNat_lt_of_isDigit h)
  rw [valueAt_of_digit (by rwa [IsDigitByte, hbyte]), hbyte]

/-! ### What becomes of a text -/

/-- Characters that denote bytes are decoded to them. -/
theorem decodePairs_of_denotes {cs : List Char} {b : Bytes} (h : Denotes cs b) (i : Nat) :
    decodePairs i (cs.flatMap Utf8.encodeChar) = .ok b := by
  induction h generalizing i with
  | nil => rfl
  | cons hhi hlo _ ih =>
    rw [flatMap_digit_cons hhi, flatMap_digit_cons hlo, decodePairs, valueAt_digit hhi,
      valueAt_digit hlo, ih, Nat.mul_comm 16]
    rfl

/-- A row of digits is read as the bytes that it denotes. -/
theorem decode_of_denotes {s : String} {b : Bytes} (h : Denotes s.toList b) :
    decode s = .ok b := by
  have hlen : (Utf8.encode s).length = 2 * b.length :=
    (length_flatMap_digits h.isDigit).trans h.length
  unfold decode
  dsimp only
  rw [if_neg (by omega)]
  exact decodePairs_of_denotes h 0

/-- An odd number of bytes is reported whatever they are. -/
theorem decode_of_odd {s : String} (h : (Utf8.encode s).length % 2 = 1) :
    decode s = .error .oddLength := by
  unfold decode
  dsimp only
  rw [if_pos h]

/-- Pairs are read up to the first byte that is no digit, be it the first or the second one of
    its pair. -/
theorem decodePairs_of_stray {byte : UInt8} {back : Bytes} (hbyte : ¬ IsDigitByte byte) :
    ∀ {front : Bytes} (i : Nat), (∀ b ∈ front, IsDigitByte b) →
      (front ++ byte :: back).length % 2 = 0 →
      decodePairs i (front ++ byte :: back) = .error (.notDigit byte (i + front.length))
  | [], i, _, heven => by
    cases back with
    | nil => nomatch heven
    | cons lo rest =>
      rw [List.nil_append, decodePairs, valueAt_of_stray hbyte]
      rfl
  | [d], i, hfront, _ => by
    rw [List.singleton_append, decodePairs, valueAt_of_digit (hfront d List.mem_cons_self),
      valueAt_of_stray hbyte]
    rfl
  | d :: e :: front, i, hfront, heven => by
    obtain ⟨hd, he, hrest⟩ : IsDigitByte d ∧ IsDigitByte e ∧ ∀ b ∈ front, IsDigitByte b := by
      simpa only [List.forall_mem_cons] using hfront
    rw [List.cons_append, List.cons_append, List.length_cons, List.length_cons] at heven
    have heven' : (front ++ byte :: back).length % 2 = 0 := by omega
    have ih := decodePairs_of_stray hbyte (i + 2) hrest heven'
    have hindex : i + (d :: e :: front).length = i + 2 + front.length := by
      rw [List.length_cons, List.length_cons]
      omega
    rw [List.cons_append, List.cons_append, decodePairs, valueAt_of_digit hd, valueAt_of_digit he,
      ih, hindex]
    rfl

/-- With an even number of bytes, the first one that is no digit is reported with its place. -/
theorem decode_of_stray {s : String} {front back : Bytes} {byte : UInt8}
    (heven : (Utf8.encode s).length % 2 = 0) (hs : Utf8.encode s = front ++ byte :: back)
    (hfront : ∀ b ∈ front, IsDigitByte b) (hbyte : ¬ IsDigitByte byte) :
    decode s = .error (.notDigit byte front.length) := by
  have hpairs := decodePairs_of_stray hbyte 0 hfront (hs ▸ heven)
  rw [Nat.zero_add] at hpairs
  unfold decode
  dsimp only
  rw [if_neg (by omega), hs, hpairs]

/-- A text with an even number of bytes is a row of digits or has a first byte that is none. -/
theorem denotes_or_stray {s : String} (heven : (Utf8.encode s).length % 2 = 0) :
    (∃ b, Denotes s.toList b) ∨
      ∃ front byte back, Utf8.encode s = front ++ byte :: back ∧
        (∀ b ∈ front, IsDigitByte b) ∧ ¬ IsDigitByte byte := by
  cases hfind : (Utf8.encode s).find? fun b => !decide (IsDigitByte b) with
  | none =>
    have hbytes : ∀ b ∈ Utf8.encode s, IsDigitByte b := by
      simpa using hfind
    have hdigits : ∀ c ∈ s.toList, IsDigit c := (isDigit_iff_bytes s.toList).mpr hbytes
    refine Or.inl (exists_denotes hdigits ?_)
    rwa [← length_flatMap_digits hdigits]
  | some byte =>
    obtain ⟨hbyte, front, back, hs, hfront⟩ := List.find?_eq_some_iff_append.mp hfind
    exact Or.inr ⟨front, byte, back, hs, by simpa using hfront, by simpa using hbyte⟩

/-! ### Printing -/

/-- What is printed for bytes denotes them. -/
theorem denotes_encode (b : Bytes) : Denotes (encode b).toList b := by
  rw [encode, String.toList_ofList]
  induction b with
  | nil => exact .nil
  | cons x b ih =>
    have hx : x.toNat < 256 := x.toNat_lt
    have hhi : x.toNat / 16 < 16 := by omega
    have hlo : x.toNat % 16 < 16 := by omega
    have h := Denotes.cons (isDigit_digit hhi) (isDigit_digit hlo) ih
    rwa [number_digit hhi, number_digit hlo, Nat.div_add_mod, UInt8.ofNat_toNat] at h

/-- In lower case, characters that denote bytes are the digits that are written for the bytes. -/
theorem lowerAfter_digits {cs : List Char} {b : Bytes} (h : Denotes cs b) (before : List Char) :
    Text.lowerAfter before cs =
      b.flatMap fun x => [digit (x.toNat / 16), digit (x.toNat % 16)] := by
  induction h generalizing before with
  | nil => rfl
  | @cons hi lo cs b hhi hlo _ ih =>
    have h₁ : number hi < 16 := number_lt hhi
    have h₂ : number lo < 16 := number_lt hlo
    have hbyte : (UInt8.ofNat (16 * number hi + number lo)).toNat = 16 * number hi + number lo :=
      Utf8.toNat_byte (by omega)
    have hdiv : (16 * number hi + number lo) / 16 = number hi := by omega
    have hmod : (16 * number hi + number lo) % 16 = number lo := by omega
    rw [Text.lowerAfter, Text.lowerAfter, if_neg (ne_sigma_of_isDigit hhi),
      if_neg (ne_sigma_of_isDigit hlo), lowerChar_digit hhi, lowerChar_digit hlo, ih,
      List.flatMap_cons, hbyte, hdiv, hmod]
    rfl

/-- The bytes of a row of digits are printed as the row in lower case. -/
theorem encode_of_denotes {s : String} {b : Bytes} (h : Denotes s.toList b) :
    encode b = Text.lower s := by
  rw [encode, Text.lower, lowerAfter_digits h]

end Hex

/-! ### Keys -/

namespace SecretKey

/-- The text consists of sixty-four digits, and the key of the bytes that they denote. -/
structure Spells (s : String) (k : SecretKey) : Prop where
  length : s.length = 64
  digits : ∀ c ∈ s.toList, Hex.IsDigit c
  denotes : Hex.Denotes s.toList k.bytes

/-- Why the text spells no key, and how that is said. -/
inductive Refuses (s : String) : KeyFault → String → Prop
  /-- The text has an odd number of bytes. -/
  | odd : (Utf8.encode s).length % 2 = 1 → Refuses s (.notHex .oddLength) "Odd number of digits"
  /-- The number of bytes is even, and one of them is no digit. The first such byte is reported,
      shown as the character of that code, and its place among the bytes. -/
  | stray {front back : Bytes} {byte : UInt8} :
    (Utf8.encode s).length % 2 = 0 → Utf8.encode s = front ++ byte :: back →
    (∀ b ∈ front, Hex.IsDigitByte b) → ¬ Hex.IsDigitByte byte →
    Refuses s (.notHex (.notDigit byte front.length))
      s!"Invalid character {Text.quoteChar (Char.ofNat byte.toNat)} at position {front.length}"
  /-- The digits denote too few bytes or too many. -/
  | size {b : Bytes} :
    Hex.Denotes s.toList b → b.length ≠ 32 →
    Refuses s (.wrongSize 32 b.length) s!"Invalid key size: expected 32, got {b.length}"

variable {s : String}

/-- A text spells a key when its characters denote the bytes of the key. -/
theorem Spells.of_denotes {k : SecretKey} (h : Hex.Denotes s.toList k.bytes) : Spells s k where
  length := by rw [← String.length_toList, h.length, k.length_bytes]
  digits := h.isDigit
  denotes := h

/-- A text that spells a key is read as it. -/
theorem ofHex_of_spells {k : SecretKey} (h : Spells s k) : ofHex s = .ok k := by
  rw [ofHex, Hex.decode_of_denotes h.denotes]
  exact dif_pos k.length_bytes

/-- A text that is to be refused is refused, with the fault that is to be told. -/
theorem ofHex_of_refuses {fault : KeyFault} {text : String} (h : Refuses s fault text) :
    ofHex s = .error fault := by
  cases h with
  | odd hodd => rw [ofHex, Hex.decode_of_odd hodd]
  | stray heven hs hfront hbyte => rw [ofHex, Hex.decode_of_stray heven hs hfront hbyte]
  | size hb hlen =>
    rw [ofHex, Hex.decode_of_denotes hb]
    exact dif_neg hlen

/-- The message of the fault is the one that is to be told. -/
theorem message_of_refuses {fault : KeyFault} {text : String} (h : Refuses s fault text) :
    (Error.keyProvider fault).message = "Key provider error: " ++ text := by
  cases h <;> rfl

/-- A text spells a key or is to be refused. -/
theorem spells_or_refuses (s : String) :
    (∃ k, Spells s k) ∨ ∃ fault text, Refuses s fault text := by
  obtain heven | hodd := Nat.mod_two_eq_zero_or_one (Utf8.encode s).length
  · obtain ⟨b, hb⟩ | ⟨front, byte, back, hs, hfront, hbyte⟩ := Hex.denotes_or_stray heven
    · by_cases hlen : b.length = 32
      · exact Or.inl ⟨⟨b, hlen⟩, .of_denotes hb⟩
      · exact Or.inr ⟨_, _, .size hb hlen⟩
    · exact Or.inr ⟨_, _, .stray heven hs hfront hbyte⟩
  · exact Or.inr ⟨_, _, .odd hodd⟩

/-- A text is read as a key if and only if it consists of sixty-four digits, in any mixture of
    cases, that denote the bytes of the key. So the printed form of a key is read as the key, and
    the text of a key that is read and printed again comes out in lower case. Every other text is
    refused with an error of the key provider: for an odd number of bytes before anything else,
    then for the first byte that is no digit, and only a row of digits for its length. -/
theorem reads_spelled_keys (s : String) :
    (∀ k, ofHex s = .ok k ↔ Spells s k) ∧
    (∀ k : SecretKey, ofHex (Hex.encode k.bytes) = .ok k) ∧
    (∀ k, ofHex s = .ok k → Hex.encode k.bytes = Text.lower s) ∧
    (∀ fault text,
      ofHex s = .error fault ∧
        (Error.keyProvider fault).message = "Key provider error: " ++ text ↔
      Refuses s fault text) := by
  have hok (k : SecretKey) (h : ofHex s = .ok k) : Spells s k := by
    obtain ⟨k', hk'⟩ | ⟨fault, text, hfault⟩ := spells_or_refuses s
    · cases h.symm.trans (ofHex_of_spells hk')
      exact hk'
    · cases h.symm.trans (ofHex_of_refuses hfault)
  refine ⟨fun k => ⟨hok k, ofHex_of_spells⟩, ?_, ?_, ?_⟩
  · exact fun k => ofHex_of_spells (.of_denotes (Hex.denotes_encode k.bytes))
  · exact fun k h => Hex.encode_of_denotes (hok k h).denotes
  · refine fun fault text => ⟨?_, fun h => ⟨ofHex_of_refuses h, message_of_refuses h⟩⟩
    rintro ⟨h, htext⟩
    obtain ⟨k, hk⟩ | ⟨fault', text', hfault⟩ := spells_or_refuses s
    · cases h.symm.trans (ofHex_of_spells hk)
    · cases h.symm.trans (ofHex_of_refuses hfault)
      rw [message_of_refuses hfault] at htext
      rwa [← String.append_right_inj _ |>.mp htext]

/-- Two characters may have three bytes, and three characters four. -/
example : ofHex "0é" = .error (.notHex .oddLength) ∧
    ofHex "0é0" = .error (.notHex (.notDigit 0xC3 1)) ∧ ofHex "0a" = .error (.wrongSize 32 1) := by
  decide +kernel

end SecretKey

end Outbox
