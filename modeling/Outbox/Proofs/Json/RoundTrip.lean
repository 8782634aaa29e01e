import Mathlib.Data.List.TakeWhile
import Outbox.Json.Parser
import Outbox.Json.Printer

namespace Outbox.Json

/-!
# JSON texts there and back

What is written is read as what it was:

* `codes?_flatMap_quotedChar`, `text?_map_toNat` — the characters of a string between quotes.
* `number?_toString` — the digits of an integer.
* `Written` — values that have a text: everything in them can be read as such.
* `tokensOf`, `Spells` — the tokens that stand for a value, and the tokens that a text starts with.
* `spelledBy_compactChars`, `spelledBy_prettyChars` — both ways of writing a value spell its tokens.
* `Reading.readAs_tokensOf` — the tokens of a value are read as the value, whatever stands around
  it.
* `parse?_compact`, `parse?_pretty` — so both texts of a value are read as the value.
-/

/-! ### Strings -/

section Strings

variable {c : Char} {n : Nat}

/-- A hexadecimal digit is read as its value. -/
theorem hexValue?_digit (h : n < 16) : hexValue? (Hex.digit n) = some n := by
  decide +revert

/-- A short escape is read as the character that it stands for. -/
theorem codes?_escape (h : escape? c = some n) (cs : List Char) :
    codes? ('\\' :: c :: cs) = (codes? cs).map fun (codes, rest) => (n :: codes, rest) := by
  have hu : c ≠ 'u' := by
    rintro rfl
    cases h
  rw [codes?]
  · rw [h]
    cases codes? cs <;> rfl
  · intro _ _ _ _ _ hc
    exact absurd hc hu

/-- A control character is read back from the four digits in which it is written. -/
theorem codes?_control (h : n < 0x20) (cs : List Char) :
    codes? ('\\' :: 'u' :: '0' :: '0' :: Hex.digit (n / 16) :: Hex.digit (n % 16) :: cs) =
      (codes? cs).map fun (codes, rest) => (n :: codes, rest) := by
  have hn : 0 * 4096 + 0 * 256 + n / 16 * 16 + n % 16 = n := by omega
  rw [codes?, hexValue?_digit (by omega), hexValue?_digit (by omega)]
  cases codes? cs with
  | none => rfl
  | some p =>
    show some ((0 * 4096 + 0 * 256 + n / 16 * 16 + n % 16) :: p.1, p.2) = _
    rw [hn]
    rfl

/-- A character that needs no escape is read as it is. -/
theorem codes?_plain (hq : c ≠ '"') (hb : c ≠ '\\') (hc : ¬ c.toNat < 0x20) (cs : List Char) :
    codes? (c :: cs) = (codes? cs).map fun (codes, rest) => (c.toNat :: codes, rest) := by
  rw [codes?]
  · rw [if_neg (by simpa [hb] using hc)]
    cases codes? cs <;> rfl
  · exact hq
  · intro _ _ _ _ _ h
    exact absurd h hb
  · intro _ _ h
    exact absurd h hb

/-- A character is read as its code point, however it is written. -/
theorem codes?_quotedChar (c : Char) (cs : List Char) :
    codes? (quotedChar c ++ cs) =
      (codes? cs).map fun (codes, rest) => (c.toNat :: codes, rest) := by
  unfold quotedChar
  split
  case h_8 =>
    dsimp only
    split
    · next h => exact codes?_control h cs
    · next h => exact codes?_plain ‹_› ‹_› h cs
  all_goals exact codes?_escape rfl cs

/-- The characters of a string are read up to the quote that ends it. -/
theorem codes?_flatMap_quotedChar (s cs : List Char) :
    codes? (s.flatMap quotedChar ++ '"' :: cs) = some (s.map Char.toNat, cs) := by
  induction s with
  | nil => rw [List.flatMap_nil, List.nil_append, codes?, List.map_nil]
  | cons c s ih => rw [List.flatMap_cons, List.append_assoc, codes?_quotedChar, ih]; rfl

/-- No character is half of another one. -/
theorem isHalf_toNat (c : Char) : isHigh c.toNat = false ∧ isLow c.toNat = false := by
  have hvalid : c.toNat < 0xD800 ∨ 0xDFFF < c.toNat ∧ c.toNat < 0x110000 := c.valid
  constructor
  · simp only [isHigh, Bool.and_eq_false_iff, decide_eq_false_iff_not]
    omega
  · simp only [isLow, Bool.and_eq_false_iff, decide_eq_false_iff_not]
    omega

/-- Code points of characters are those characters. -/
theorem characters?_map_toNat (s : List Char) : characters? (s.map Char.toNat) = some s := by
  induction s with
  | nil => rfl
  | cons c s ih =>
    obtain ⟨hhigh, hlow⟩ := isHalf_toNat c
    cases s with
    | nil => simp [characters?, hhigh, hlow]
    | cons d s =>
      rw [List.map_cons] at ih
      simp [characters?, hhigh, hlow, ih]

/-- The code points of a text make up the text. -/
theorem text?_map_toNat (s : String) : text? (s.toList.map Char.toNat) = some s := by
  rw [text?, characters?_map_toNat]
  exact congrArg some String.ofList_toList

end Strings

/-! ### Numbers -/

section Numbers

variable {ds : List Char} {n : Nat}

/-- The decimal digits of a number are read as the number. -/
theorem digitsValue_toDigits (n : Nat) : digitsValue (Nat.toDigits 10 n) = n := by
  rw [digitsValue]
  simp only [Nat.mul_comm _ 10]
  exact Nat.ofDigitChars_ten_toDigits

/-- Only zero is written with a zero in front. -/
theorem head?_toDigits (h : (Nat.toDigits 10 n).head? = some '0') : n = 0 := by
  induction n using Nat.strongRecOn with
  | ind n ih =>
    rw [Nat.toDigits_eq_if (by decide)] at h
    split at h
    · clear ih
      decide +revert
    · next hn =>
      obtain ⟨c, cs, hcs⟩ :=
        List.exists_cons_of_ne_nil (Nat.toDigits_ne_nil (n := n / 10) (b := 10))
      have hzero := ih (n / 10) (by omega) (by rw [hcs] at h ⊢; exact h)
      omega

/-- The digits of a number: there are some, and no zero in front of others. -/
structure Digits (ds : List Char) : Prop where
  ne_nil : ds ≠ []
  isDigit : ∀ c ∈ ds, c.isDigit = true
  leads : ¬ (1 < ds.length ∧ ds.head? = some '0')

/-- A number has digits, and they begin with a zero only if there is no other one. -/
theorem digits_toDigits (n : Nat) : Digits (Nat.toDigits 10 n) := by
  refine ⟨Nat.toDigits_ne_nil, fun c hc => Nat.isDigit_of_mem_toDigits (by decide) (by decide) hc,
    fun ⟨hlength, hhead⟩ => ?_⟩
  obtain rfl := head?_toDigits hhead
  exact absurd hlength (by decide)

/-- Digits are taken to their end. -/
theorem Digits.takeWhile (h : Digits ds) : ds.takeWhile Char.isDigit = ds :=
  List.takeWhile_eq_self_iff.2 h.isDigit

/-- Nothing but digits is there. -/
theorem Digits.dropWhile (h : Digits ds) : ds.dropWhile Char.isDigit = [] :=
  List.dropWhile_eq_nil_iff.2 h.isDigit

/-- Digits begin with no sign. -/
theorem Digits.unsigned (h : Digits ds) : ds.head? ≠ some '-' := by
  intro hhead
  exact absurd (h.isDigit '-' (List.mem_of_head? hhead)) (by decide)

/-- Digits are read as their value. -/
theorem number?_of_digits (h : Digits ds) : number? ds = some (.int (digitsValue ds)) := by
  have hleads : (1 < ds.length && ds.head? = some '0') = false := by
    simpa using h.leads
  unfold number?
  simp only [h.unsigned, decide_false, Bool.false_eq_true, if_false, h.takeWhile, h.dropWhile,
    List.isEmpty_eq_false_iff.2 h.ne_nil, hleads, List.isEmpty_nil, isTail, isExponent,
    Bool.not_true, Bool.not_false, Bool.or_false, if_true]

/-- Digits after a minus are read as the value below zero, unless it is zero. -/
theorem number?_of_minus (h : Digits ds) (hne : digitsValue ds ≠ 0) :
    number? ('-' :: ds) = some (.int (-digitsValue ds)) := by
  have hleads : (1 < ds.length && ds.head? = some '0') = false := by
    simpa using h.leads
  unfold number?
  simp only [List.head?_cons, decide_true, if_true, List.drop_one, List.tail_cons, h.takeWhile,
    h.dropWhile, List.isEmpty_eq_false_iff.2 h.ne_nil, hleads, List.isEmpty_nil, isTail, isExponent,
    Bool.not_true, Bool.or_false, Bool.false_eq_true, if_false, hne]

/-- A natural number is shown by its decimal digits. -/
theorem toList_toString_nat (n : Nat) : (toString n).toList = Nat.toDigits 10 n := by
  rw [Nat.toString_eq_ofList_toDigits, String.toList_ofList]

/-- A negative integer is shown by a sign and decimal digits. -/
theorem toList_toString_neg (n : Nat) :
    (toString (Int.negSucc n)).toList = '-' :: Nat.toDigits 10 (n + 1) := by
  show ("-" ++ toString (n + 1)).toList = _
  rw [String.toList_append, toList_toString_nat]
  rfl

/-- An integer is read as what it is. -/
theorem number?_toString (n : Int) : number? (toString n).toList = some (.int n) := by
  cases n with
  | ofNat n =>
    show number? (toString n).toList = _
    rw [toList_toString_nat, number?_of_digits (digits_toDigits n), digitsValue_toDigits]
    rfl
  | negSucc n =>
    rw [toList_toString_neg, number?_of_minus (digits_toDigits _), digitsValue_toDigits]
    · rfl
    · rw [digitsValue_toDigits]
      exact Nat.succ_ne_zero n

/-- A digit may stand in a number. -/
theorem inNumber_of_isDigit {c : Char} (h : c.isDigit = true) : inNumber c = true := by
  simp [inNumber, h]

/-- What shows an integer may stand in a number. -/
theorem inNumber_toString (n : Int) : ∀ c ∈ (toString n).toList, inNumber c = true := by
  cases n with
  | ofNat n =>
    show ∀ c ∈ (toString n).toList, _
    rw [toList_toString_nat]
    exact fun c hc => inNumber_of_isDigit ((digits_toDigits n).isDigit c hc)
  | negSucc n =>
    rw [toList_toString_neg]
    intro c hc
    obtain rfl | hc := List.mem_cons.1 hc
    · rfl
    · exact inNumber_of_isDigit ((digits_toDigits _).isDigit c hc)

end Numbers

/-! ### What can be written -/

/-- A number whose text is read as the number. -/
structure Number.Written (n : Number) : Prop where
  inNumber : ∀ c ∈ n.chars, inNumber c = true
  read : number? n.chars = some n

/-- An integer is written as a number without a fraction. -/
theorem Number.written_int (n : Int) : (Number.int n).Written :=
  ⟨inNumber_toString n, number?_toString n⟩

/-- A value that has a text: all numbers in it have one, and nothing in it is unreadable. -/
inductive Written : Json → Prop
  | null : Written .null
  | bool (b : Bool) : Written (.bool b)
  | number {n : Number} : n.Written → Written (.number n)
  | string (s : String) : Written (.string s)
  | array {items : List Json} : (∀ v ∈ items, Written v) → Written (.array items)
  | object {fields : List (String × Json)} : (∀ f ∈ fields, Written f.2) → Written (.object fields)

/-- A natural number is a value that can be written. -/
theorem written_ofNat (n : Nat) : Written (.ofNat n) := .number (Number.written_int n)

/-- An integer is a value that can be written. -/
theorem written_ofInt (n : Int) : Written (.ofInt n) := .number (Number.written_int n)

mutual

/-- The tokens that stand for a value. -/
def tokensOf : Json → List Token
  | .null => [.null]
  | .bool b => [.bool b]
  | .number n => [.number n]
  | .string s => [.string (some s)]
  | .array items => .openArray :: tokensOfItems items
  | .object fields => .openObject :: tokensOfFields fields
  | .unreadable => []

/-- The tokens of items and the end of the array. -/
def tokensOfItems : List Json → List Token
  | [] => [.closeArray]
  | [v] => tokensOf v ++ [.closeArray]
  | v :: vs => tokensOf v ++ .comma :: tokensOfItems vs

/-- The tokens of fields and the end of the object. -/
def tokensOfFields : List (String × Json) → List Token
  | [] => [.closeObject]
  | [(name, v)] => .string (some name) :: .colon :: tokensOf v ++ [.closeObject]
  | (name, v) :: fs =>
    .string (some name) :: .colon :: tokensOf v ++ .comma :: tokensOfFields fs

end

/-! ### What is written -/

section Spelling

variable {cs cs' rest : List Char} {ts ts' : List Token} {t : Token} {v : Json}
  {items : List Json} {fields : List (String × Json)}

/-- The first token and the tokens of what follows it, after the spaces. -/
theorem tokens?_eq (cs : List Char) : tokens? cs =
    if (cs.dropWhile isSpace).isEmpty then some []
    else (token? (cs.dropWhile isSpace)).bind fun p => (tokens? p.2).map (p.1 :: ·) := by
  rw [tokens?]
  dsimp only
  split
  · rfl
  · split
    · next h => rw [h]; rfl
    · next h => rw [h]; rfl

/-- White space before the tokens is skipped. -/
theorem tokens?_space {c : Char} (h : isSpace c = true) : tokens? (c :: cs) = tokens? cs := by
  rw [tokens?_eq, List.dropWhile_cons_of_pos h, ← tokens?_eq]

/-- No token starts with a space. -/
theorem dropWhile_of_token? (h : token? cs = some (t, rest)) : cs.dropWhile isSpace = cs := by
  cases cs with
  | nil => rfl
  | cons c cs =>
    refine List.dropWhile_cons_of_neg fun hspace => ?_
    simp only [isSpace, Bool.or_eq_true, decide_eq_true_eq] at hspace
    obtain ((rfl | rfl) | rfl) | rfl := hspace <;> cases h

/-- The tokens of a text are the first one and those of the rest. -/
theorem tokens?_of_token? (h : token? cs = some (t, rest)) :
    tokens? cs = (tokens? rest).map (t :: ·) := by
  have hne : cs.isEmpty = false := by
    cases cs with
    | nil => cases h
    | cons => rfl
  rw [tokens?_eq, dropWhile_of_token? h, hne, h]
  rfl

/-- A text starts with these tokens, and the rest follows. -/
def Spells (ts : List Token) (cs rest : List Char) : Prop :=
  tokens? cs = (tokens? rest).map (ts ++ ·)

/-- No characters spell no tokens. -/
theorem Spells.nil (cs : List Char) : Spells [] cs cs := by
  simp [Spells]

/-- Characters that are read as one token spell it. -/
theorem Spells.token (h : token? cs = some (t, rest)) : Spells [t] cs rest :=
  tokens?_of_token? h

/-- What is spelled one after another is spelled together. -/
theorem Spells.trans (h : Spells ts cs cs') (h' : Spells ts' cs' rest) :
    Spells (ts ++ ts') cs rest := by
  unfold Spells
  rw [h, h', Option.map_map]
  congr 1
  funext r
  exact (List.append_assoc ts ts' r).symm

/-- A token may stand before what is spelled. -/
theorem Spells.cons (h : token? cs = some (t, cs')) (h' : Spells ts cs' rest) :
    Spells (t :: ts) cs rest :=
  (Spells.token h).trans h'

/-- White space may stand before what is spelled. -/
theorem Spells.space {c : Char} (hc : isSpace c = true) (h : Spells ts cs rest) :
    Spells ts (c :: cs) rest :=
  (tokens?_space hc).trans h

/-- What comes next is not read as a part of a number. -/
def Ends (rest : List Char) : Prop := ∀ c ∈ rest.head?, inNumber c = false

/-- A quoted text spells one token. -/
theorem spells_quote (s : String) (rest : List Char) :
    Spells [.string (some s)] (quote s ++ rest) rest := by
  refine .token ?_
  rw [quote, List.cons_append, List.cons_append, List.append_assoc, List.singleton_append, token?,
    codes?_flatMap_quotedChar, Option.map_some]
  dsimp only
  rw [text?_map_toNat]

/-- A character of a number begins a token that goes as far as such characters go. -/
theorem token?_of_inNumber {c : Char} (h : inNumber c = true) (cs : List Char) :
    token? (c :: cs) =
      (number? (c :: cs.takeWhile inNumber)).map fun n => (.number n, cs.dropWhile inNumber) := by
  rw [token?]
  · rw [if_pos h]
  -- no other token starts with a character of a number
  all_goals
    intros
    subst_vars
    cases h

/-- Up to where a number may end, its characters are taken. -/
theorem takeWhile_append_of_ends (h : ∀ c ∈ cs, inNumber c = true) (hends : Ends rest) :
    (cs ++ rest).takeWhile inNumber = cs := by
  rw [List.takeWhile_append_of_pos h]
  cases rest with
  | nil => rw [List.takeWhile_nil, List.append_nil]
  | cons c rest =>
    rw [List.takeWhile_cons_of_neg (by simp [hends c rfl]), List.append_nil]

/-- From where a number may end, everything is left. -/
theorem dropWhile_append_of_ends (h : ∀ c ∈ cs, inNumber c = true) (hends : Ends rest) :
    (cs ++ rest).dropWhile inNumber = rest := by
  rw [List.dropWhile_append_of_pos h]
  cases rest with
  | nil => rfl
  | cons c rest => exact List.dropWhile_cons_of_neg (by simp [hends c rfl])

/-- A number that can be written spells one token. -/
theorem spells_number {n : Number} (h : n.Written) (hends : Ends rest) :
    Spells [.number n] (n.chars ++ rest) rest := by
  obtain ⟨hchars, hread⟩ := h
  refine .token ?_
  cases hcs : n.chars with
  | nil =>
    rw [hcs] at hread
    cases hread
  | cons c cs =>
    rw [hcs] at hchars hread
    obtain ⟨hc, hchars⟩ := List.forall_mem_cons.1 hchars
    rw [List.cons_append, token?_of_inNumber hc, takeWhile_append_of_ends hchars hends,
      dropWhile_append_of_ends hchars hends, hread, Option.map_some]

/-- A text stands for a value, whatever ends it. -/
def SpelledBy (v : Json) (text : List Char) : Prop :=
  ∀ rest, Ends rest → Spells (tokensOf v) (text ++ rest) rest

/-- A number ends before a character that cannot stand in it. -/
theorem ends_cons {c : Char} (h : inNumber c = false) (cs : List Char) : Ends (c :: cs) := by
  rintro _ ⟨⟩
  exact h

/-- Items without spaces between them spell their tokens, if each item spells its own. -/
theorem spells_compactItems (h : ∀ v ∈ items, SpelledBy v (compactChars v)) (rest : List Char) :
    Spells (tokensOfItems items) (compactItems items ++ rest) rest := by
  induction items with
  | nil => exact .token rfl
  | cons v vs ih =>
    obtain ⟨hv, hvs⟩ := List.forall_mem_cons.1 h
    cases vs with
    | nil =>
      rw [tokensOfItems, compactItems, List.append_assoc]
      exact (hv _ (ends_cons rfl _)).trans (.token rfl)
    | cons w ws =>
      rw [tokensOfItems, compactItems, List.append_assoc]
      · exact (hv _ (ends_cons rfl _)).trans (.cons rfl (ih hvs))
      all_goals exact nofun

/-- Fields without spaces between them spell their tokens, if each value spells its own. -/
theorem spells_compactFields (h : ∀ f ∈ fields, SpelledBy f.2 (compactChars f.2))
    (rest : List Char) : Spells (tokensOfFields fields) (compactFields fields ++ rest) rest := by
  induction fields with
  | nil => exact .token rfl
  | cons f fs ih =>
    obtain ⟨name, v⟩ := f
    obtain ⟨hv, hfs⟩ := List.forall_mem_cons.1 h
    cases fs with
    | nil =>
      rw [tokensOfFields, compactFields]
      simp only [List.append_assoc, List.cons_append]
      exact (spells_quote name _).trans (.cons rfl ((hv _ (ends_cons rfl _)).trans (.token rfl)))
    | cons g gs =>
      rw [tokensOfFields, compactFields]
      · simp only [List.append_assoc, List.cons_append]
        exact (spells_quote name _).trans
          (.cons rfl ((hv _ (ends_cons rfl _)).trans (.cons rfl (ih hfs))))
      all_goals exact nofun

/-- A value without any space. -/
theorem spelledBy_compactChars (h : Written v) : SpelledBy v (compactChars v) := by
  induction h with
  | null => exact fun rest _ => .token rfl
  | bool b => cases b <;> exact fun rest _ => .token rfl
  | number hn => exact fun rest hrest => spells_number hn hrest
  | string s => exact fun rest _ => spells_quote s rest
  | array _ ih => exact fun rest _ => .cons rfl (spells_compactItems ih rest)
  | object _ ih => exact fun rest _ => .cons rfl (spells_compactFields ih rest)

/-! ### Lines -/

/-- An indentation may stand before what is spelled. -/
theorem Spells.indent {depth : Nat} (h : Spells ts cs rest) :
    Spells ts (Json.indent depth ++ cs) rest := by
  refine .space rfl ?_
  induction 2 * depth with
  | zero => exact h
  | succ n ih => exact .space rfl ih

/-- A number ends before an indentation. -/
theorem ends_indent (depth : Nat) (cs : List Char) : Ends (indent depth ++ cs) :=
  ends_cons rfl _

/-- Items on lines of their own spell their tokens, if each item spells its own. -/
theorem spells_prettyItems {depth : Nat} (hne : items ≠ [])
    (h : ∀ v ∈ items, SpelledBy v (prettyChars depth v)) (rest : List Char) :
    Spells (tokensOfItems items) (prettyItems depth items ++ rest) rest := by
  induction items with
  | nil => exact absurd rfl hne
  | cons v vs ih =>
    obtain ⟨hv, hvs⟩ := List.forall_mem_cons.1 h
    cases vs with
    | nil =>
      rw [tokensOfItems, prettyItems]
      simp only [List.append_assoc]
      exact .indent ((hv _ (ends_indent _ _)).trans (.indent (.token rfl)))
    | cons w ws =>
      rw [tokensOfItems, prettyItems]
      · simp only [List.append_assoc]
        exact .indent ((hv _ (ends_cons rfl _)).trans (.cons rfl (ih nofun hvs)))
      all_goals exact nofun

/-- Fields on lines of their own spell their tokens, if each value spells its own. -/
theorem spells_prettyFields {depth : Nat} (hne : fields ≠ [])
    (h : ∀ f ∈ fields, SpelledBy f.2 (prettyChars depth f.2)) (rest : List Char) :
    Spells (tokensOfFields fields) (prettyFields depth fields ++ rest) rest := by
  induction fields with
  | nil => exact absurd rfl hne
  | cons f fs ih =>
    obtain ⟨name, v⟩ := f
    obtain ⟨hv, hfs⟩ := List.forall_mem_cons.1 h
    cases fs with
    | nil =>
      rw [tokensOfFields, prettyFields]
      simp only [List.append_assoc, List.cons_append]
      exact .indent ((spells_quote name _).trans
        (.cons rfl (.space rfl ((hv _ (ends_indent _ _)).trans (.indent (.token rfl))))))
    | cons g gs =>
      rw [tokensOfFields, prettyFields]
      · simp only [List.append_assoc, List.cons_append]
        exact .indent ((spells_quote name _).trans
          (.cons rfl (.space rfl ((hv _ (ends_cons rfl _)).trans (.cons rfl (ih nofun hfs))))))
      all_goals exact nofun

/-- A value over several lines. -/
theorem spelledBy_prettyChars (h : Written v) (depth : Nat) :
    SpelledBy v (prettyChars depth v) := by
  induction h generalizing depth with
  | null => exact spelledBy_compactChars .null
  | bool b => exact spelledBy_compactChars (.bool b)
  | number hn => exact spelledBy_compactChars (.number hn)
  | string s => exact spelledBy_compactChars (.string s)
  | @array items _ ih =>
    intro rest _
    cases items with
    | nil => exact .cons rfl (.token rfl)
    | cons v vs =>
      rw [prettyChars]
      · exact .cons rfl (spells_prettyItems (List.cons_ne_nil v vs) (fun v hv => ih v hv _) rest)
      · exact nofun
  | @object fields _ ih =>
    intro rest _
    cases fields with
    | nil => exact .cons rfl (.token rfl)
    | cons f fs =>
      rw [prettyChars]
      · exact .cons rfl (spells_prettyFields (List.cons_ne_nil f fs) (fun f hf => ih f hf _) rest)
      · exact nofun

end Spelling

/-! ### What is read -/

namespace Reading

variable {v : Json} {items : List Json} {fields : List (String × Json)} {stack : List Open}
  {ts : List Token} {t : Token} {r r' : Reading}

/-- A reader takes the first token, and then the others. -/
theorem run_cons (h : r.step t = some r') : r.run (t :: ts) = r'.run ts := by
  rw [run, h]

/-- Fields in the order in which an open object lists them. -/
def listed (fields : List (String × Json)) : List (Option String × Json) :=
  (fields.map fun f => (some f.1, f.2)).reverse

/-- A field is listed before those that were there. -/
theorem listed_concat (fields : List (String × Json)) (name : String) (v : Json) :
    listed (fields ++ [(name, v)]) = (some name, v) :: listed fields := by
  simp [listed]

/-- The fields of an object that is closed are those that have been listed. -/
theorem closeFields_listed (fields : List (String × Json)) :
    closeFields (listed fields) = .object fields := by
  have h : (fields.map fun f => (some f.1, f.2)).mapM
      (fun f : Option String × Json => f.1.map (·, f.2)) = some fields := by
    induction fields with
    | nil => rfl
    | cons f fs ih => rw [List.map_cons, List.mapM_cons, ih]; rfl
  unfold closeFields
  rw [listed, List.reverse_reverse, h]

/-- A value starts with a token that ends nothing. -/
theorem exists_tokensOf_eq (h : Written v) :
    ∃ t ts, tokensOf v = t :: ts ∧ t ≠ .closeArray := by
  cases h with
  | null => exact ⟨_, _, rfl, nofun⟩
  | bool b => exact ⟨_, _, rfl, nofun⟩
  | number hn => exact ⟨_, _, rfl, nofun⟩
  | string s => exact ⟨_, _, rfl, nofun⟩
  | array h => exact ⟨_, _, rfl, nofun⟩
  | object h => exact ⟨_, _, rfl, nofun⟩

/-- The first item of an array is read as any other. -/
theorem run_firstItem (h : Written v) :
    run ⟨stack, .firstItem⟩ (tokensOf v ++ ts) = run ⟨stack, .value⟩ (tokensOf v ++ ts) := by
  obtain ⟨t, ts', heq, hne⟩ := exists_tokensOf_eq h
  rw [heq, List.cons_append, run, run]
  have hstep : step ⟨stack, .firstItem⟩ t = step ⟨stack, .value⟩ t := by
    cases t <;> first | rfl | exact absurd rfl hne
  rw [hstep]

/-- Tokens that are read as a value, whatever stands around them. -/
def ReadAs (ts : List Token) (v : Json) : Prop :=
  ∀ stack ts', run ⟨stack, .value⟩ (ts ++ ts') = run (give stack v) ts'

/-- The tokens of items are read as an array that goes on from the items seen so far. -/
theorem run_tokensOfItems (h : ∀ w ∈ v :: items, ReadAs (tokensOf w) w) (seen : List Json) :
    run ⟨.array seen :: stack, .value⟩ (tokensOfItems (v :: items) ++ ts) =
      run (give stack (.array (seen.reverse ++ v :: items))) ts := by
  induction items generalizing v seen with
  | nil =>
    rw [tokensOfItems, List.append_assoc, h v List.mem_cons_self, List.singleton_append]
    refine (run_cons rfl).trans ?_
    rw [List.reverse_cons]
  | cons w ws ih =>
    obtain ⟨hv, hws⟩ := List.forall_mem_cons.1 h
    rw [tokensOfItems, List.append_assoc, hv, List.cons_append]
    · refine (run_cons rfl).trans ((ih hws (v :: seen)).trans ?_)
      rw [List.reverse_cons, List.append_assoc, List.singleton_append]
    all_goals exact nofun

/-- The tokens of fields are read as an object that goes on from the fields seen so far. -/
theorem run_tokensOfFields {f : String × Json}
    (h : ∀ g ∈ f :: fields, ReadAs (tokensOf g.2) g.2) (seen : List (String × Json))
    (last : Option String) :
    run ⟨.object (listed seen) last :: stack, .name⟩ (tokensOfFields (f :: fields) ++ ts) =
      run (give stack (.object (seen ++ f :: fields))) ts := by
  induction fields generalizing f seen last with
  | nil =>
    obtain ⟨name, v⟩ := f
    rw [tokensOfFields]
    simp only [List.append_assoc, List.cons_append, List.nil_append]
    refine (run_cons rfl).trans ((run_cons rfl).trans ?_)
    rw [h (name, v) List.mem_cons_self]
    refine (run_cons rfl).trans ?_
    rw [← listed_concat, closeFields_listed]
  | cons g gs ih =>
    obtain ⟨name, v⟩ := f
    obtain ⟨hv, hgs⟩ := List.forall_mem_cons.1 h
    rw [tokensOfFields]
    · simp only [List.append_assoc, List.cons_append]
      refine (run_cons rfl).trans ((run_cons rfl).trans ?_)
      rw [hv]
      refine (run_cons rfl).trans ?_
      rw [← listed_concat, ih hgs, List.append_assoc, List.singleton_append]
    all_goals exact nofun

/-- The tokens of a value are read as the value. -/
theorem readAs_tokensOf (h : Written v) : ReadAs (tokensOf v) v := by
  -- only before its first member may a container end at once; there a member is read as elsewhere
  induction h with
  | null => exact fun stack ts => run_cons rfl
  | bool b => exact fun stack ts => run_cons rfl
  | number hn => exact fun stack ts => run_cons rfl
  | string s => exact fun stack ts => run_cons rfl
  | @array items h ih =>
    intro stack ts
    refine (run_cons rfl).trans ?_
    cases items with
    | nil => exact run_cons rfl
    | cons v vs =>
      have hfirst : run ⟨.array [] :: stack, .firstItem⟩ (tokensOfItems (v :: vs) ++ ts) =
          run ⟨.array [] :: stack, .value⟩ (tokensOfItems (v :: vs) ++ ts) := by
        cases vs with
        | nil =>
          rw [tokensOfItems, List.append_assoc, run_firstItem (h v List.mem_cons_self)]
        | cons w ws =>
          rw [tokensOfItems, List.append_assoc, run_firstItem (h v List.mem_cons_self)]
          all_goals exact nofun
      exact hfirst.trans (run_tokensOfItems ih [])
  | @object fields h ih =>
    intro stack ts
    refine (run_cons rfl).trans ?_
    cases fields with
    | nil => exact run_cons rfl
    | cons f fs =>
      have hfirst : run ⟨.object [] none :: stack, .firstName⟩ (tokensOfFields (f :: fs) ++ ts) =
          run ⟨.object [] none :: stack, .name⟩ (tokensOfFields (f :: fs) ++ ts) := by
        obtain ⟨name, v⟩ := f
        cases fs <;> rfl
      exact hfirst.trans (run_tokensOfFields ih [] none)

end Reading

/-! ### There and back -/

variable {v : Json}

/-- A text that stands for a value is read as the value, whatever spaces come after it. -/
theorem parse?_of_spelledBy (h : Written v) {text spaces : List Char} (htext : SpelledBy v text)
    (hspaces : ∀ c ∈ spaces, isSpace c = true) :
    parse? (String.ofList (text ++ spaces)) = some v := by
  have hends : Ends spaces := by
    intro c hc
    have hspace := hspaces c (List.mem_of_head? hc)
    simp only [isSpace, Bool.or_eq_true, decide_eq_true_eq] at hspace
    obtain ((rfl | rfl) | rfl) | rfl := hspace <;> rfl
  have htokens : tokens? (text ++ spaces) = some (tokensOf v) := by
    rw [htext spaces hends, tokens?_eq, List.dropWhile_eq_nil_iff.2 hspaces]
    simp
  have hrun : Reading.start.run (tokensOf v) = some ⟨[], .finished v⟩ := by
    have hrun := Reading.readAs_tokensOf h [] []
    rwa [List.append_nil] at hrun
  unfold parse?
  rw [String.toList_ofList, htokens]
  dsimp only
  rw [hrun]

/-- The text of a value without any space is read as the value. -/
theorem parse?_compact (h : Written v) : parse? (compact v) = some v := by
  have hread := parse?_of_spelledBy h (spelledBy_compactChars h) (List.forall_mem_nil _)
  rwa [List.append_nil] at hread

/-- The text of a value over several lines is read as the value. -/
theorem parse?_pretty (h : Written v) : parse? (pretty v) = some v := by
  have hread := parse?_of_spelledBy h (spelledBy_prettyChars h 0) (List.forall_mem_nil _)
  rwa [List.append_nil] at hread

end Outbox.Json
