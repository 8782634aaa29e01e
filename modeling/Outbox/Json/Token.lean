import Outbox.Json

namespace Outbox.Json

/-!
# Tokens of JSON

* `Token` — punctuation, a word, a number or a string.
* `number?` — the number of a literal, if the literal is one.
* `codes?`, `text?` — the code points inside a string, and the text that they spell.
* `tokens?` — the tokens of a text; none where something is no token.
-/

/-- A token. -/
inductive Token where
  | openArray
  | closeArray
  | openObject
  | closeObject
  | comma
  | colon
  | null
  | bool (b : Bool)
  | number (n : Number)
  /-- A string; none if an escape in it stands for half of a character. -/
  | string (s : Option String)

/-! ### Numbers -/

/-- Whether a character may stand in a number. -/
def inNumber (c : Char) : Bool :=
  c.isDigit || c = '-' || c = '+' || c = '.' || c = 'e' || c = 'E'

/-- The value of decimal digits. -/
def digitsValue (cs : List Char) : Nat :=
  cs.foldl (fun n c => n * 10 + (c.toNat - 48)) 0

/-- Whether the characters are an exponent, or nothing. -/
def isExponent : List Char → Bool
  | [] => true
  | c :: cs =>
    (c = 'e' || c = 'E') &&
      let digits := match cs with
        | '+' :: r => r
        | '-' :: r => r
        | r => r
      !digits.isEmpty && digits.all Char.isDigit

/-- Whether the characters are a fraction, an exponent, both in this order, or nothing. -/
def isTail : List Char → Bool
  | '.' :: cs =>
    let digits := cs.takeWhile Char.isDigit
    !digits.isEmpty && isExponent (cs.dropWhile Char.isDigit)
  | cs => isExponent cs

/-- The number of a literal. -/
def number? (cs : List Char) : Option Number :=
  let negative := cs.head? = some '-'
  let unsigned := if negative then cs.drop 1 else cs
  let digits := unsigned.takeWhile Char.isDigit
  let tail := unsigned.dropWhile Char.isDigit
  if digits.isEmpty || (1 < digits.length && digits.head? = some '0') || !isTail tail then none
  else if !tail.isEmpty then some (.literal (String.ofList cs))
  else
    let n := digitsValue digits
    if !negative then some (.int n)
    else if n = 0 then some (.literal (String.ofList cs))
    else some (.int (-n))

/-! ### Strings -/

/-- The value of a hexadecimal digit. -/
def hexValue? (c : Char) : Option Nat :=
  let n := c.toNat
  if 48 ≤ n ∧ n ≤ 57 then some (n - 48)
  else if 65 ≤ n ∧ n ≤ 70 then some (n - 55)
  else if 97 ≤ n ∧ n ≤ 102 then some (n - 87)
  else none

/-- The code point that an escape of one character stands for. -/
def escape? (c : Char) : Option Nat :=
  match c with
  | '"' => some 0x22
  | '\\' => some 0x5C
  | '/' => some 0x2F
  | 'b' => some 0x8
  | 'f' => some 0xC
  | 'n' => some 0xA
  | 'r' => some 0xD
  | 't' => some 0x9
  | _ => none

/-- The code points of a string up to its closing quote, and what follows the quote. -/
def codes? : List Char → Option (List Nat × List Char)
  | [] => none
  | '"' :: cs => some ([], cs)
  | '\\' :: 'u' :: a :: b :: c :: d :: cs => do
    let n := (← hexValue? a) * 4096 + (← hexValue? b) * 256 + (← hexValue? c) * 16 + (← hexValue? d)
    let (codes, rest) ← codes? cs
    return (n :: codes, rest)
  | '\\' :: c :: cs => do
    let n ← escape? c
    let (codes, rest) ← codes? cs
    return (n :: codes, rest)
  | c :: cs =>
    if c = '\\' || c.toNat < 0x20 then none
    else do
      let (codes, rest) ← codes? cs
      return (c.toNat :: codes, rest)

/-- Whether a code is the first half of a character. -/
def isHigh (n : Nat) : Bool := 0xD800 ≤ n && n ≤ 0xDBFF

/-- Whether a code is the second half of a character. -/
def isLow (n : Nat) : Bool := 0xDC00 ≤ n && n ≤ 0xDFFF

/-- The characters of code points; two halves side by side are one character, and no half may
    stand alone. -/
def characters? : List Nat → Option (List Char)
  | [] => some []
  | [n] => if isHigh n || isLow n then none else some [Char.ofNat n]
  | n :: m :: codes =>
    if isHigh n then
      if isLow m then
        (characters? codes).map (Char.ofNat (0x10000 + (n - 0xD800) * 0x400 + (m - 0xDC00)) :: ·)
      else none
    else if isLow n then none
    else (characters? (m :: codes)).map (Char.ofNat n :: ·)

/-- The text of code points. -/
def text? (codes : List Nat) : Option String :=
  (characters? codes).map String.ofList

theorem codes?_length {cs : List Char} {codes : List Nat} {rest : List Char}
    (h : codes? cs = some (codes, rest)) : rest.length < cs.length := by
  fun_induction codes? cs generalizing codes rest with
  | case1 => simp at h
  | case2 cs => simp only [Option.some.injEq, Prod.mk.injEq] at h; simp [h.2]
  | case3 a b c d cs ih =>
    simp only [Option.bind_eq_bind, Option.bind_eq_some_iff, Option.pure_def,
      Option.some.injEq, Prod.mk.injEq] at h
    obtain ⟨_, -, _, -, _, -, _, -, ⟨_, _⟩, hp, -, rfl⟩ := h
    have := ih hp
    simp only [List.length_cons]
    omega
  | case4 c cs _ ih =>
    simp only [Option.bind_eq_bind, Option.bind_eq_some_iff, Option.pure_def,
      Option.some.injEq, Prod.mk.injEq] at h
    obtain ⟨_, -, ⟨_, _⟩, hp, -, rfl⟩ := h
    have := ih hp
    simp only [List.length_cons]
    omega
  | case5 => simp at h
  | case6 c cs _ _ _ _ ih =>
    simp only [Option.bind_eq_bind, Option.bind_eq_some_iff, Option.pure_def,
      Option.some.injEq, Prod.mk.injEq] at h
    obtain ⟨⟨_, _⟩, hp, -, rfl⟩ := h
    have := ih hp
    simp only [List.length_cons]
    omega

/-! ### Texts -/

/-- Whether a character may stand between tokens. -/
def isSpace (c : Char) : Bool :=
  c = ' ' || c = '\n' || c = '\t' || c = '\r'

/-- The token that a text starts with, where the text starts with no space. -/
def token? : List Char → Option (Token × List Char)
  | '[' :: cs => some (.openArray, cs)
  | ']' :: cs => some (.closeArray, cs)
  | '\x7b' :: cs => some (.openObject, cs)
  | '\x7d' :: cs => some (.closeObject, cs)
  | ',' :: cs => some (.comma, cs)
  | ':' :: cs => some (.colon, cs)
  | 'n' :: 'u' :: 'l' :: 'l' :: cs => some (.null, cs)
  | 't' :: 'r' :: 'u' :: 'e' :: cs => some (.bool true, cs)
  | 'f' :: 'a' :: 'l' :: 's' :: 'e' :: cs => some (.bool false, cs)
  | '"' :: cs => (codes? cs).map fun (codes, rest) => (.string (text? codes), rest)
  | c :: cs =>
    if inNumber c then
      (number? (c :: cs.takeWhile inNumber)).map fun n => (.number n, cs.dropWhile inNumber)
    else none
  | [] => none

theorem length_dropWhile_le (p : Char → Bool) (cs : List Char) :
    (cs.dropWhile p).length ≤ cs.length :=
  (List.dropWhile_sublist p).length_le

theorem token?_length {cs : List Char} {t : Token} {rest : List Char}
    (h : token? cs = some (t, rest)) : rest.length < cs.length := by
  unfold token? at h
  split at h
  all_goals first
    | (simp only [Option.some.injEq, Prod.mk.injEq] at h
       obtain ⟨-, rfl⟩ := h
       simp only [List.length_cons]
       omega)
    | skip
  · simp only [Option.map_eq_some_iff, Prod.mk.injEq] at h
    obtain ⟨⟨codes, r⟩, hp, -, rfl⟩ := h
    exact Nat.lt_succ_of_lt (codes?_length hp)
  · split at h
    · simp only [Option.map_eq_some_iff, Prod.mk.injEq] at h
      obtain ⟨_, -, -, rfl⟩ := h
      exact Nat.lt_succ_of_le (length_dropWhile_le _ _)
    · simp at h
  · simp at h

/-- The tokens of a text. -/
def tokens? (cs : List Char) : Option (List Token) :=
  let start := cs.dropWhile isSpace
  if start.isEmpty then some []
  else
    match h : token? start with
    | none => none
    | some (t, rest) =>
      have : rest.length < cs.length :=
        Nat.lt_of_lt_of_le (token?_length h) (length_dropWhile_le _ _)
      (tokens? rest).map (t :: ·)
termination_by cs.length

end Outbox.Json
