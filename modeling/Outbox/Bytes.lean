namespace Outbox

/-!
# Byte strings

* `Bytes` — a byte string, compared byte by byte and a shorter one before its extensions.
* `be16`, `be32` — numbers as two and four bytes, the most significant first.
* `ofBE` — the number that such bytes denote.
-/

/-- A byte string. -/
abbrev Bytes := List UInt8

/-- The two bytes of a number below `2 ^ 16`, most significant first. -/
def be16 (n : Nat) : Bytes :=
  [UInt8.ofNat (n / 256), UInt8.ofNat n]

/-- The four bytes of a number below `2 ^ 32`, most significant first. -/
def be32 (n : Nat) : Bytes :=
  [UInt8.ofNat (n / 16777216), UInt8.ofNat (n / 65536), UInt8.ofNat (n / 256), UInt8.ofNat n]

/-- The number that bytes denote, most significant first. -/
def ofBE (b : Bytes) : Nat :=
  b.foldl (fun n x => n * 256 + x.toNat) 0

@[simp] theorem length_be16 (n : Nat) : (be16 n).length = 2 := rfl

@[simp] theorem length_be32 (n : Nat) : (be32 n).length = 4 := rfl

theorem ofBE_be16 {n : Nat} (h : n < 65536) : ofBE (be16 n) = n := by
  simp only [ofBE, be16, List.foldl_cons, List.foldl_nil, UInt8.toNat_ofNat']
  omega

theorem ofBE_be32 {n : Nat} (h : n < 4294967296) : ofBE (be32 n) = n := by
  simp only [ofBE, be32, List.foldl_cons, List.foldl_nil, UInt8.toNat_ofNat']
  omega

end Outbox
