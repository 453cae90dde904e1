import SplitTest.Digest.Sha256
import SplitTest.Text.Utf8

/-
  Buckets: every key falls into one of a hundred, decided by its SHA-256 digest alone.
  The first four digest bytes are read as a signed number, the least significant byte first;
  its absolute value modulo 100 is the bucket.
-/

namespace SplitTest

-- The powers here are those of whole numbers, whichever library stands behind `^`.
attribute [local instance (high)] instPowNat

/-- One of the hundred buckets that traffic is split into. -/
abbrev Bucket := Fin 100

namespace Bucket

/-- The number of values of four bytes. -/
def words : Nat := 2 ^ (32 : Nat)

/-- Four bytes as one number, the least significant first. -/
def wordOf (b0 b1 b2 b3 : UInt8) : Nat :=
  b0.toNat + 256 * b1.toNat + 65536 * b2.toNat + 16777216 * b3.toNat

/-- A 32-bit number read in two's complement. -/
def signed (word : Nat) : Int :=
  if word < 2 ^ (31 : Nat) then word else (word : Int) - 2 ^ (32 : Nat)

/-- The bucket of a 32-bit number: the remainder of its absolute value. -/
def ofWord (word : Nat) : Bucket :=
  ⟨(signed word).natAbs % 100, Nat.mod_lt _ (by decide)⟩

/-- The number that the first four bytes of a digest spell. -/
def leadingWord : List UInt8 → Nat
  | b0 :: b1 :: b2 :: b3 :: _ => wordOf b0 b1 b2 b3
  | _ => 0

/-- The bucket of a key. -/
def ofKey (key : String) : Bucket :=
  ofWord (leadingWord (Digest.Sha256.digest (Text.utf8 key)))

theorem wordOf_lt (b0 b1 b2 b3 : UInt8) : wordOf b0 b1 b2 b3 < words := by
  have h0 := b0.toNat_lt
  have h1 := b1.toNat_lt
  have h2 := b2.toNat_lt
  have h3 := b3.toNat_lt
  simp only [wordOf, words]
  omega

end Bucket

end SplitTest
