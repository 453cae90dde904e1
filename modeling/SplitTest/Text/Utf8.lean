/-
  UTF-8: the bytes of a text, and a decoder that never fails.
  `decodeLossy` puts U+FFFD in the place of each longest sequence that could still have become a
  character, so a broken sequence never swallows the bytes after it.
-/

namespace SplitTest.Text

/-- The bytes of a text. -/
def utf8 (s : String) : List UInt8 :=
  s.toList.flatMap String.utf8EncodeChar

/-- The character that stands for undecodable bytes. -/
def replacement : Char := '\ufffd'

/-- A character whose first bytes have been read. -/
structure Pending where
  /-- The bits collected so far. -/
  bits : Nat
  /-- How many bytes are still to come, less one. -/
  more : Nat
  /-- The least byte that may come next. -/
  least : UInt8
  /-- The greatest byte that may come next. -/
  greatest : UInt8

/-- What a first byte announces: a whole character, a pending one, or nothing valid. -/
def firstByte (b : UInt8) : List Char × Option Pending :=
  if b < 0x80 then ([Char.ofNat b.toNat], none)
  else if b < 0xC2 then ([replacement], none)
  else if b < 0xE0 then ([], some ⟨b.toNat % 0x20, 0, 0x80, 0xBF⟩)
  else if b = 0xE0 then ([], some ⟨0, 1, 0xA0, 0xBF⟩)
  else if b = 0xED then ([], some ⟨0xD, 1, 0x80, 0x9F⟩)
  else if b < 0xF0 then ([], some ⟨b.toNat % 0x10, 1, 0x80, 0xBF⟩)
  else if b = 0xF0 then ([], some ⟨0, 2, 0x90, 0xBF⟩)
  else if b < 0xF4 then ([], some ⟨b.toNat % 0x08, 2, 0x80, 0xBF⟩)
  else if b = 0xF4 then ([], some ⟨4, 2, 0x80, 0x8F⟩)
  else ([replacement], none)

/-- One byte: the characters it completes and what is pending after it. -/
def nextByte (pending : Option Pending) (b : UInt8) : List Char × Option Pending :=
  match pending with
  | none => firstByte b
  | some p =>
    if p.least ≤ b && b ≤ p.greatest then
      let bits := p.bits * 64 + b.toNat % 64
      match p.more with
      | 0 => ([Char.ofNat bits], none)
      | more + 1 => ([], some ⟨bits, more, 0x80, 0xBF⟩)
    else
      let (chars, pending) := firstByte b
      (replacement :: chars, pending)

/-- Decodes bytes after a pending start. -/
def decodeFrom (pending : Option Pending) : List UInt8 → List Char
  | [] => if pending.isSome then [replacement] else []
  | b :: bytes =>
    let (chars, pending) := nextByte pending b
    chars ++ decodeFrom pending bytes

/-- Decodes bytes as UTF-8, each broken sequence as one replacement character. -/
def decodeLossy (bytes : List UInt8) : List Char :=
  decodeFrom none bytes

-- A surrogate is broken at its second byte, a start that is cut short is one broken sequence.
example : decodeLossy [0xED, 0xA0, 0x80] = [replacement, replacement, replacement] := rfl
example : decodeLossy [0xF0, 0x9F, 0x98] = [replacement] := rfl

end SplitTest.Text
