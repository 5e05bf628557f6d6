/-!
# UTF-8

Octets are read as characters.  `symbols` never fails: an octet that is not part of a well-formed
sequence stands for itself as `none`, so that a reader may decide whether it matters where it
stands.  `decode?` succeeds when every symbol is a character.

A sequence is well formed when it is the shortest one for its code point, the code point is not a
surrogate, and it is at most `U+10FFFF`; all of this is decided by the first two octets.
-/

namespace DiceTable.Text.Utf8

/-- A character, or `none` for an octet outside every well-formed sequence. -/
abbrev Symbol := Option Char

/-- What the first octet of a sequence of several says: how many octets follow, the range of the
first of them, and the leading bits of the code point. -/
structure Lead where
  more : Nat
  low : Nat
  high : Nat
  bits : Nat

/-- The table of leading octets from `C2` to `F4`. -/
def lead? (b : Nat) : Option Lead :=
  if 0xC2 ≤ b ∧ b ≤ 0xDF then some ⟨1, 0x80, 0xBF, b - 0xC0⟩
  else if b = 0xE0 then some ⟨2, 0xA0, 0xBF, 0⟩
  else if b = 0xED then some ⟨2, 0x80, 0x9F, 0xD⟩
  else if 0xE1 ≤ b ∧ b ≤ 0xEF then some ⟨2, 0x80, 0xBF, b - 0xE0⟩
  else if b = 0xF0 then some ⟨3, 0x90, 0xBF, 0⟩
  else if 0xF1 ≤ b ∧ b ≤ 0xF3 then some ⟨3, 0x80, 0xBF, b - 0xF0⟩
  else if b = 0xF4 then some ⟨3, 0x80, 0x8F, 4⟩
  else none

/-- Reads `n` more octets onto the code point `bits`, the first of them in the range given. -/
def continue? : Nat → Nat → Nat → Nat → List UInt8 → Option Nat
  | 0, _, _, bits, _ => some bits
  | _ + 1, _, _, _, [] => none
  | n + 1, low, high, bits, b :: rest =>
    if low ≤ b.toNat ∧ b.toNat ≤ high then
      continue? n 0x80 0xBF (bits * 64 + (b.toNat - 0x80)) rest
    else none

/-- The sequence at the head of the octets: its symbol, and how many octets follow the first. -/
def head (b : UInt8) (rest : List UInt8) : Symbol × Nat :=
  if b.toNat < 0x80 then (some (Char.ofNat b.toNat), 0)
  else
    match lead? b.toNat with
    | none => (none, 0)
    | some l =>
      match continue? l.more l.low l.high l.bits rest with
      | none => (none, 0)
      | some n => (some (Char.ofNat n), l.more)

/-- The symbols of `octets`, when the first `skip` octets belong to a symbol already read. -/
def symbolsAfter : Nat → List UInt8 → List Symbol
  | _, [] => []
  | skip + 1, _ :: rest => symbolsAfter skip rest
  | 0, b :: rest => (head b rest).1 :: symbolsAfter (head b rest).2 rest

/-- The symbols of a run of octets. -/
def symbols (octets : List UInt8) : List Symbol := symbolsAfter 0 octets

/-- The characters of a run of octets that is well formed throughout. -/
def decode? (octets : List UInt8) : Option (List Char) := (symbols octets).mapM id

/-- The octets of a text. -/
def encode (cs : List Char) : List UInt8 := cs.flatMap String.utf8EncodeChar

end DiceTable.Text.Utf8
