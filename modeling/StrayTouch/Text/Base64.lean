/-!
Bytes written with sixty-four characters, six bits each. Other characters do not count, and a
padding that completes a group of four ends the text.
-/
namespace StrayTouch.Text

def sixBits? (c : Char) : Option Nat :=
  if 'A' ≤ c ∧ c ≤ 'Z' then some (c.toNat - 65)
  else if 'a' ≤ c ∧ c ≤ 'z' then some (c.toNat - 71)
  else if '0' ≤ c ∧ c ≤ '9' then some (c.toNat + 4)
  else if c == '+' then some 62
  else if c == '/' then some 63
  else none

/-- The reading of a group of four: how many characters of it have been read, the bits that are
no byte yet, how many paddings stand after them, and the bytes so far, latest first. -/
structure SixBitReader where
  count : Nat
  pending : Nat
  paddings : Nat
  bytes : List Nat

namespace SixBitReader

def start : SixBitReader :=
  ⟨0, 0, 0, []⟩

/-- Six more bits. Each of them but the first of a group completes a byte. -/
def take (r : SixBitReader) (bits : Nat) : SixBitReader :=
  match r.count with
  | 0 => ⟨1, bits, 0, r.bytes⟩
  | 1 => ⟨2, bits % 16, 0, (r.pending * 4 + bits / 16) :: r.bytes⟩
  | 2 => ⟨3, bits % 4, 0, (r.pending * 16 + bits / 4) :: r.bytes⟩
  | _ => ⟨0, 0, 0, (r.pending * 64 + bits) :: r.bytes⟩

/-- The bytes of a text. A group that is left incomplete makes it no such text. -/
def read (r : SixBitReader) : List Char → Option (List Nat)
  | [] => if r.count == 0 then some r.bytes.reverse else none
  | '=' :: rest =>
    if r.count < 2 then r.read rest
    else if 4 ≤ r.count + r.paddings + 1 then some r.bytes.reverse
    else SixBitReader.read { r with paddings := r.paddings + 1 } rest
  | c :: rest =>
    match sixBits? c with
    | some bits => (r.take bits).read rest
    | none => r.read rest

end SixBitReader

def readBase64? (cs : List Char) : Option (List Nat) :=
  SixBitReader.start.read cs

end StrayTouch.Text
