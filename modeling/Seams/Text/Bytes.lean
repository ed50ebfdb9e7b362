/-! # Byte strings
Sources, tokens and files are byte strings: nothing promises that a file is well-formed UTF-8.
Main definitions:
* **`Bytes`** — a packed byte string;
* **`Bytes.byteAt`** — the byte at an index, zero past the end;
* **`Bytes.decodeAt`** — the character that starts at an index, if one does;
* **`Bytes.text?`** — the text of a byte string that is well-formed UTF-8;
* **`Bytes.lossyText`** — the text of any byte string, with ill-formed parts replaced. -/

namespace Seams

/-- A byte string. -/
abbrev Bytes := ByteArray

/-- Byte strings are equal if their bytes are. -/
instance Bytes.decidableEq : DecidableEq Bytes := ByteArray.instDecidableEq

/-- The UTF-8 encoding of a text. -/
def bytesOf (s : String) : Bytes := s.toUTF8

namespace Bytes

/-- The byte at index `i`, and zero past the end. -/
def byteAt (b : Bytes) (i : Nat) : UInt8 :=
  if h : i < b.size then b[i] else 0

theorem byteAt_of_lt (b : Bytes) (i : Nat) (h : i < b.size) : b.byteAt i = b[i] := by
  simp [byteAt, h]

theorem byteAt_of_ge (b : Bytes) (i : Nat) (h : b.size ≤ i) : b.byteAt i = 0 := by
  have : ¬ i < b.size := by omega
  simp [byteAt, this]

/-- The part from `start` up to `stop`. -/
def slice (b : Bytes) (start stop : Nat) : Bytes := b.extract start stop

/-- Whether the bytes of `w` stand at index `i`. -/
def startsAt (b w : Bytes) (i : Nat) : Bool := b.slice i (i + w.size) == w

/-- ASCII letters in lower case; every other byte as it is. -/
def lowerByte (c : UInt8) : UInt8 := if 0x41 ≤ c && c ≤ 0x5a then c + 0x20 else c

/-- The byte string with its ASCII letters in lower case. -/
def lower (b : Bytes) : Bytes := ⟨b.data.map lowerByte⟩

/-- Equality up to the case of ASCII letters. -/
def sameIgnoringCase (a b : Bytes) : Bool := a.lower == b.lower

/-! ## Characters -/

/-- Whether `c` continues a character that began earlier. -/
def isContinuation (c : UInt8) : Bool := 0x80 ≤ c && c < 0xc0

/-- The six payload bits of a continuation byte. -/
def payload (c : UInt8) : Nat := c.toNat % 64

/-- The code point and the length in bytes of the character at index `i`. There is none past the
end, and none where the bytes are ill-formed: stray continuations, overlong forms, surrogates and
code points above U+10FFFF. -/
def decodeAt (b : Bytes) (i : Nat) : Option (Nat × Nat) :=
  if i < b.size then
    let c := b.byteAt i
    let c1 := b.byteAt (i + 1)
    let c2 := b.byteAt (i + 2)
    let c3 := b.byteAt (i + 3)
    if c < 0x80 then some (c.toNat, 1)
    -- Continuations cannot start a character, and C0 and C1 would start overlong forms.
    else if c < 0xc2 then none
    else if c < 0xe0 then
      if isContinuation c1 then some (c.toNat % 32 * 64 + payload c1, 2) else none
    else if c < 0xf0 then
      if isContinuation c1 && isContinuation c2
          -- E0 with a low second byte is overlong, and ED with a high one a surrogate.
          && !(c == 0xe0 && c1 < 0xa0) && !(c == 0xed && 0xa0 ≤ c1) then
        some ((c.toNat % 16 * 64 + payload c1) * 64 + payload c2, 3)
      else none
    else if c < 0xf5 then
      if isContinuation c1 && isContinuation c2 && isContinuation c3
          -- F0 with a low second byte is overlong, and F4 with a high one too large.
          && !(c == 0xf0 && c1 < 0x90) && !(c == 0xf4 && 0x90 ≤ c1) then
        some (((c.toNat % 8 * 64 + payload c1) * 64 + payload c2) * 64 + payload c3, 4)
      else none
    else none
  else none

/-- The text of a byte string, if it is well-formed UTF-8. -/
def text? (b : Bytes) : Option String := String.fromUTF8? b

/-- How many bytes one replacement character stands for at index `i`, where no character starts:
the longest beginning of a well-formed character, and one byte at least. -/
def illFormedLength (b : Bytes) (i : Nat) : Nat :=
  let c := b.byteAt i
  let c1 := b.byteAt (i + 1)
  let c2 := b.byteAt (i + 2)
  let second : Bool :=
    if 0xe0 ≤ c && c < 0xf0 then
      isContinuation c1 && !(c == 0xe0 && c1 < 0xa0) && !(c == 0xed && 0xa0 ≤ c1)
    else if 0xf0 ≤ c && c < 0xf5 then
      isContinuation c1 && !(c == 0xf0 && c1 < 0x90) && !(c == 0xf4 && 0x90 ≤ c1)
    else false
  1 + (if second && i + 1 < b.size then
    if 0xf0 ≤ c && isContinuation c2 && i + 2 < b.size then 2 else 1
  else 0)

theorem illFormedLength_pos (b : Bytes) (i : Nat) : 0 < b.illFormedLength i := by
  unfold illFormedLength
  exact Nat.lt_of_lt_of_le Nat.zero_lt_one (Nat.le_add_right _ _)

/-- The characters from index `i` on, each ill-formed part as one U+FFFD. -/
def lossyChars (b : Bytes) (i : Nat) : List Char :=
  if _h : i < b.size then
    match b.decodeAt i with
    | some (cp, n) => Char.ofNat cp :: lossyChars b (i + max n 1)
    | none =>
      have := illFormedLength_pos b i
      Char.ofNat 0xfffd :: lossyChars b (i + b.illFormedLength i)
  else []
termination_by b.size - i
decreasing_by all_goals omega

/-- The text of any byte string, each ill-formed part as one U+FFFD. -/
def lossyText (b : Bytes) : String := String.ofList (b.lossyChars 0)

end Bytes

end Seams
