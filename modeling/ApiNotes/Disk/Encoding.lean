import ApiNotes.Text.Basic

/-!
# Bytes and text

The bytes of a file are UTF-8 or, if any part of them is not, one character to a byte. Line
ends of two kinds are read as a line feed: a carriage return, and a carriage return with a
line feed.
-/

namespace ApiNotes.Encoding

/-- The first bytes of a character of several bytes, from `low` to `high`: what they add to its
code point, the least and greatest byte that may come second, and how many bytes follow the
second one. -/
structure LeadRange where
  low : Nat
  high : Nat
  base : Nat
  secondLow : Nat
  secondHigh : Nat
  more : Nat

/-- The ranges of first bytes. Second bytes that would spell a code point in too many bytes, a
surrogate or anything above U+10FFFF are left out. -/
def leadRanges : List LeadRange :=
  [⟨0xC2, 0xDF, 0xC0, 0x80, 0xBF, 0⟩, ⟨0xE0, 0xE0, 0xE0, 0xA0, 0xBF, 1⟩,
    ⟨0xE1, 0xEC, 0xE0, 0x80, 0xBF, 1⟩, ⟨0xED, 0xED, 0xE0, 0x80, 0x9F, 1⟩,
    ⟨0xEE, 0xEF, 0xE0, 0x80, 0xBF, 1⟩, ⟨0xF0, 0xF0, 0xF0, 0x90, 0xBF, 2⟩,
    ⟨0xF1, 0xF3, 0xF0, 0x80, 0xBF, 2⟩, ⟨0xF4, 0xF4, 0xF0, 0x80, 0x8F, 2⟩]

/-- A character that is not complete: the value so far, the least and greatest byte that may
come next, and how many bytes follow that one. -/
structure Pending where
  value : Nat
  low : Nat
  high : Nat
  more : Nat

/-- The first byte of a character: the character, or what is pending after it. -/
def lead? (byte : Nat) : Option (Char ⊕ Pending) :=
  if byte < 0x80 then some (.inl (Char.ofNat byte))
  else
    (leadRanges.find? fun range => range.low ≤ byte && byte ≤ range.high).map fun range =>
      .inr ⟨byte - range.base, range.secondLow, range.secondHigh, range.more⟩

/-- A later byte of a character. -/
def continue? (pending : Pending) (byte : Nat) : Option (Char ⊕ Pending) :=
  if pending.low ≤ byte && byte ≤ pending.high then
    let value := pending.value * 64 + (byte - 0x80)
    match pending.more with
    | 0 => some (.inl (Char.ofNat value))
    | more + 1 => some (.inr ⟨value, 0x80, 0xBF, more⟩)
  else none

/-- The characters that UTF-8 bytes spell, after those in `read`, the last of which comes
first. -/
def utf8From (read : Text) (pending : Option Pending) : List UInt8 → Option Text
  | [] => if pending.isNone then some read.reverse else none
  | byte :: bytes =>
    match (match pending with
      | some pending => continue? pending byte.toNat
      | none => lead? byte.toNat) with
    | some (.inl c) => utf8From (c :: read) none bytes
    | some (.inr pending) => utf8From read (some pending) bytes
    | none => none

def utf8? (bytes : List UInt8) : Option Text := utf8From [] none bytes

/-- The text that bytes spell with one character to a byte. -/
def latin1 (bytes : List UInt8) : Text := bytes.map fun byte => Char.ofNat byte.toNat

/-- The rest of a text with its line ends unified, after the characters in `read`, the last of
which comes first; a line feed right after a carriage return is not another line end. -/
def unifyFrom (read : Text) (afterReturn : Bool) : Text → Text
  | [] => read.reverse
  | c :: rest =>
    if c = '\n' && afterReturn then unifyFrom read false rest
    else unifyFrom ((if c = '\r' then '\n' else c) :: read) (c = '\r') rest

def unifyLineEnds (text : Text) : Text := unifyFrom [] false text

def decode (bytes : List UInt8) : Text := unifyLineEnds ((utf8? bytes).getD (latin1 bytes))

end ApiNotes.Encoding
