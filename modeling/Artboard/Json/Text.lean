/-! # Texts that are read

A text to be read is a list of glyphs: characters, and single bytes that belong to no character.
Positions count bytes.

* `Text.ofString`, `Text.ofBytes`: the glyphs of a string and of any sequence of bytes.
* `Text.size`: the number of bytes.
* `Text.position`: line and column after so many bytes. -/

namespace Artboard.Json

/-- A character, or a byte that is not part of one. -/
inductive Glyph
  | char (c : Char)
  | stray (byte : UInt8)
  deriving DecidableEq, Repr, Inhabited

/-- The number of bytes of a glyph. -/
def Glyph.size : Glyph → Nat
  | .char c => c.utf8Size
  | .stray _ => 1

/-- A text that is read, or what is left of it. -/
abbrev Text := List Glyph

namespace Text

/-- The number of bytes of a text. -/
def size : Text → Nat
  | [] => 0
  | g :: rest => g.size + size rest

/-- The glyphs of a string. -/
def ofString (s : String) : Text := s.toList.map .char

/-- Whether a byte continues a character. -/
def isContinuation (b : UInt8) : Bool := 0x80 ≤ b && b ≤ 0xbf

/-- The payload of a continuation byte. -/
def payload (b : UInt8) : Nat := b.toNat % 0x40

/-- The character at the front of some bytes with the number of its bytes; overlong forms and
surrogates are none. -/
def charAt? : List UInt8 → Option (Char × Nat)
  | [] => none
  | a :: rest =>
    if a < 0x80 then some (Char.ofNat a.toNat, 1)
    else match rest with
      | [] => none
      | b :: rest =>
        if !isContinuation b then none
        else if 0xc2 ≤ a && a ≤ 0xdf then
          some (Char.ofNat (a.toNat % 0x20 * 0x40 + payload b), 2)
        else match rest with
          | [] => none
          | c :: rest =>
            if !isContinuation c then none
            else if 0xe0 ≤ a && a ≤ 0xef then
              if (a = 0xe0 && b < 0xa0) || (a = 0xed && 0x9f < b) then none
              else some (Char.ofNat ((a.toNat % 0x10 * 0x40 + payload b) * 0x40 + payload c), 3)
            else match rest with
              | [] => none
              | d :: _ =>
                if !isContinuation d then none
                else if 0xf0 ≤ a && a ≤ 0xf4 then
                  if (a = 0xf0 && b < 0x90) || (a = 0xf4 && 0x8f < b) then none
                  else some (Char.ofNat
                    (((a.toNat % 8 * 0x40 + payload b) * 0x40 + payload c) * 0x40 + payload d), 4)
                else none

/-- The glyphs of some bytes. The steps bound the glyphs; there are no more than bytes. -/
def cut : Nat → List UInt8 → Text
  | 0, _ => []
  | _, [] => []
  | steps + 1, a :: rest =>
    match charAt? (a :: rest) with
    | some (c, n) => .char c :: cut steps (rest.drop (n - 1))
    | none => .stray a :: cut steps rest

/-- The glyphs of a sequence of bytes. -/
def ofBytes (bytes : ByteArray) : Text := cut bytes.size bytes.toList

/-- Whether every glyph is a character. -/
def isValid (text : Text) : Bool :=
  text.all fun
    | .char _ => true
    | .stray _ => false

/-- Whether a glyph is a blank between tokens. -/
def isBlank (g : Glyph) : Bool :=
  g = .char ' ' || g = .char '\n' || g = .char '\t' || g = .char '\r'

/-- The text without the blanks at its front. -/
def skipBlank (text : Text) : Text := text.dropWhile isBlank

end Text

/-- A place in a text: lines count from one, columns are the bytes of the line before it. -/
structure Position where
  line : Nat
  column : Nat
  deriving DecidableEq, Repr

/-- The position a number of bytes further on in a text. -/
def Position.advance (p : Position) : Text → Nat → Position
  | [], _ => p
  | g :: rest, bytes =>
    if bytes = 0 then p
    else if g = .char '\n' then Position.advance ⟨p.line + 1, 0⟩ rest (bytes - 1)
    else Position.advance ⟨p.line, p.column + min g.size bytes⟩ rest (bytes - g.size)

/-- The position after a number of bytes of a text. -/
def Text.position (text : Text) (bytes : Nat) : Position := Position.advance ⟨1, 0⟩ text bytes

end Artboard.Json
