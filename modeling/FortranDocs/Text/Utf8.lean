import FortranDocs.Text.Basic

/-!
# UTF-8

`Utf8.encode` writes a text as bytes and `Utf8.decode` reads bytes as text.  A
refusal names the first byte that does not belong to a well-formed sequence, and
how many bytes there are to be given up before reading could go on.
-/

namespace FortranDocs
namespace Utf8

/-- Why bytes are no UTF-8 text. -/
structure Invalid where
  /-- The number of bytes in front of the malformed sequence. -/
  position : Nat
  /-- The length of the malformed sequence, or none if the bytes end inside a
  sequence that is well-formed so far. -/
  length : Option Nat
  deriving DecidableEq, Repr

namespace Invalid

/-- The wording of a refusal. -/
def message (invalid : Invalid) : String :=
  match invalid.length with
  | some length => s!"invalid utf-8 sequence of {length} bytes from index {invalid.position}"
  | none => s!"incomplete utf-8 byte sequence from index {invalid.position}"

end Invalid

/-- The bytes of a text. -/
def encode (text : Text) : List UInt8 :=
  text.flatMap String.utf8EncodeChar

/-- What a first byte announces: the bounds of the second byte and the number of
bytes behind the second. -/
structure Lead where
  /-- The least second byte. -/
  low : UInt8
  /-- The greatest second byte. -/
  high : UInt8
  /-- The number of bytes behind the second. -/
  more : Nat
  deriving DecidableEq, Repr

namespace Lead

/-- What a byte announces as the first of a sequence of several bytes.  The bounds
of the second byte shut out overlong forms, surrogates and code points beyond the
last one. -/
def ofByte? (byte : UInt8) : Option Lead :=
  if 0xC2 ≤ byte && byte ≤ 0xDF then some ⟨0x80, 0xBF, 0⟩
  else if byte == 0xE0 then some ⟨0xA0, 0xBF, 1⟩
  else if byte == 0xED then some ⟨0x80, 0x9F, 1⟩
  else if 0xE1 ≤ byte && byte ≤ 0xEF then some ⟨0x80, 0xBF, 1⟩
  else if byte == 0xF0 then some ⟨0x90, 0xBF, 2⟩
  else if 0xF1 ≤ byte && byte ≤ 0xF3 then some ⟨0x80, 0xBF, 2⟩
  else if byte == 0xF4 then some ⟨0x80, 0x8F, 2⟩
  else none

end Lead

/-- A byte that continues a sequence. -/
def isContinuation (byte : UInt8) : Bool :=
  0x80 ≤ byte && byte ≤ 0xBF

/-- The six bits that a continuation byte carries. -/
def payload (byte : UInt8) : Nat :=
  byte.toNat % 0x40

/-- Read bytes of which the first stands at a given position. -/
def decodeFrom (position : Nat) : List UInt8 -> Except Invalid Text
  | [] => .ok []
  | first :: rest =>
      if first < 0x80 then
        (decodeFrom (position + 1) rest).map (Char.ofNat first.toNat :: ·)
      else
        match Lead.ofByte? first, rest with
        | none, _ => .error ⟨position, some 1⟩
        | some _, [] => .error ⟨position, none⟩
        | some lead, second :: rest =>
            if second < lead.low || lead.high < second then
              .error ⟨position, some 1⟩
            else
              match lead.more, rest with
              | 0, rest =>
                  let code := first.toNat % 0x20 * 0x40 + payload second
                  (decodeFrom (position + 2) rest).map (Char.ofNat code :: ·)
              | _ + 1, [] => .error ⟨position, none⟩
              | 1, third :: rest =>
                  if isContinuation third then
                    let code :=
                      (first.toNat % 0x10 * 0x40 + payload second) * 0x40 + payload third
                    (decodeFrom (position + 3) rest).map (Char.ofNat code :: ·)
                  else
                    .error ⟨position, some 2⟩
              | _ + 2, third :: rest =>
                  if isContinuation third then
                    match rest with
                    | [] => .error ⟨position, none⟩
                    | fourth :: rest =>
                        if isContinuation fourth then
                          let code :=
                            ((first.toNat % 0x08 * 0x40 + payload second) * 0x40 +
                              payload third) * 0x40 + payload fourth
                          (decodeFrom (position + 4) rest).map (Char.ofNat code :: ·)
                        else
                          .error ⟨position, some 3⟩
                  else
                    .error ⟨position, some 2⟩

/-- Read bytes as text. -/
def decode (bytes : List UInt8) : Except Invalid Text :=
  decodeFrom 0 bytes

end Utf8
end FortranDocs
