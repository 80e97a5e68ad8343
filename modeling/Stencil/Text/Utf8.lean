import Stencil.Text.Quoted

/-!
# UTF-8

`Text.encode` writes a text as bytes and refuses halves of surrogate pairs;
`Text.decode` reads bytes and says where and why it stops.  Overlong forms,
encoded surrogates and numbers past the last code point are no valid input.
-/

namespace Stencil

abbrev Bytes := List UInt8

/-- The run of surrogate halves at which encoding stops. -/
structure EncodeError where
  start : Nat
  length : Nat
  first : CodePoint
  deriving DecidableEq, Repr

namespace EncodeError

def message (e : EncodeError) : Text :=
  if e.length = 1 then
    ("'utf-8' codec can't encode character '" : Text) ++ e.first.numericEscape ++
      ("' in position " : Text) ++ Text.ofNat e.start ++ (": surrogates not allowed" : Text)
  else
    ("'utf-8' codec can't encode characters in position " : Text) ++ Text.ofNat e.start ++
      ("-" : Text) ++ Text.ofNat (e.start + e.length - 1) ++ (": surrogates not allowed" : Text)

end EncodeError

inductive DecodeReason where
  | invalidStart
  | invalidContinuation
  | unexpectedEnd
  deriving DecidableEq, Repr

/-- The bytes at which decoding stops. -/
structure DecodeError where
  start : Nat
  length : Nat
  first : UInt8
  reason : DecodeReason
  deriving DecidableEq, Repr

namespace DecodeError

def reasonText : DecodeReason → Text
  | .invalidStart => "invalid start byte"
  | .invalidContinuation => "invalid continuation byte"
  | .unexpectedEnd => "unexpected end of data"

def message (e : DecodeError) : Text :=
  let place : Text :=
    if e.length = 1 then
      ("byte 0x" : Text) ++ Text.ofNatIn 16 2 e.first.toNat ++ (" in position " : Text) ++
        Text.ofNat e.start
    else
      ("bytes in position " : Text) ++ Text.ofNat e.start ++ ("-" : Text) ++
        Text.ofNat (e.start + e.length - 1)
  ("'utf-8' codec can't decode " : Text) ++ place ++ (": " : Text) ++ reasonText e.reason

end DecodeError

/-! ## Encoding -/

namespace CodePoint

def isSurrogate : CodePoint → Bool
  | .scalar _ => false
  | .surrogate _ => true

/-- The bytes of a code point by the general pattern, for surrogates too. -/
def utf8 (c : CodePoint) : Bytes :=
  let code := c.toNat
  let tail (shift : Nat) : UInt8 := UInt8.ofNat (0x80 + (code >>> shift) % 0x40)
  if code < 0x80 then [UInt8.ofNat code]
  else if code < 0x800 then [UInt8.ofNat (0xC0 + (code >>> 6)), tail 0]
  else if code < 0x10000 then [UInt8.ofNat (0xE0 + (code >>> 12)), tail 6, tail 0]
  else [UInt8.ofNat (0xF0 + (code >>> 18)), tail 12, tail 6, tail 0]

end CodePoint

namespace Text

def encode (text : Text) : Except EncodeError Bytes :=
  match text.dropWhile (!·.isSurrogate) with
  | [] => .ok (text.flatMap CodePoint.utf8)
  | first :: rest =>
      .error ⟨(text.takeWhile (!·.isSurrogate)).length,
        (rest.takeWhile CodePoint.isSurrogate).length + 1, first⟩

/-- The number of bytes of a text. -/
def byteLength (text : Text) : Nat := text.foldl (fun count c => count + c.utf8.length) 0

/-! ## Decoding -/

def isTail (byte : UInt8) : Bool := 0x80 ≤ byte && byte < 0xC0

/-- Whether a second byte may follow the first byte of a sequence. -/
def secondFits (first second : UInt8) : Bool :=
  isTail second &&
    !(first = 0xE0 && second < 0xA0) && !(first = 0xED && 0xA0 ≤ second) &&
    !(first = 0xF0 && second < 0x90) && !(first = 0xF4 && 0x90 ≤ second)

def joined (first : Nat) (tails : List UInt8) : CodePoint :=
  .ofNat (tails.foldl (fun code byte => code * 0x40 + (byte.toNat - 0x80)) first)

/-- What is wrong with the sequence at the front of `bytes`, and how long the fault is. -/
private def fault (bytes : Bytes) : DecodeReason × Nat :=
  match bytes with
  | [] => (.unexpectedEnd, 0)
  | first :: rest =>
      if first < 0xC2 ∨ 0xF5 ≤ first then (.invalidStart, 1)
      else
        match rest with
        | [] => (.unexpectedEnd, 1)
        | second :: rest =>
            if !secondFits first second then (.invalidContinuation, 1)
            else
              match rest with
              | [] => (.unexpectedEnd, 2)
              | third :: rest =>
                  if !isTail third then (.invalidContinuation, 2)
                  else if rest.isEmpty then (.unexpectedEnd, 3)
                  else (.invalidContinuation, 3)

def decodeFrom (position : Nat) : Bytes → Except DecodeError Text
  | [] => .ok []
  | a :: rest =>
      if a < 0x80 then (CodePoint.ofNat a.toNat :: ·) <$> decodeFrom (position + 1) rest
      else
        let stop (bytes : Bytes) : Except DecodeError Text :=
          let (reason, length) := fault bytes
          .error ⟨position, length, a, reason⟩
        if 0xC2 ≤ a ∧ a < 0xE0 then
          match rest with
          | b :: after =>
              if secondFits a b then
                (joined (a.toNat - 0xC0) [b] :: ·) <$> decodeFrom (position + 2) after
              else stop (a :: b :: after)
          | [] => stop [a]
        else if 0xE0 ≤ a ∧ a < 0xF0 then
          match rest with
          | b :: c :: after =>
              if secondFits a b && isTail c then
                (joined (a.toNat - 0xE0) [b, c] :: ·) <$> decodeFrom (position + 3) after
              else stop (a :: b :: c :: after)
          | short => stop (a :: short)
        else if 0xF0 ≤ a ∧ a < 0xF5 then
          match rest with
          | b :: c :: d :: after =>
              if secondFits a b && isTail c && isTail d then
                (joined (a.toNat - 0xF0) [b, c, d] :: ·) <$> decodeFrom (position + 4) after
              else stop (a :: b :: c :: d :: after)
          | short => stop (a :: short)
        else stop (a :: rest)

def decode (bytes : Bytes) : Except DecodeError Text := decodeFrom 0 bytes

end Text

end Stencil
