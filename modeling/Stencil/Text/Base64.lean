import Stencil.Text.Utf8

/-!
# Base 64

Bytes as texts of 64 letters, four for every three bytes.  Reading is lenient:
code points that are no letters are passed over.
-/

namespace Stencil.Base64

def letters : List Char := "ABCDEFGHIJKLMNOPQRSTUVWXYZabcdefghijklmnopqrstuvwxyz0123456789+/".toList

def letter (n : Nat) : CodePoint := .scalar (letters.getD n '=')

def padding : CodePoint := .scalar '='

def encode : Bytes → Text
  | [] => []
  | [a] => [letter (a.toNat / 4), letter (a.toNat % 4 * 16), padding, padding]
  | [a, b] =>
      [letter (a.toNat / 4), letter (a.toNat % 4 * 16 + b.toNat / 16), letter (b.toNat % 16 * 4),
        padding]
  | a :: b :: c :: rest =>
      letter (a.toNat / 4) :: letter (a.toNat % 4 * 16 + b.toNat / 16) ::
        letter (b.toNat % 16 * 4 + c.toNat / 64) :: letter (c.toNat % 64) :: encode rest

def valueOf? (c : CodePoint) : Option Nat :=
  match c with
  | .scalar char => letters.idxOf? char
  | .surrogate _ => none

/-- Reads on after `held` letters whose last one has left `left` over. -/
private def decodeFrom (held left pads : Nat) : Text → Option Bytes
  | [] => if held = 0 then some [] else none
  | c :: text =>
      if c = padding then
        if held ≥ 2 ∧ held + pads + 1 ≥ 4 then some []
        else decodeFrom held left (if held ≥ 2 then pads + 1 else pads) text
      else
        match valueOf? c with
        | none => decodeFrom held left pads text
        | some n =>
            match held with
            | 0 => decodeFrom 1 n 0 text
            | 1 => (decodeFrom 2 (n % 16) 0 text).map (UInt8.ofNat (left * 4 + n / 16) :: ·)
            | 2 => (decodeFrom 3 (n % 4) 0 text).map (UInt8.ofNat (left * 16 + n / 4) :: ·)
            | _ => (decodeFrom 0 0 0 text).map (UInt8.ofNat (left * 64 + n) :: ·)

/-- The bytes of a text; none if letters are left over. -/
def decode? (text : Text) : Option Bytes := decodeFrom 0 0 0 text

end Stencil.Base64
