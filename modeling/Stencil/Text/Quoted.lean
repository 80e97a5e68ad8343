import Stencil.Text.Hidden

/-!
# Quoted texts

A quoted text stands between single quotes, or between double quotes when it
holds single quotes and no double ones.  The quote in use and the backslash are
escaped, and so is every hidden code point.
-/

namespace Stencil

namespace CodePoint

def singleQuote : CodePoint := .scalar '\x27'

def doubleQuote : CodePoint := .scalar '\x22'

/-- The escape of a code point by its number, in two, four or eight hexadecimal digits. -/
def numericEscape (c : CodePoint) : Text :=
  let code := c.toNat
  if code < 0x100 then ("\\x" : Text) ++ Text.ofNatIn 16 2 code
  else if code < 0x10000 then ("\\u" : Text) ++ Text.ofNatIn 16 4 code
  else ("\\U" : Text) ++ Text.ofNatIn 16 8 code

def quotedWith (quote c : CodePoint) : Text :=
  if c = quote ∨ c = .scalar '\\' then [.scalar '\\', c]
  else if c = .scalar '\n' then "\\n"
  else if c = .scalar '\r' then "\\r"
  else if c = .scalar '\t' then "\\t"
  else if c.isHidden then c.numericEscape
  else [c]

end CodePoint

namespace Text

def quoteFor (text : Text) : CodePoint :=
  if List.contains text .singleQuote && !List.contains text .doubleQuote then .doubleQuote
  else .singleQuote

def quoted (text : Text) : Text :=
  let quote := quoteFor text
  quote :: text.flatMap (CodePoint.quotedWith quote) ++ [quote]

end Text

end Stencil
