import Stencil.Text.Basic

/-!
# Tokens of YAML documents

Besides the marks that are written there are tokens for what indentation says:
where blocks start and end, and which marks are keys.
-/

namespace Stencil.Yaml

inductive Setting where
  | version (major minor : Nat)
  | handle (name lead : Text)
  | other
  deriving DecidableEq, Repr

inductive Token where
  | streamEnd
  | setting (setting : Setting)
  | documentStart
  | documentEnd
  | blockSequenceStart
  | blockMappingStart
  | blockEnd
  | flowSequenceStart
  | flowSequenceEnd
  | flowMappingStart
  | flowMappingEnd
  | key
  | value
  | blockEntry
  | flowEntry
  | alias (name : Text)
  | anchor (name : Text)
  | tag (handle : Option Text) (suffix : Text)
  | scalar (text : Text) (isPlain : Bool)
  deriving DecidableEq, Repr

end Stencil.Yaml
