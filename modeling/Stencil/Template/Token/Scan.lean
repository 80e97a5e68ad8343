import Stencil.Template.Token
import Stencil.Text.Blank
import Stencil.Text.Letter
import Stencil.Text.Width

/-!
# Cutting a template into tokens

`Token.scan` reads a template from the left.  A minus beside the mark of a tag
removes the blanks of the text on that side.  Inside a tag its end is looked for
only where all brackets are closed.  A fault ends the list of tokens.
-/

namespace Stencil.Template

/-- A place in a template: code points from zero, lines from one. -/
structure Place where
  position : Nat
  line : Nat
  deriving DecidableEq, Repr

namespace Place

def start : Place := ⟨0, 1⟩

/-- The place behind a piece of text. -/
def after (p : Place) (piece : Text) : Place :=
  ⟨p.position + piece.length, p.line + List.count (.scalar '\n') piece⟩

end Place

/-! ## Pieces of tags -/

/-- The front of `text` that is not in `rest`, when `rest` is one of its ends. -/
def consumed (text rest : Text) : Text := text.take (text.length - rest.length)

def skipBlanks (text : Text) : Text := text.dropWhile CodePoint.isBlank

/-- Digits with single underscores between them. -/
def digitRun (isMember : CodePoint → Bool) : Text → Text × Text
  | [] => ([], [])
  | c :: text =>
      if isMember c then
        let (digits, rest) := digitRun isMember text
        (c :: digits, rest)
      else
        match c, text with
        | .scalar '_', next :: _ =>
            if isMember next then digitRun isMember text else ([], c :: text)
        | _, _ => ([], c :: text)

/-- A run that starts with a digit. -/
def digitsFrom? (text : Text) : Option (Text × Text) :=
  match text with
  | c :: _ => if c.isDigit then some (digitRun CodePoint.isDigit text) else none
  | [] => none

def exponent? (text : Text) : Option (Bool × Text × Text) :=
  match text with
  | c :: text =>
      if c.lowerLatin = .scalar 'e' then
        let (negative, text) := Binary64.cutSign text
        (digitsFrom? text).map fun (digits, rest) => (negative, digits, rest)
      else none
  | [] => none

def fraction? (text : Text) : Option (Text × Text) :=
  match text with
  | .scalar '.' :: text => digitsFrom? text
  | _ => none

/-- Digits with a fraction, an exponent or both. -/
def float? (text : Text) : Option (Binary64 × Text) :=
  match digitsFrom? text with
  | none => none
  | some (whole, rest) =>
      let scaled (fraction rest : Text) : Option (Binary64 × Text) :=
        (exponent? rest).map fun (negative, digits, rest) =>
          let power : Int := (Text.toNat? digits).getD 0
          (.ofParts false whole fraction (if negative then -power else power), rest)
      match fraction? rest with
      | some (fraction, rest) =>
          some ((scaled fraction rest).getD (.ofParts false whole fraction 0, rest))
      | none => scaled [] rest

def based? (base : Nat) (text : Text) : Option (Nat × Text) :=
  let isMember (c : CodePoint) : Bool := (c.digitValueIn? base).isSome
  let text := match text with
    | .scalar '_' :: rest => rest
    | _ => text
  match text with
  | c :: _ =>
      if isMember c then
        let (digits, rest) := digitRun isMember text
        some ((Text.toNatIn? base digits).getD 0, rest)
      else none
  | [] => none

/-- Whole numbers: decimal without leading zeros, or with a mark for another base. -/
def integer? (text : Text) : Option (Nat × Text) :=
  match text with
  | .scalar '0' :: rest =>
      let marked : Option (Nat × Text) := match rest with
        | mark :: digits =>
            if mark.lowerLatin = .scalar 'b' then based? 2 digits
            else if mark.lowerLatin = .scalar 'o' then based? 8 digits
            else if mark.lowerLatin = .scalar 'x' then based? 16 digits
            else none
        | [] => none
      some (marked.getD (0, (digitRun (· = .scalar '0') (.scalar '0' :: rest)).2))
  | _ =>
      (digitsFrom? text).map fun (digits, rest) => ((Text.toNat? digits).getD 0, rest)

/-! ## Names and strings -/

/-- Whether a name may hold the code point: word characters and combining marks. -/
def isNamePart (c : CodePoint) : Bool :=
  c.isWord || CodePoint.markRanges.has c.toNat || c = .ofNat 0xB7

private def isNameStart (c : CodePoint) : Bool := c.isLetter || c = .scalar '_'

/-- The inner text of a quoted string and what follows it. -/
def stringBody (quote : CodePoint) : Text → Option (Text × Text)
  | [] => none
  | .scalar '\\' :: c :: text =>
      (stringBody quote text).map fun (body, rest) => (.scalar '\\' :: c :: body, rest)
  | c :: text =>
      if c = quote then some ([], text)
      else if c = .scalar '\\' then none
      else (stringBody quote text).map fun (body, rest) => (c :: body, rest)

private def hexEscape (digits : Nat) (name : Text) (text : Text) :
    Except SyntaxFault (CodePoint × Text) :=
  let code := text.take digits
  match (if code.length = digits then Text.toNatIn? 16 code else none) with
  | none => .error (.escape (("truncated \\" : Text) ++ name ++ (" escape" : Text)))
  | some value =>
      match CodePoint.ofNat? value with
      | some c => .ok (c, text.drop digits)
      | none => .error (.escape "illegal Unicode character")

private def isOctal (c : CodePoint) : Bool := c.isBetween '0' '7'

private def plainEscapes : List (Char × Char) :=
  [('\\', '\\'), ('\x27', '\x27'), ('\x22', '\x22'), ('a', '\x07'), ('b', '\x08'), ('f', '\x0c'),
    ('n', '\n'), ('r', '\r'), ('t', '\t'), ('v', '\x0b')]

/--
The text that a string stands for.  Unknown escapes stay as they are; a
backslash in front of a code point outside ASCII turns it into its number.
-/
def unescape : Nat → Text → Except SyntaxFault Text
  | 0, _ => .ok []
  | fuel + 1, text =>
      let go (front : Text) (rest : Text) : Except SyntaxFault Text :=
        (front ++ ·) <$> unescape fuel rest
      let numbered (digits : Nat) (name : Text) (rest : Text) : Except SyntaxFault Text := do
        let (c, rest) ← hexEscape digits name rest
        go [c] rest
      match text with
      | [] => .ok []
      | .scalar '\\' :: .scalar '\n' :: rest => go [] rest
      | .scalar '\\' :: .scalar 'x' :: rest => numbered 2 "xXX" rest
      | .scalar '\\' :: .scalar 'u' :: rest => numbered 4 "uXXXX" rest
      | .scalar '\\' :: .scalar 'U' :: rest => numbered 8 "UXXXXXXXX" rest
      | .scalar '\\' :: .scalar 'N' :: .scalar '\x7b' :: _ =>
          .error (.escape "unknown Unicode character name")
      | .scalar '\\' :: .scalar 'N' :: _ => .error (.escape "malformed \\N character escape")
      | .scalar '\\' :: c :: rest =>
          if isOctal c then
            let digits := ((c :: rest).take 3).takeWhile isOctal
            go [.ofNat ((Text.toNatIn? 8 digits).getD 0)] ((c :: rest).drop digits.length)
          else if 128 ≤ c.toNat then go c.numericEscape rest
          else
            match c with
            | .scalar char =>
                match plainEscapes.lookup char with
                | some meaning => go [.scalar meaning] rest
                | none => go [.scalar '\\', c] rest
            | .surrogate _ => go [c] rest
      | c :: rest => go [c] rest

/-! ## One token inside a tag -/

def operator? (text : Text) : Option (String × Text) :=
  operatorSymbols.findSome? fun symbol =>
    (Text.dropLeading? (Text.ofString symbol) text).map fun rest => (symbol, rest)

/-- The token at the front of a text without blanks there; `afterDot` forbids a fraction. -/
def tokenAt? (afterDot : Bool) (text : Text) : Option (Token × Text) :=
  match (if afterDot then none else float? text) with
  | some (value, rest) => some (.float value, rest)
  | none =>
      match integer? text with
      | some (value, rest) => some (.integer value, rest)
      | none =>
          let word := text.takeWhile isNamePart
          match word with
          | first :: _ =>
              let token : Token :=
                if isNameStart first then .name word else .fault .identifier
              some (token, text.drop word.length)
          | [] =>
              let quoted? : Option (Text × Text) := match text with
                | c :: rest =>
                    if c = .singleQuote ∨ c = .doubleQuote then stringBody c rest else none
                | [] => none
              match quoted? with
              | some (body, rest) =>
                  let token : Token := match unescape body.length body with
                    | .ok value => .string value
                    | .error cause => .fault cause
                  some (token, rest)
              | none => (operator? text).map fun (symbol, rest) => (.operator symbol, rest)

/-- The brackets that are open behind an operator, the innermost first. -/
def balance (opened : List String) (symbol : String) :
    Except SyntaxFault (List String) :=
  if symbol = "\x7b" then .ok ("\x7d" :: opened)
  else if symbol = "(" then .ok (")" :: opened)
  else if symbol = "[" then .ok ("]" :: opened)
  else if symbol = "\x7d" ∨ symbol = ")" ∨ symbol = "]" then
    match opened with
    | [] => .error (.strayBracket symbol)
    | expected :: opened =>
        if expected = symbol then .ok opened else .error (.otherBracket symbol expected)
  else .ok opened

/-! ## Tags -/

inductive TagKind where
  | print
  | block
  deriving DecidableEq, Repr

/-- The text behind the end of a tag, when the end stands at the front. -/
def tagEnd? (kind : TagKind) (text : Text) : Option Text :=
  let mark : Text := match kind with
    | .print => "\x7d\x7d"
    | .block => "%\x7d"
  match text with
  | .scalar '-' :: rest =>
      match Text.dropLeading? mark rest with
      | some rest => some (skipBlanks rest)
      | none => none
  | .scalar '+' :: rest => if kind = .block then Text.dropLeading? mark rest else none
  | _ => Text.dropLeading? mark text

/-- An optional sign of white space control. -/
def cutControl : Text → Bool × Text
  | .scalar '-' :: text => (true, text)
  | .scalar '+' :: text => (false, text)
  | text => (false, text)

/-- The text behind a statement that begins a raw part. -/
def rawBegin? (text : Text) : Option Text :=
  match Text.dropLeading? "\x7b%" text with
  | none => none
  | some rest =>
      match Text.dropLeading? "raw" (skipBlanks (cutControl rest).2) with
      | none => none
      | some rest =>
          match skipBlanks rest with
          | .scalar '+' :: _ => none
          | rest => tagEnd? .block rest

/-- The statement that ends a raw part: whether it strips, and the text behind it. -/
def rawEnd? (text : Text) : Option (Bool × Text) :=
  match Text.dropLeading? "\x7b%" text with
  | none => none
  | some rest =>
      let (strips, rest) := cutControl rest
      match Text.dropLeading? "endraw" (skipBlanks rest) with
      | none => none
      | some rest => (tagEnd? .block (skipBlanks rest)).map fun rest => (strips, rest)

/-- The text behind the mark that ends a comment. -/
def commentEnd? (text : Text) : Option Text :=
  match text with
  | .scalar '+' :: rest => Text.dropLeading? "#\x7d" rest
  | .scalar '-' :: rest => (Text.dropLeading? "#\x7d" rest).map skipBlanks
  | _ => Text.dropLeading? "#\x7d" text

/-- The text up to the first place where `mark?` succeeds, and its result there. -/
def cutAt {α : Type} (mark? : Text → Option α) : Text → Option (Text × α)
  | [] => none
  | c :: text =>
      match mark? (c :: text) with
      | some found => some ([], found)
      | none => (cutAt mark? text).map fun (before, found) => (c :: before, found)

inductive TagMark where
  | raw
  | comment
  | tag (kind : TagKind)
  deriving DecidableEq, Repr

/-- The mark of a tag at the front: what it opens, whether it strips, the text behind it. -/
def tagMark? (text : Text) : Option (TagMark × Bool × Text) :=
  match text with
  | .scalar '\x7b' :: second :: rest =>
      let (strips, inner) := cutControl rest
      match second with
      | .scalar '\x7b' => some (.tag .print, strips, inner)
      | .scalar '#' => some (.comment, strips, inner)
      | .scalar '%' =>
          match rawBegin? text with
          | some after => some (.raw, strips, after)
          | none => some (.tag .block, strips, inner)
      | _ => none
  | _ => none

def dataTokens (line : Nat) (text : Text) : List Lexeme :=
  if text.isEmpty then [] else [⟨.data text, line⟩]

def stripIf (strips : Bool) (text : Text) : Text :=
  if strips then text.stripEnd else text

mutual

def scanText : Nat → Place → Text → List Lexeme
  | 0, _, _ => []
  | fuel + 1, place, text =>
      match cutAt tagMark? text with
      | none => dataTokens place.line text
      | some (before, mark, strips, rest) =>
          let data := dataTokens place.line (stripIf strips before)
          let inside := place.after (consumed text rest)
          match mark with
          | .comment =>
              match cutAt commentEnd? rest with
              | some (_, after) => data ++ scanText fuel (place.after (consumed text after)) after
              | none => data ++ (if rest.isEmpty then [] else [⟨.fault .openComment, inside.line⟩])
          | .raw =>
              match cutAt rawEnd? rest with
              | some (body, strips, after) =>
                  data ++ dataTokens inside.line (stripIf strips body) ++
                    scanText fuel (place.after (consumed text after)) after
              | none => data ++ (if rest.isEmpty then [] else [⟨.fault .openRaw, inside.line⟩])
          | .tag kind =>
              let token : Token := match kind with
                | .print => .printBegin
                | .block => .blockBegin
              data ++ ⟨token, inside.line⟩ :: scanTag fuel kind [] false inside rest

/-- Reads inside a tag; `opened` holds the closing brackets that are due. -/
def scanTag : Nat → TagKind → List String → Bool → Place → Text → List Lexeme
  | 0, _, _, _, _, _ => []
  | fuel + 1, kind, opened, afterDot, place, text =>
      match (if opened.isEmpty then tagEnd? kind text else none) with
      | some rest =>
          let token : Token := match kind with
            | .print => .printEnd
            | .block => .blockEnd
          ⟨token, place.line⟩ :: scanText fuel (place.after (consumed text rest)) rest
      | none =>
          match text with
          | [] => []
          | c :: _ =>
              if c.isBlank then
                let rest := skipBlanks text
                scanTag fuel kind opened false (place.after (consumed text rest)) rest
              else
                match tokenAt? afterDot text with
                | none => [⟨.fault (.strayCodePoint c place.position), place.line⟩]
                | some (token, rest) =>
                    let next := place.after (consumed text rest)
                    match token with
                    | .fault cause => [⟨.fault cause, place.line⟩]
                    | .operator symbol =>
                        match balance opened symbol with
                        | .error cause => [⟨.fault cause, place.line⟩]
                        | .ok opened =>
                            ⟨token, place.line⟩ ::
                              scanTag fuel kind opened (decide (symbol = ".")) next rest
                    | _ => ⟨token, place.line⟩ :: scanTag fuel kind opened false next rest

end

/-- The tokens of a template, with line ends of every convention. -/
def Token.scan (template : Text) : List Lexeme :=
  let text := Text.unifyLineEnds template
  scanText (text.length + 1) Place.start text

end Stencil.Template
