import Stencil.Naming
import Stencil.Template.Operator
import Stencil.Text.Letter

/-!
# Members and methods of objects

`Object.member?` says which members an object has; methods stay bound to their
object until they are called.  `Object.memberNamed` and `Object.memberAt` look
in both ways: a name can also be a key, and a key also a name.
-/

namespace Stencil.Template

/-- The evaluated arguments of a call. -/
structure CallArguments where
  positional : List Object
  named : List (Text × Object)

/-- A text in characters, for comparison with literal words. -/
def wordOf (text : Text) : String :=
  String.ofList (text.map fun
    | .scalar char => char
    | .surrogate _ => '\ufffd')

namespace TextMethod

private def invalid {α : Type} (message : Text) : Rendering α := .error (.invalid message)

/-! ## Questions about texts -/

private def isUpper (c : CodePoint) : Bool := c.isCased && decide (c.lowercase [] [] ≠ [c])

private def isLower (c : CodePoint) : Bool := c.isCased && !isUpper c

def isUpperText (text : Text) : Bool :=
  text.any CodePoint.isCased && text.all fun c => !c.isCased || isUpper c

def isLowerText (text : Text) : Bool :=
  text.any CodePoint.isCased && text.all fun c => !c.isCased || isLower c

private def allOf (isMember : CodePoint → Bool) (text : Text) : Bool :=
  !text.isEmpty && text.all isMember

private def isName (text : Text) : Bool :=
  match text with
  | [] => false
  | c :: rest => (c.isLetter || c = .scalar '_') && rest.all CodePoint.isWord

private def isTitleFrom (inWord found : Bool) : Text → Bool
  | [] => found
  | c :: text =>
      if isUpper c then !inWord && isTitleFrom true true text
      else if isLower c then inWord && isTitleFrom true true text
      else isTitleFrom false found text

def question? (name : String) : Option (Text → Bool) :=
  match name with
  | "isdigit" => some (allOf CodePoint.isNumeric)
  | "isdecimal" => some (allOf CodePoint.isNumeric)
  | "isnumeric" => some (allOf CodePoint.isNumeric)
  | "isalpha" => some (allOf CodePoint.isLetter)
  | "isalnum" => some (allOf CodePoint.isAlphanumeric)
  | "isspace" => some (allOf CodePoint.isBlank)
  | "isupper" => some isUpperText
  | "islower" => some isLowerText
  | "istitle" => some (isTitleFrom false false)
  | "isascii" => some (List.all · fun c => c.toNat < 128)
  | "isidentifier" => some isName
  | _ => none

/-! ## Changes of case -/

private def swapCase (text : Text) : Text :=
  text.flatMap fun c =>
    if isUpper c then c.lowercase [] [] else if isLower c then c.uppercase else [c]

def change? (name : String) : Option (Text → Text) :=
  match name with
  | "upper" => some Text.toUpper
  | "lower" => some Text.toLower
  | "casefold" => some Text.toLower
  | "title" => some Text.toTitle
  | "capitalize" => some Text.capitalize
  | "swapcase" => some swapCase
  | _ => none

/-! ## Splitting -/

private def limitOf (limit : Int) (text : Text) : Nat :=
  if limit < 0 then text.length + 1 else limit.toNat

private def splitAtMost (separator : Text) : Nat → Text → List Text
  | 0, text => [text]
  | limit + 1, text =>
      match Text.cut separator text with
      | none => [text]
      | some (before, after) => before :: splitAtMost separator limit after

private def wordsAtMost : Nat → Text → List Text
  | limit, text =>
      let text := text.dropWhile CodePoint.isBlank
      match limit, text with
      | _, [] => []
      | 0, text => [text]
      | limit + 1, text =>
          let word := text.takeWhile (!·.isBlank)
          word :: wordsAtMost limit (text.drop word.length)

private def reversed (pieces : List Text) : List Text := (pieces.map List.reverse).reverse

def split (fromRight : Bool) (separator : Option Text) (limit : Int) (text : Text) : List Text :=
  let limit := limitOf limit text
  let flip (t : Text) : Text := if fromRight then t.reverse else t
  let pieces := match separator with
    | some separator => splitAtMost (flip separator) limit (flip text)
    | none => wordsAtMost limit (flip text)
  if fromRight then reversed pieces else pieces

private def isLineEnd (c : CodePoint) : Bool :=
  c.isIn "\n\r\x0b\x0c\x1c\x1d\x1e" || c.toNat = 0x85 || c.toNat = 0x2028 || c.toNat = 0x2029

def splitLines (keepEnds : Bool) (text : Text) : List Text :=
  go [] text
where
  go (line : Text) : Text → List Text
    | [] => if line.isEmpty then [] else [line.reverse]
    | .scalar '\r' :: .scalar '\n' :: text =>
        (line.reverse ++ if keepEnds then ("\r\n" : Text) else []) :: go [] text
    | c :: text =>
        if isLineEnd c then (line.reverse ++ if keepEnds then [c] else []) :: go [] text
        else go (c :: line) text

/-! ## Filling up -/

private def blanks (fill : CodePoint) (count : Nat) : Text := List.replicate count fill

def alignLeft (width : Int) (fill : CodePoint) (text : Text) : Text :=
  text ++ blanks fill (width.toNat - text.length)

def alignRight (width : Int) (fill : CodePoint) (text : Text) : Text :=
  blanks fill (width.toNat - text.length) ++ text

def center (width : Int) (fill : CodePoint) (text : Text) : Text :=
  let missing := width.toNat - text.length
  let left := missing / 2 + (missing % 2) * (width.toNat % 2)
  blanks fill left ++ text ++ blanks fill (missing - left)

def zeroFill (width : Int) (text : Text) : Text :=
  let (sign, body) : Text × Text := match text with
    | .scalar '-' :: rest => ("-", rest)
    | .scalar '+' :: rest => ("+", rest)
    | _ => ([], text)
  sign ++ blanks (.scalar '0') (width.toNat - text.length) ++ body

/-! ## Arguments -/

private def textArgument (message : Text → Text) (object : Object) : Rendering Text :=
  match object.text? with
  | some text => .ok text
  | none => invalid (message object.typeName)

private def integerArgument (object : Object) : Rendering Int :=
  match object.int? with
  | some n => .ok n
  | none =>
      invalid (("'" : Text) ++ object.typeName ++
        ("' object cannot be interpreted as an integer" : Text))

private def expectedAtLeast {α : Type} (name : Text) (least found : Nat) : Rendering α :=
  invalid (name ++ (" expected at least " : Text) ++ Text.ofNat least ++
    (if least = 1 then (" argument" : Text) else (" arguments" : Text)) ++
    (", got " : Text) ++ Text.ofNat found)

/-- The part of a text between optional bounds, and where it starts. -/
private def window (text : Text) (bounds : List Object) : Rendering (Nat × Text) := do
  let bound (object : Option Object) (absent : Int) : Rendering Int :=
    match object with
    | none => .ok absent
    | some .null => .ok absent
    | some object => integerArgument object
  let size : Int := text.length
  let place (n : Int) : Int := if n < 0 then max (n + size) 0 else n
  let start := place (← bound bounds[0]? 0)
  let stop := min (place (← bound bounds[1]? size)) size
  return (start.toNat, (text.take stop.toNat).drop start.toNat)

private def positionFromRight (needle text : Text) : Option Nat :=
  (Text.position? needle.reverse text.reverse).map fun k => text.length - k - needle.length

private def find (fromRight : Bool) (text : Text) (arguments : List Object) : Rendering Int :=
  match arguments with
  | [] => invalid "find() takes at least 1 argument (0 given)"
  | needle :: bounds => do
      let needle ← textArgument (("must be str, not " : Text) ++ ·) needle
      let (start, part) ← window text bounds
      if text.length < start then return -1
      else
        match (if fromRight then positionFromRight needle part else Text.position? needle part) with
        | some k => return (start + k : Nat)
        | none => return -1

private def affixTest (name : Text) (test : Text → Text → Bool) (text : Text)
    (arguments : List Object) : Rendering Object :=
  match arguments with
  | [] => invalid (name ++ ("() takes at least 1 argument (0 given)" : Text))
  | affix :: bounds => do
      let (_, part) ← window text bounds
      let one (object : Object) : Rendering Bool := do
        let affix ← textArgument (fun type =>
          name ++ (" first arg must be str or a tuple of str, not " : Text) ++ type) object
        return test affix part
      match affix with
      | .tuple affixes => return .bool ((← affixes.mapM one).any id)
      | affix => return .bool (← one affix)

private def stripWith (name : Text) (trim : (CodePoint → Bool) → Text → Text) (text : Text)
    (arguments : List Object) : Rendering Text :=
  match arguments with
  | [] => .ok (trim CodePoint.isBlank text)
  | .null :: _ => .ok (trim CodePoint.isBlank text)
  | set :: _ => do
      let set ← textArgument (fun _ => name ++ (" arg must be None or str" : Text)) set
      return trim (List.contains set) text

private def joinAll (separator : Text) (arguments : List Object) : Rendering Text :=
  match arguments with
  | [sequence] =>
      match sequence.members with
      | .error (.notIterable _) => invalid "can only join an iterable"
      | .error fault => .error fault
      | .ok items => do
          let parts ← items.zipIdx.mapM fun (item, k) =>
            match item.text? with
            | some text => (.ok text : Rendering Text)
            | none =>
                invalid (("sequence item " : Text) ++ Text.ofNat k ++
                  (": expected str instance, " : Text) ++ item.typeName ++ (" found" : Text))
          return Text.joinWith separator parts
  | arguments =>
      invalid (("str.join() takes exactly one argument (" : Text) ++ Text.ofNat arguments.length ++
        (" given)" : Text))

private def replaceFirst (old new : Text) (limit : Int) (text : Text) : Text :=
  if limit < 0 then
    if old.isEmpty then new ++ text.flatMap fun c => c :: new else Text.replaceAll old new text
  else if old.isEmpty then
    let count := limit.toNat
    if count = 0 then text
    else
      new ++ ((text.take (count - 1)).flatMap fun c => c :: new) ++ text.drop (count - 1)
  else Text.joinWith new (splitAtMost old limit.toNat text)

/-- A text with the occurrences of a part replaced, at most `limit` unless it is negative. -/
def replace (old new : Text) (limit : Int) (text : Text) : Text := replaceFirst old new limit text

private def replaceWith (text : Text) (arguments : List Object) : Rendering Text :=
  match arguments with
  | old :: new :: rest => do
      let argument (k : Nat) (object : Object) : Rendering Text :=
        textArgument (fun type =>
          ("replace() argument " : Text) ++ Text.ofNat k ++ (" must be str, not " : Text) ++ type)
          object
      let old ← argument 1 old
      let new ← argument 2 new
      let limit ← match rest with
        | [] => pure (-1)
        | limit :: _ => integerArgument limit
      return replaceFirst old new limit text
  | arguments => expectedAtLeast "replace" 2 arguments.length

private def named (call : CallArguments) (position : Nat) (name : Text) : Option Object :=
  match call.positional[position]? with
  | some object => some object
  | none => call.named.lookup name

private def splitWith (fromRight : Bool) (text : Text) (call : CallArguments) :
    Rendering Object := do
  let separator ← match named call 0 "sep" with
    | none => pure none
    | some .null => pure none
    | some object =>
        some <$> textArgument (("must be str or None, not " : Text) ++ ·) object
  let limit ← match named call 1 "maxsplit" with
    | none => pure (-1)
    | some object => integerArgument object
  if separator = some [] then invalid "empty separator"
  else return .list ((split fromRight separator limit text).map .text)

private def partition (fromRight : Bool) (text : Text) (arguments : List Object) :
    Rendering Object :=
  match arguments with
  | [separator] => do
      let separator ← textArgument (("must be str, not " : Text) ++ ·) separator
      if separator.isEmpty then invalid "empty separator"
      else
        let flip (t : Text) : Text := if fromRight then t.reverse else t
        let parts := match Text.cut (flip separator) (flip text) with
          | some (before, after) =>
              if fromRight then [after.reverse, separator, before.reverse]
              else [before, separator, after]
          | none => if fromRight then [[], [], text] else [text, [], []]
        return .tuple (parts.map .text)
  | arguments => expectedAtLeast "partition" 1 arguments.length

private def filled (align : Int → CodePoint → Text → Text) (text : Text)
    (arguments : List Object) : Rendering Text :=
  match arguments with
  | [] => expectedAtLeast "center" 1 0
  | width :: rest => do
      let width ← integerArgument width
      match rest with
      | [] => return align width (.scalar ' ') text
      | fill :: _ =>
          match fill.text? with
          | some [fill] => return align width fill text
          | _ => invalid "The fill character must be exactly one character long"

private def count (needle text : Text) : Nat :=
  if needle.isEmpty then text.length + 1 else (Text.splitAll needle text).length - 1

/-! ## Fields of formats -/

private def fieldText (conversion : Text) (object : Object) : Text :=
  if conversion = ("r" : Text) then object.quoted else object.display

/-- Pads a text as the part of a field behind its colon says. -/
private def fieldLayout (spec : Text) (object : Object) (body : Text) : Text :=
  let (fill, align, rest) : CodePoint × Option CodePoint × Text := match spec with
    | fill :: align :: rest =>
        if align.isIn "<>^" then (fill, some align, rest)
        else if fill.isIn "<>^" then (.scalar ' ', some fill, align :: rest)
        else (.scalar ' ', none, spec)
    | [align] => if align.isIn "<>^" then (.scalar ' ', some align, []) else (.scalar ' ', none, spec)
    | [] => (.scalar ' ', none, [])
  let zero := rest.head? = some (.scalar '0')
  let width : Int := (Text.toNat? (rest.takeWhile CodePoint.isDigit)).getD 0
  let isNumber := object.number?.isSome
  match align with
  | some (.scalar '<') => alignLeft width fill body
  | some (.scalar '>') => alignRight width fill body
  | some (.scalar '^') =>
      let missing := width.toNat - body.length
      blanks fill (missing / 2) ++ body ++ blanks fill (missing - missing / 2)
  | _ =>
      if isNumber && zero then zeroFill width body
      else if isNumber then alignRight width (.scalar ' ') body
      else alignLeft width (.scalar ' ') body

/-- A field with a precision or letter is written as the conversion of that form. -/
private def fieldBody (conversion spec : Text) (object : Object) : Rendering Text :=
  let form := spec.dropWhile fun c => !(c = .scalar '.' || c.isLatin)
  if form.isEmpty then .ok (fieldText conversion object)
  else
    match formatText (("%" : Text) ++ form) object with
    | .ok text => .ok text
    | .error _ => .ok (fieldText conversion object)

private def fields (call : CallArguments) : Nat → Nat → Text → Rendering Text
  | 0, _, _ => .ok []
  | fuel + 1, next, text =>
      match text with
      | [] => .ok []
      | .scalar '\x7b' :: .scalar '\x7b' :: rest =>
          (CodePoint.scalar '\x7b' :: ·) <$> fields call fuel next rest
      | .scalar '\x7d' :: .scalar '\x7d' :: rest =>
          (CodePoint.scalar '\x7d' :: ·) <$> fields call fuel next rest
      | .scalar '\x7d' :: _ => invalid "Single '\x7d' encountered in format string"
      | .scalar '\x7b' :: rest =>
          match Text.cut "\x7d" rest with
          | none =>
              if rest.isEmpty then invalid "Single '\x7b' encountered in format string"
              else invalid "expected '\x7d' before end of string"
          | some (field, rest) => do
              let (head, spec) := (Text.cut ":" field).getD (field, [])
              let (key, conversion) := (Text.cut "!" head).getD (head, [])
              let position? := if key.isEmpty then some next else Text.toNat? key
              let object ← match position? with
                | some position =>
                    match call.positional[position]? with
                    | some object => (.ok object : Rendering Object)
                    | none =>
                        invalid (("Replacement index " : Text) ++ Text.ofNat position ++
                          (" out of range for positional args tuple" : Text))
                | none =>
                    match call.named.lookup key with
                    | some object => .ok object
                    | none => invalid key.quoted
              let body ← fieldBody conversion spec object
              let next := if key.isEmpty then next + 1 else next
              return fieldLayout spec object body ++ (← fields call fuel next rest)
      | c :: rest => (c :: ·) <$> fields call fuel next rest

/-! ## Calls -/

def names : List String :=
  ["upper", "lower", "casefold", "title", "capitalize", "swapcase", "isdigit", "isdecimal",
    "isnumeric", "isalpha", "isalnum", "isspace", "isupper", "islower", "istitle", "isascii",
    "isidentifier", "strip", "lstrip", "rstrip", "replace", "split", "rsplit", "splitlines", "join",
    "startswith", "endswith", "find", "rfind", "index", "rindex", "count", "center", "ljust",
    "rjust", "zfill", "partition", "rpartition", "removeprefix", "removesuffix", "format",
    "expandtabs", "encode", "translate", "maketrans", "isprintable", "format_map"]

private def noArguments (name : Text) (call : CallArguments) (result : Object) :
    Rendering Object :=
  if !call.named.isEmpty then
    invalid (("str." : Text) ++ name ++ ("() takes no keyword arguments" : Text))
  else if call.positional.isEmpty then .ok result
  else
    invalid (("str." : Text) ++ name ++ ("() takes no arguments (" : Text) ++
      Text.ofNat call.positional.length ++ (" given)" : Text))

private def affix (call : CallArguments) (cut : Text → Text) : Rendering Object :=
  match call.positional with
  | [object] => do
      let part ← textArgument (("removeprefix() argument must be str, not " : Text) ++ ·) object
      return .text (cut part)
  | arguments => expectedAtLeast "removeprefix" 1 arguments.length

/-- Calls a method of a text; `wrap` makes the texts of the result safe or plain. -/
def call (name : Text) (wrap : Text → Object) (text : Text) (arguments : CallArguments) :
    Rendering Object :=
  let positional := arguments.positional
  let word := wordOf name
  match change? word, question? word with
  | some change, _ => noArguments name arguments (wrap (change text))
  | none, some question => noArguments name arguments (.bool (question text))
  | none, none =>
      match word with
      | "strip" => wrap <$> stripWith name Text.trim text positional
      | "lstrip" => wrap <$> stripWith name Text.trimStart text positional
      | "rstrip" => wrap <$> stripWith name Text.trimEnd text positional
      | "replace" => wrap <$> replaceWith text positional
      | "join" => wrap <$> joinAll text positional
      | "split" => splitWith false text arguments
      | "rsplit" => splitWith true text arguments
      | "splitlines" =>
          let keep := ((named arguments 0 "keepends").map Object.isTrue).getD false
          .ok (.list ((splitLines keep text).map .text))
      | "startswith" => affixTest name Text.startsWith text positional
      | "endswith" => affixTest name Text.endsWith text positional
      | "find" => Object.int <$> find false text positional
      | "rfind" => Object.int <$> find true text positional
      | "index" => do
          let k ← find false text positional
          if k < 0 then invalid "substring not found" else return .int k
      | "rindex" => do
          let k ← find true text positional
          if k < 0 then invalid "substring not found" else return .int k
      | "count" =>
          match positional with
          | [] => invalid "count() takes at least 1 argument (0 given)"
          | needle :: bounds => do
              let needle ← textArgument (("must be str, not " : Text) ++ ·) needle
              let (_, part) ← window text bounds
              return .ofNat (count needle part)
      | "center" => wrap <$> filled center text positional
      | "ljust" => wrap <$> filled alignLeft text positional
      | "rjust" => wrap <$> filled alignRight text positional
      | "zfill" =>
          match positional with
          | [width] => do return wrap (zeroFill (← integerArgument width) text)
          | arguments => expectedAtLeast "zfill" 1 arguments.length
      | "partition" => partition false text positional
      | "rpartition" => partition true text positional
      | "removeprefix" => affix arguments fun part => (Text.dropLeading? part text).getD text
      | "removesuffix" =>
          affix arguments fun part =>
            if Text.endsWith part text then text.take (text.length - part.length) else text
      | "format" => wrap <$> fields arguments (text.length + 1) 0 text
      | "encode" =>
          match text.encode with
          | .ok bytes => .ok (.scalar (.bytes bytes))
          | .error e => invalid e.message
      | _ => invalid (name ++ (" is not available" : Text))

end TextMethod

/-! ## Methods of collections -/

namespace Object

private def invalid {α : Type} (message : Text) : Rendering α := .error (.invalid message)

def mapMethods : List String :=
  ["get", "keys", "values", "items", "copy", "pop", "update", "setdefault", "clear", "popitem"]

def listMethods : List String :=
  ["index", "count", "copy", "append", "extend", "insert", "pop", "remove", "reverse", "sort",
    "clear"]

private def noArguments (owner name : Text) (arguments : CallArguments) (result : Object) :
    Rendering Object :=
  if arguments.positional.isEmpty then .ok result
  else
    invalid (owner ++ ("." : Text) ++ name ++ ("() takes no arguments (" : Text) ++
      Text.ofNat arguments.positional.length ++ (" given)" : Text))

private def expectedArguments {α : Type} (name : Text) (atLeast : Bool) (wanted found : Nat) :
    Rendering α :=
  invalid (name ++ (" expected " : Text) ++
    (if atLeast then ("at least " : Text) else ("at most " : Text)) ++ Text.ofNat wanted ++
    (if wanted = 1 then (" argument, got " : Text) else (" arguments, got " : Text)) ++
    Text.ofNat found)

private def callMap (entries : List (Object × Object)) (name : Text) (arguments : CallArguments) :
    Rendering Object :=
  let find (key : Object) : Rendering (Option Object) :=
    if key.isHashable then .ok (get? entries key) else .error (.unhashable key.typeName)
  match wordOf name, arguments.positional with
  | "get", [key] => do return (← find key).getD .null
  | "get", [key, otherwise] => do return (← find key).getD otherwise
  | "get", [] => expectedArguments name true 1 0
  | "get", given => expectedArguments name false 2 given.length
  | "keys", _ => noArguments "dict" name arguments (.view .keys (entries.map (·.1)))
  | "values", _ => noArguments "dict" name arguments (.view .values (entries.map (·.2)))
  | "items", _ =>
      noArguments "dict" name arguments
        (.view .items (entries.map fun (key, value) => .tuple [key, value]))
  | "copy", _ => noArguments "dict" name arguments (.map entries)
  | "setdefault", key :: rest => do return (← find key).getD (rest.head?.getD .null)
  | "pop", key :: rest => do
      match ← find key, rest with
      | some value, _ => return value
      | none, otherwise :: _ => return otherwise
      | none, [] => invalid key.quoted
  | _, _ => .ok .null

private def callList (items : List Object) (isTuple : Bool) (name : Text)
    (arguments : CallArguments) : Rendering Object :=
  let owner : Text := if isTuple then "tuple" else "list"
  match wordOf name, arguments.positional with
  | "index", [item] =>
      match items.findIdx? item.equals with
      | some k => .ok (.ofNat k)
      | none =>
          if isTuple then invalid "tuple.index(x): x not in tuple"
          else invalid (item.quoted ++ (" is not in list" : Text))
  | "index", given => expectedArguments name true 1 given.length
  | "count", [item] => .ok (.ofNat (items.countP item.equals))
  | "count", given =>
      invalid (owner ++ (".count() takes exactly one argument (" : Text) ++
        Text.ofNat given.length ++ (" given)" : Text))
  | "copy", _ => noArguments owner name arguments (.list items)
  | "pop", [] =>
      match items.getLast? with
      | some item => .ok item
      | none => invalid "pop from empty list"
  | "pop", position :: _ =>
      match position.int? with
      | some n =>
          let k := if n < 0 then n + items.length else n
          match (if k < 0 then none else items[k.toNat]?) with
          | some item => .ok item
          | none => invalid "pop index out of range"
      | none =>
          invalid (("'" : Text) ++ position.typeName ++
            ("' object cannot be interpreted as an integer" : Text))
  | _, _ => .ok .null

/--
What the object becomes by a call of a method that changes it; none for a
method that does not.
-/
def changed? (receiver : Object) (name : Text) (arguments : CallArguments) : Option Object :=
  match receiver, wordOf name, arguments.positional with
  | .list items, "append", [item] => some (.list (items ++ [item]))
  | .list items, "extend", [more] =>
      match more.members with
      | .ok more => some (.list (items ++ more))
      | .error _ => none
  | .list items, "insert", [position, item] =>
      position.int?.map fun (n : Int) =>
        let k := if n < 0 then (n + items.length).toNat else n.toNat
        .list (items.take k ++ item :: items.drop k)
  | .list items, "pop", [] => some (.list items.dropLast)
  | .list items, "pop", [position] =>
      position.int?.map fun (n : Int) =>
        let k := if n < 0 then (n + items.length).toNat else n.toNat
        .list (items.eraseIdx k)
  | .list items, "remove", [item] => some (.list (items.eraseP item.equals))
  | .list items, "reverse", [] => some (.list items.reverse)
  | .list _, "clear", [] => some (.list [])
  | .map entries, "update", given =>
      let more := match given with
        | [.map more] => more
        | _ => []
      let named := arguments.named.map fun (key, value) => (Object.text key, value)
      some (.map ((more ++ named).foldl (fun all (key, value) => insert all key value) entries))
  | .map entries, "setdefault", key :: rest =>
      match get? entries key with
      | some _ => none
      | none => some (.map (insert entries key (rest.head?.getD .null)))
  | .map entries, "pop", key :: _ =>
      some (.map (entries.filter fun entry => !entry.1.equals key))
  | .map _, "clear", [] => some (.map [])
  | _, _, _ => none

/-! ## Members -/

private def loopMember? (index : Nat) (items : List Object) (name : String) :
    Option Object :=
  match name with
  | "index" => some (.ofNat (index + 1))
  | "index0" => some (.ofNat index)
  | "revindex" => some (.ofNat (items.length - index))
  | "revindex0" => some (.ofNat (items.length - index - 1))
  | "first" => some (.bool (decide (index = 0)))
  | "last" => some (.bool (decide (index + 1 = items.length)))
  | "length" => some (.ofNat items.length)
  | "depth" => some (.ofNat 1)
  | "depth0" => some (.ofNat 0)
  | "previtem" =>
      some (if index = 0 then .undefined (.remark "there is no previous item")
        else (items[index - 1]?).getD .null)
  | "nextitem" =>
      some ((items[index + 1]?).getD (.undefined (.remark "there is no next item")))
  | _ => none

private def dateMember? (date : Date) (name : String) : Option Object :=
  match name with
  | "year" => some (.ofNat date.year)
  | "month" => some (.ofNat date.month)
  | "day" => some (.ofNat date.day)
  | _ => none

private def numberMember? (n : Object) (name : String) : Option Object :=
  match n, name with
  | .float x, "real" => some (.float x)
  | .float _, "imag" => some (.float .zero)
  | .scalar s, name =>
      match (Object.scalar s).int?, name with
      | some k, "real" => some (.int k)
      | some _, "imag" => some (.int 0)
      | some k, "numerator" => some (.int k)
      | some _, "denominator" => some (.int 1)
      | _, _ => none
  | _, _ => none

/-- The member of a name, without the keys of mappings. -/
def member? (object : Object) (name : Text) : Option Object :=
  let bound (names : List String) : Option Object :=
    if names.contains (wordOf name) then some (.method object name) else none
  match object with
  | .scalar (.text _) => bound TextMethod.names
  | .safe _ => bound TextMethod.names
  | .list _ => bound listMethods
  | .tuple _ => bound ["index", "count"]
  | .map _ => bound mapMethods
  | .loop _ index items =>
      match loopMember? index items (wordOf name) with
      | some member => some member
      | none => bound ["cycle", "changed"]
  | .scalar (.date date) =>
      match dateMember? date (wordOf name) with
      | some member => some member
      | none => bound ["isoformat"]
  | .scalar (.moment moment) =>
      match dateMember? moment.date (wordOf name), wordOf name with
      | some member, _ => some member
      | none, "hour" => some (.ofNat moment.hour)
      | none, "minute" => some (.ofNat moment.minute)
      | none, "second" => some (.ofNat moment.second)
      | none, "microsecond" => some (.ofNat moment.microsecond)
      | none, _ => bound ["isoformat"]
  | .scalar (.float x) =>
      match numberMember? (.float x) (wordOf name) with
      | some member => some member
      | none => bound ["is_integer"]
  | .range start stop step =>
      match wordOf name with
      | "start" => some (.int start)
      | "stop" => some (.int stop)
      | "step" => some (.int step)
      | _ => bound ["index", "count"]
  | other => numberMember? other (wordOf name)

/-- The element at a key or position, if there is one. -/
private def element? (object index : Object) : Option Object :=
  let at' {α : Type} (items : List α) (wrap : α → Object) : Option Object :=
    match index.int? with
    | some n =>
        let k := if n < 0 then n + items.length else n
        if k < 0 then none else (items[k.toNat]?).map wrap
    | none => none
  match object with
  | .scalar (.text value) => at' value fun c => .text [c]
  | .scalar (.bytes value) => at' value fun byte => .ofNat byte.toNat
  | .safe value => at' value fun c => .safe [c]
  | .list items => at' items id
  | .tuple items => at' items id
  | .range start stop step => at' (rangeItems start stop step) id
  | .map entries => if index.isHashable then get? entries index else none
  | _ => none

/-- The absent value of a key or position. -/
private def missing (object index : Object) : Object :=
  match index.text? with
  | some name => .undefined (.member object.ownerName name)
  | none => .undefined (.element object.ownerName index.quoted)

/-- `object.name`: a member, or else the value of the key. -/
def memberNamed (object : Object) (name : Text) : Rendering Object :=
  match object with
  | .undefined origin => .error (.absent origin)
  | object =>
      match object.member? name with
      | some member => .ok member
      | none => .ok ((element? object (.text name)).getD (missing object (.text name)))

/-- `object[index]`: an element, or else the member of that name. -/
def memberAt (object index : Object) : Rendering Object :=
  match object with
  | .undefined origin => .error (.absent origin)
  | object =>
      match element? object index with
      | some element => .ok element
      | none =>
          .ok (((index.text?.bind object.member?)).getD (missing object index))

/-! ## Calls -/

private def rangeOf (arguments : List Object) : Rendering Object := do
  let bound (object : Object) : Rendering Int :=
    match object with
    | .undefined _ => invalid "'Undefined' object cannot be interpreted as an integer"
    | object =>
        match object.int? with
        | some n => .ok n
        | none =>
            invalid (("'" : Text) ++ object.typeName ++
              ("' object cannot be interpreted as an integer" : Text))
  match arguments with
  | [stop] => return .range 0 (← bound stop) 1
  | [start, stop] => return .range (← bound start) (← bound stop) 1
  | [start, stop, step] => do
      let start ← bound start
      let stop ← bound stop
      let step ← bound step
      if step = 0 then invalid "range() arg 3 must not be zero" else return .range start stop step
  | [] => invalid "range expected at least 1 argument, got 0"
  | arguments =>
      invalid (("range expected at most 3 arguments, got " : Text) ++ Text.ofNat arguments.length)

private def mapOf (arguments : CallArguments) : Rendering Object := do
  let entries ← match arguments.positional with
    | [] => (.ok [] : Rendering (List (Object × Object)))
    | .map entries :: _ => .ok entries
    | other :: _ => do
        let items ← other.members
        items.foldlM (fun entries item => do
          match ← item.members with
          | [key, value] => return insert entries key value
          | parts =>
              invalid (("dictionary update sequence element #0 has length " : Text) ++
                Text.ofNat parts.length ++ ("; 2 is required" : Text))) []
  return .map (arguments.named.foldl (fun all (key, value) => insert all (.text key) value) entries)

private def callLoop (index : Nat) (name : String) (arguments : List Object) : Rendering Object :=
  match name with
  | "cycle" =>
      match arguments[index % arguments.length]? with
      | some item => .ok item
      | none => invalid "no items for cycling given"
  | _ => .ok .null

/-- Calls a method or function. -/
def call (callee : Object) (arguments : CallArguments) : Rendering Object :=
  match callee with
  | .undefined origin => .error (.absent origin)
  | .method (.scalar (.text value)) name => TextMethod.call name .text value arguments
  | .method (.safe value) name => TextMethod.call name .safe value arguments
  | .method (.map entries) name => callMap entries name arguments
  | .method (.list items) name => callList items false name arguments
  | .method (.tuple items) name => callList items true name arguments
  | .method (.range start stop step) name =>
      callList (rangeItems start stop step) true name arguments
  | .method (.loop _ index _) name => callLoop index (wordOf name) arguments.positional
  | .method (.scalar (.date date)) _ => .ok (.text date.text)
  | .method (.scalar (.moment moment)) _ => .ok (.text (moment.textWith "T"))
  | .method (.scalar (.float x)) _ => .ok (.bool x.isIntegral)
  | .function name =>
      match wordOf name with
      | "range" => rangeOf arguments.positional
      | "dict" => mapOf arguments
      | _ => .error (.notCallable name)
  | .loop _ _ _ =>
      invalid "The loop must have the 'recursive' marker to be called recursively."
  | other => .error (.notCallable other.typeName)

/-- The functions that every template knows. -/
def globals : List (Text × Object) :=
  ["range", "dict", "lipsum", "cycler", "joiner", "namespace"].map fun name =>
    (Text.ofString name, .function (Text.ofString name))

end Object

end Stencil.Template
