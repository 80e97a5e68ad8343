import Stencil.Template.Condition
import Stencil.Number.Spelled

/-!
# Filters

What `|` can do with an object.  Most filters are a signature and a rule on the
bound arguments, the filtered object first.  The others take the name of a
filter or test and apply it to every member of the object.
-/

namespace Stencil.Template

structure Filter where
  signature : Signature
  run : List (Option Object) → Rendering Object

namespace Filter

private def invalid {α : Type} (message : Text) : Rendering α := .error (.invalid message)

private def nth (arguments : List (Option Object)) (k : Nat) : Object :=
  ((arguments[k]?).join).getD .null

private def given (arguments : List (Option Object)) (k : Nat) : Option Object :=
  (arguments[k]?).join

private def flag (arguments : List (Option Object)) (k : Nat) : Bool :=
  ((given arguments k).map Object.isTrue).getD false

/-- A filter on the text of the object. -/
private def onText (label : String) (rule : Text → Text) : Filter :=
  ⟨⟨label, 0, required ["value"]⟩, fun arguments => .ok (.text (rule (nth arguments 0).display))⟩

/-- A filter on texts that keeps safe texts safe. -/
private def onSoftText (label name : String) (rule : Text → Text) : Filter :=
  ⟨⟨label, 0, required [name]⟩, fun arguments =>
    .ok (match nth arguments 0 with
      | .safe text => .safe (rule text)
      | object => .text (rule object.display))⟩

private def onObject (label : String) (hidden : Nat) (rule : Object → Rendering Object) : Filter :=
  ⟨⟨label, hidden, required ["value"]⟩, fun arguments => rule (nth arguments 0)⟩

/-! ## Attributes -/

/-- The steps of a dotted attribute; digits are positions. -/
def attributeSteps (path : Object) : List Object :=
  match path with
  | .null => []
  | path =>
      match path.text? with
      | some text =>
          (Text.splitOn (.scalar '.') text).map fun part =>
            match Text.toNat? part with
            | some n => .ofNat n
            | none => .text part
      | none => [path]

def followSteps (steps : List Object) (object : Object) : Rendering Object :=
  steps.foldlM Object.memberAt object

private def attributeOf (path : Option Object) (object : Object) : Rendering Object :=
  followSteps ((path.map attributeSteps).getD []) object

private def foldCase (object : Object) : Object :=
  match object.text? with
  | some text => .text text.toLower
  | none => object

/-! ## Order -/

private def insertSorted (entry : Object × Object) :
    List (Object × Object) → Rendering (List (Object × Object))
  | [] => .ok [entry]
  | other :: rest => do
      if ← Object.ordered .lt entry.1 other.1 then return other :: (← insertSorted entry rest)
      else return entry :: other :: rest

/-- Sorts by keys and keeps the order of entries with equal keys. -/
def sortByKey (entries : List (Object × Object)) : Rendering (List Object) := do
  let sorted ← entries.foldlM (fun sorted entry => insertSorted entry sorted) []
  return (sorted.map (·.2)).reverse

private def sortKey (sensitive : Bool) (path : Option Object) (object : Object) :
    Rendering Object := do
  let attributes := match path with
    | some path =>
        match path.text? with
        | some text => (Text.splitOn (.scalar ',') text).map Object.text
        | none => [path]
    | none => [.null]
  let keys ← attributes.mapM fun path => do
    let key ← followSteps (attributeSteps path) object
    return if sensitive then key else foldCase key
  return .list keys

private def sort (arguments : List (Option Object)) : Rendering Object := do
  let items ← (nth arguments 0).members
  let reverse := flag arguments 1
  let entries ← items.mapM fun item => do
    return ((← sortKey (flag arguments 2) (given arguments 3) item), item)
  let sorted ← sortByKey (if reverse then entries.reverse else entries)
  return .list (if reverse then sorted.reverse else sorted)

private def sortMap (arguments : List (Option Object)) : Rendering Object := do
  let entries ← match nth arguments 0 with
    | .map entries => (.ok entries : Rendering (List (Object × Object)))
    | .undefined origin => .error (.absent origin)
    | other =>
        invalid (other.ownerName.quoted ++ (" has no attribute 'items'" : Text))
  let byValue := match given arguments 2 with
    | some by' => decide (by'.text? = some "value")
    | none => false
  let keyed := entries.map fun (key, value) =>
    let chosen := if byValue then value else key
    (if flag arguments 1 then chosen else foldCase chosen, Object.tuple [key, value])
  let reverse := flag arguments 3
  let sorted ← sortByKey (if reverse then keyed.reverse else keyed)
  return .list (if reverse then sorted.reverse else sorted)

/-- The extreme member in the sense of a comparison; of equal ones the first. -/
private def extreme (op : Comparison) (arguments : List (Option Object)) : Rendering Object := do
  let items ← (nth arguments 0).members
  let keyOf (item : Object) : Rendering Object := do
    let key ← attributeOf (given arguments 2) item
    return if flag arguments 1 then key else foldCase key
  match items with
  | [] => return .undefined (.remark "No aggregated item, sequence was empty.")
  | first :: rest => do
      let start := (← keyOf first, first)
      let (_, best) ← rest.foldlM (fun (key, best) item => do
        let itemKey ← keyOf item
        if ← Object.ordered op itemKey key then return (itemKey, item) else return (key, best)) start
      return best

private def sum (arguments : List (Option Object)) : Rendering Object := do
  let items ← (nth arguments 0).members
  let start := (given arguments 2).getD (.int 0)
  if start.text?.isSome then invalid "sum() can't sum strings [use ''.join(seq) instead]"
  else
    items.foldlM (fun total item => do
      Object.binary .add total (← attributeOf (given arguments 1) item)) start

private def unique (arguments : List (Option Object)) : Rendering Object := do
  let items ← (nth arguments 0).members
  let keyed ← items.mapM fun item => do
    let key ← attributeOf (given arguments 2) item
    return (if flag arguments 1 then key else foldCase key, item)
  let kept := keyed.foldl (fun kept (key, item) =>
    if kept.any fun entry : Object × Object => entry.1.equals key then kept
    else kept ++ [(key, item)]) []
  return .stream "generator" (kept.map (·.2)) none

/-! ## Numbers -/

private def truncated? (x : Binary64) : Option Object :=
  if x.isFinite then some (.int x.truncate) else none

private def toInteger (arguments : List (Option Object)) : Rendering Object :=
  let otherwise := (given arguments 1).getD (.int 0)
  let base := ((given arguments 2).bind Object.int?).getD 10
  match nth arguments 0 with
  | .undefined origin => .error (.absent origin)
  | object =>
      match object.text?, object.number? with
      | some text, _ =>
          match Spelled.integer? base.toNat text with
          | some n => .ok (.int n)
          | none => .ok (((Spelled.float? text).bind truncated?).getD otherwise)
      | none, some (.int n) => .ok (.int n)
      | none, some (.float x) =>
          if x.isInfinite then invalid "cannot convert float infinity to integer"
          else .ok ((truncated? x).getD otherwise)
      | none, none => .ok otherwise

private def toFloat (arguments : List (Option Object)) : Rendering Object :=
  let otherwise := (given arguments 1).getD (.float .zero)
  match nth arguments 0 with
  | .undefined origin => .error (.absent origin)
  | object =>
      match object.text?, object.number? with
      | some text, _ => .ok (((Spelled.float? text).map Object.float).getD otherwise)
      | none, some n => Object.float <$> n.toFloat
      | none, none => .ok otherwise

private def absolute (object : Object) : Rendering Object :=
  match object.number? with
  | some (.int n) => .ok (.int n.natAbs)
  | some (.float x) => .ok (.float x.abs)
  | none => .error (.operand "abs()" object.typeName)

private def roundInteger (n : Int) (places : Int) : Int :=
  if 0 ≤ places then n
  else
    let unit := Nat.pow 10 (-places).toNat
    let rounded : Int := Binary64.divRoundEven n.natAbs unit * unit
    if n < 0 then -rounded else rounded

/-- Rounds up or down at a decimal place. -/
private def roundToward (up : Bool) (object : Object) (places : Int) : Rendering Object := do
  let scale ← Object.binary .pow (.int 10) (.int places)
  let scaled ← Object.binary .mul object scale
  match scaled.number? with
  | some (.int n) => Object.binary .div (.int n) scale
  | some (.float x) =>
      if x.isNaN then invalid "cannot convert float NaN to integer"
      else if x.isInfinite then invalid "cannot convert float infinity to integer"
      else Object.binary .div (.int (if up then x.ceilInt else x.floorInt)) scale
  | none => invalid (("must be real number, not " : Text) ++ scaled.typeName)

private def round (arguments : List (Option Object)) : Rendering Object :=
  let object := nth arguments 0
  let places? := match given arguments 1 with
    | none => some 0
    | some object => object.int?
  let method := match given arguments 2 with
    | none => some ("common" : Text)
    | some object => object.text?
  if method = some ("common" : Text) then
    match object.number?, places? with
    | some (.int n), some places => .ok (.int (roundInteger n places))
    | some (.float x), some places => .ok (.float (x.roundTo places))
    | some _, none =>
        invalid (("'" : Text) ++ (nth arguments 1).typeName ++
          ("' object cannot be interpreted as an integer" : Text))
    | none, _ =>
        invalid (("type " : Text) ++ object.typeName ++
          (" doesn't define __round__ method" : Text))
  else if method = some ("ceil" : Text) then roundToward true object (places?.getD 0)
  else if method = some ("floor" : Text) then roundToward false object (places?.getD 0)
  else invalid "method must be common, ceil or floor"

/-! ## Texts -/

private def startsWord (c : CodePoint) : Bool := c.isBlank || c.isIn "-(\x7b[<"

/-- Every word starts in uppercase; a word ends at blanks, hyphens and opening brackets. -/
private def titleWords : Nat → Text → Text
  | 0, _ => []
  | _, [] => []
  | fuel + 1, c :: text =>
      if startsWord c then c :: titleWords fuel text
      else
        let word := text.takeWhile (!startsWord ·)
        c.uppercase ++ Text.toLower word ++ titleWords fuel (text.drop word.length)

private def replace (arguments : List (Option Object)) : Rendering Object :=
  let limit? := match given arguments 3 with
    | none => some (-1)
    | some .null => some (-1)
    | some object => object.int?
  match limit? with
  | some limit =>
      .ok (.text (TextMethod.replace (nth arguments 1).display (nth arguments 2).display limit
        (nth arguments 0).display))
  | none =>
      invalid (("'" : Text) ++ (nth arguments 3).typeName ++
        ("' object cannot be interpreted as an integer" : Text))

private def trim (arguments : List (Option Object)) : Rendering Object :=
  let object := nth arguments 0
  let wrap (text : Text) : Object := match object with
    | .safe _ => .safe text
    | _ => .text text
  match given arguments 1 with
  | none => .ok (wrap (Text.strip object.display))
  | some .null => .ok (wrap (Text.strip object.display))
  | some set =>
      match set.text? with
      | some set => .ok (wrap (Text.trim (List.contains set) object.display))
      | none => invalid "strip arg must be None or str"

private def join (arguments : List (Option Object)) : Rendering Object := do
  let items ← (nth arguments 0).members
  let parts ← items.mapM fun item => do
    return (← attributeOf (given arguments 2) item).display
  return .text (Text.joinWith ((given arguments 1).map Object.display |>.getD []) parts)

private def wordCount (text : Text) : Nat :=
  go false text
where
  go (inWord : Bool) : Text → Nat
    | [] => 0
    | c :: text =>
        if c.isWord then (if inWord then go true text else go true text + 1) else go false text

private def indent (arguments : List (Option Object)) : Rendering Object :=
  let lead : Text := match given arguments 1 with
    | none => List.replicate 4 (.scalar ' ')
    | some object =>
        match object.text? with
        | some text => text
        | none => List.replicate ((object.int?.getD 0).toNat) (.scalar ' ')
  let lines := TextMethod.splitLines false ((nth arguments 0).display ++ ("\n" : Text))
  let shift (line : Text) : Text :=
    if line.isEmpty && !flag arguments 3 then line else lead ++ line
  .ok (.text (Text.joinWith "\n" (match lines with
    | [] => []
    | first :: rest =>
        (if flag arguments 2 then lead ++ first else first) :: rest.map shift)))

private def truncate (arguments : List (Option Object)) : Rendering Object :=
  let text := (nth arguments 0).display
  let number (k : Nat) (otherwise : Int) : Int :=
    ((given arguments k).bind Object.int?).getD otherwise
  let limit := number 1 255
  let tail := ((given arguments 3).map Object.display).getD "..."
  if (text.length : Int) ≤ limit + number 4 5 then .ok (.text text)
  else
    let kept := text.take (limit - tail.length).toNat
    if flag arguments 2 then .ok (.text (kept ++ tail))
    else
      let cut := kept.reverse.dropWhile (· ≠ .scalar ' ')
      .ok (.text ((if cut.isEmpty then kept else cut.reverse.dropLast) ++ tail))

/-! ## Sequences -/

private def count (object : Object) : Rendering Object := Object.ofNat <$> object.length

private def first (object : Object) : Rendering Object :=
  match object with
  | .stream _ (item :: _) _ => .ok item
  | object => do
      match ← object.members with
      | item :: _ => return item
      | [] => return .undefined (.remark "No first item, sequence was empty.")

/-- The members from the last to the first, where there is such an order. -/
private def backward? (object : Object) : Option (List Object) :=
  match object with
  | .set _ => none
  | .stream _ _ _ => none
  | .loop _ _ _ => none
  | object =>
      match object.members with
      | .ok items => some items.reverse
      | .error _ => none

private def last (object : Object) : Rendering Object :=
  match backward? object with
  | some (item :: _) => .ok item
  | some [] => .ok (.undefined (.remark "No last item, sequence was empty."))
  | none => invalid (("'" : Text) ++ object.typeName ++ ("' object is not reversible" : Text))

private def reverse (object : Object) : Rendering Object :=
  match object with
  | .text text => .ok (.text text.reverse)
  | .safe text => .ok (.safe text.reverse)
  | object =>
      match backward? object, object.members with
      | some items, _ => .ok (.stream "reversed" items none)
      | none, .ok items => .ok (.list items.reverse)
      | none, .error _ => invalid "argument must be iterable"

private def itemsOf (object : Object) : Rendering Object :=
  match object with
  | .undefined _ => .ok (.stream "generator" [] none)
  | .map entries =>
      .ok (.stream "generator" (entries.map fun (key, value) => .tuple [key, value]) none)
  | _ => invalid "Can only get item pairs from a mapping."

private def attr (arguments : List (Option Object)) : Rendering Object :=
  let object := nth arguments 0
  let name := (nth arguments 1).display
  match object with
  | .undefined origin => .error (.absent origin)
  | object =>
      .ok ((object.member? name).getD (.undefined (.member object.ownerName name)))

private def chunks (size : Nat) : Nat → List Object → List (List Object)
  | 0, _ => []
  | _, [] => []
  | fuel + 1, items => items.take size :: chunks size fuel (items.drop size)

private def batch (arguments : List (Option Object)) : Rendering Object := do
  let items ← (nth arguments 0).members
  let size := ((nth arguments 1).int?.getD 1).toNat
  let rows := (chunks size items.length items).map fun row =>
    match given arguments 2 with
    | some fill =>
        if fill.equals .null then Object.list row
        else .list (row ++ List.replicate (size - row.length) fill)
    | none => .list row
  return .stream "generator" rows none

private def default' (arguments : List (Option Object)) : Rendering Object :=
  let object := nth arguments 0
  if object.isUndefined || flag arguments 2 && !object.isTrue then
    .ok ((given arguments 1).getD (.text []))
  else .ok object

private def escape (object : Object) : Rendering Object :=
  match object with
  | .safe text => .ok (.safe text)
  | object => .ok (.safe (Object.escaped object.display))

private def soft (object : Object) : Rendering Object :=
  match object with
  | .safe text => .ok (.safe text)
  | object => .ok (.text object.display)

/-! ## The table -/

private def casing : Casing := Casing.unicode

/-- The spellings of names. -/
def spellings : List (String × Filter) :=
  [("camelCase", onText "camel_case" (Naming.camel casing)),
    ("pascalCase", onText "pascal_case" (Naming.pascal casing)),
    ("titleCase", onText "pascal_case" (Naming.pascal casing)),
    ("kebabCase", onText "kebab_case" (Naming.kebab casing)),
    ("snakeCase", onText "snake_case" (Naming.snake casing)),
    ("upperCase", onText "upper_snake_case" (Naming.upperSnake casing)),
    ("lower", onText "TemplateRenderer.__init__.<locals>.<lambda>" casing.lower),
    ("upper", onText "TemplateRenderer.__init__.<locals>.<lambda>" casing.upper),
    ("pluralize", onText "pluralize" Naming.pluralize),
    ("singularize", onText "singularize" Naming.singularize),
    ("slugify", onText "slugify" (Naming.slug casing))]

private def with' (label : String) (hidden : Nat) (needed others : List String)
    (run : List (Option Object) → Rendering Object) : Filter :=
  ⟨⟨label, hidden, required needed ++ optional others⟩, run⟩

/-- The general filters that take no name of another filter or test. -/
def general : List (String × Filter) :=
  let defaultFilter := with' "do_default" 0 ["value"] ["default_value", "boolean"] default'
  [("default", defaultFilter), ("d", defaultFilter),
    ("length", onObject "len" 0 count), ("count", onObject "len" 0 count),
    ("join", with' "sync_do_join" 1 ["value"] ["d", "attribute"] join),
    ("replace", with' "do_replace" 1 ["s", "old", "new"] ["count"] replace),
    ("trim", with' "do_trim" 0 ["value"] ["chars"] trim),
    ("first", onObject "sync_do_first" 1 first),
    ("last", onObject "do_last" 1 last),
    ("title", onSoftText "do_title" "s" fun text => titleWords text.length text),
    ("capitalize", onSoftText "do_capitalize" "s" Text.capitalize),
    ("reverse", onObject "do_reverse" 0 reverse),
    ("sort", with' "do_sort" 1 ["value"] ["reverse", "case_sensitive", "attribute"] sort),
    ("dictsort", with' "do_dictsort" 0 ["value"] ["case_sensitive", "by", "reverse"] sortMap),
    ("sum", with' "sync_do_sum" 1 ["iterable"] ["attribute", "start"] sum),
    ("min", with' "do_min" 1 ["value"] ["case_sensitive", "attribute"] (extreme .lt)),
    ("max", with' "do_max" 1 ["value"] ["case_sensitive", "attribute"] (extreme .gt)),
    ("unique", with' "sync_do_unique" 1 ["value"] ["case_sensitive", "attribute"] unique),
    ("int", with' "do_int" 0 ["value"] ["default", "base"] toInteger),
    ("float", with' "do_float" 0 ["value"] ["default"] toFloat),
    ("string", onObject "soft_str" 0 soft),
    ("abs", onObject "abs" 0 absolute),
    ("round", with' "do_round" 0 ["value"] ["precision", "method"] round),
    ("list", onObject "sync_do_list" 0 fun object => Object.list <$> object.members),
    ("items", onObject "do_items" 0 itemsOf),
    ("escape", onObject "escape" 0 escape), ("e", onObject "escape" 0 escape),
    ("forceescape", onObject "do_forceescape" 0 fun object =>
      .ok (.safe (Object.escaped object.display))),
    ("safe", onObject "do_mark_safe" 0 fun object => .ok (.safe object.display)),
    ("wordcount", onObject "do_wordcount" 0 fun object => .ok (.ofNat (wordCount object.display))),
    ("center", with' "do_center" 0 ["value"] ["width"] fun arguments =>
      let width := ((given arguments 1).bind Object.int?).getD 80
      .ok (.text (TextMethod.center width (.scalar ' ') (nth arguments 0).display))),
    ("indent", with' "do_indent" 0 ["s"] ["width", "first", "blank"] indent),
    ("truncate", with' "do_truncate" 1 ["s"] ["length", "killwords", "end", "leeway"] truncate),
    ("batch", with' "do_batch" 0 ["value", "linecount"] ["fill_with"] batch),
    ("attr", with' "do_attr" 1 ["obj", "name"] [] attr)]

/-- The filters that take any arguments: formats, and those that name a filter or test. -/
def naming : List String := ["map", "select", "reject", "selectattr", "rejectattr", "format"]

/-- Known filters without a rule here. -/
def unavailable : List String :=
  ["filesizeformat", "groupby", "pprint", "random", "slice", "striptags", "tojson",
    "urlencode", "urlize", "wordwrap", "xmlattr"]

def table : List (String × Filter) := spellings ++ general

def isKnown (name : Text) : Bool :=
  let word := wordOf name
  (table.lookup word).isSome || naming.contains word || unavailable.contains word

end Filter

/-! ## Tests by name -/

namespace Condition

def isKnown (name : Text) : Bool :=
  let word := wordOf name
  (table.lookup word).isSome || word = "filter" || word = "test"

/-- Applies a known test. -/
def perform? (name : Text) (arguments : CallArguments) : Option (Rendering Bool) :=
  let word := wordOf name
  let subject := (arguments.positional.head?.bind Object.text?).getD []
  match table.lookup word with
  | some condition => some (condition.signature.bind arguments >>= condition.holds)
  | none =>
      if word = "filter" then some (.ok (Filter.isKnown subject))
      else if word = "test" then some (.ok (isKnown subject))
      else none

end Condition

namespace Filter

private def unknownName (kind : Text) (name : Object) : RenderFault :=
  let opening := ("No " : Text) ++ kind ++ (" named " : Text) ++ name.quoted ++ ("." : Text)
  match name with
  | .undefined origin =>
      .invalid (opening ++ (" (" : Text) ++ origin.message ++
        ("; did you forget to quote the callable name?)" : Text))
  | _ => .invalid opening

/-- The members of an object that is true; an object that is false has none. -/
private def membersIfTrue (object : Object) : Rendering (List Object) :=
  if object.isTrue then object.members else .ok []

/-- Members up to the first fault, which counts only when the stream is read that far. -/
private def streamOf (items : List (Rendering (Option Object))) : Object :=
  go [] items
where
  go (seen : List Object) : List (Rendering (Option Object)) → Object
    | [] => .stream "generator" seen.reverse none
    | .ok (some item) :: rest => go (item :: seen) rest
    | .ok none :: rest => go seen rest
    | .error fault :: _ => .stream "generator" seen.reverse (some fault)

private def delayed (members : Rendering (List Object))
    (step : Object → Rendering (Option Object)) : Object :=
  match members with
  | .ok items => streamOf (items.map step)
  | .error fault => .stream "generator" [] (some fault)

/-- Keeps the members whose test, or whose own truth, is `wanted`. -/
private def select (wanted byAttribute : Bool) (arguments : CallArguments) : Object :=
  let object := (arguments.positional.head?).getD .null
  let rest := arguments.positional.tail
  if !object.isTrue then .stream "generator" [] none
  else if byAttribute && rest.isEmpty then
    .stream "generator" [] (some (.invalid "Missing parameter for attribute name"))
  else
    let steps := if byAttribute then attributeSteps (rest.head?.getD .null) else []
    let rest := if byAttribute then rest.tail else rest
    delayed object.members fun item => do
      let subject ← followSteps steps item
      let found ← match rest with
        | [] => (.ok subject.isTrue : Rendering Bool)
        | name :: rest =>
            let call : CallArguments := ⟨subject :: rest, arguments.named⟩
            match name.text?.bind fun name => Condition.perform? name call with
            | some result => result
            | none => .error (unknownName "test" name)
      return if found = wanted then some item else none

/-- A format with the arguments by position or by name. -/
private def format (arguments : CallArguments) : Rendering Object :=
  let text := ((arguments.positional.head?).map Object.display).getD []
  match arguments.positional.tail, arguments.named with
  | [], [] => Object.text <$> formatText text (.tuple [])
  | values, [] => Object.text <$> formatText text (.tuple values)
  | [], named => Object.text <$> formatText text (.map (named.map fun (k, v) => (.text k, v)))
  | _, _ => invalid "can't handle positional and keyword arguments at the same time"

/-- Applies a filter by its name; `fuel` bounds how often one filter names another. -/
def applyNamed : Nat → Text → CallArguments → Option (Rendering Object)
  | 0, _, _ => none
  | fuel + 1, name, arguments =>
      match table.lookup (wordOf name) with
      | some filter => some (filter.signature.bind arguments >>= filter.run)
      | none =>
          match wordOf name with
          | "format" => some (format arguments)
          | "select" => some (.ok (select true false arguments))
          | "reject" => some (.ok (select false false arguments))
          | "selectattr" => some (.ok (select true true arguments))
          | "rejectattr" => some (.ok (select false true arguments))
          | "map" =>
              let object := (arguments.positional.head?).getD .null
              let delayedFault (message : Text) : Option (Rendering Object) :=
                some (.ok (.stream "generator" []
                  (if object.isTrue then some (.invalid message) else none)))
              match arguments.positional.tail, arguments.named.lookup ("attribute" : Text) with
              | [], none => delayedFault "map requires a filter argument"
              | [], some path =>
                  let others := arguments.named.filter fun (key, _) =>
                    !(key = ("attribute" : Text) || key = ("default" : Text))
                  match others with
                  | (key, _) :: _ =>
                      delayedFault (("Unexpected keyword argument " : Text) ++ key.quoted)
                  | [] =>
                      let otherwise := arguments.named.lookup ("default" : Text)
                      some (.ok (delayed (membersIfTrue object) fun item => do
                        let member ← followSteps (attributeSteps path) item
                        match otherwise with
                        | some otherwise =>
                            if member.isUndefined && !otherwise.equals .null then
                              return some otherwise
                            else return some member
                        | none => return some member))
              | filterName :: rest, _ =>
                  some (.ok (delayed (membersIfTrue object) fun item =>
                    let call : CallArguments := ⟨item :: rest, arguments.named⟩
                    match filterName.text?.bind fun name => applyNamed fuel name call with
                    | some result => some <$> result
                    | none => .error (unknownName "filter" filterName)))
          | word =>
              if unavailable.contains word then
                some (invalid (name ++ (" is not available" : Text)))
              else none

/-- Applies a filter, if there is one of that name. -/
def perform? (name : Text) (arguments : CallArguments) : Option (Rendering Object) :=
  applyNamed (arguments.positional.length + 1) name arguments

end Filter

end Stencil.Template
