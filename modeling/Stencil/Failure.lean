import Stencil.Console.Markup
import Stencil.FileTree.Cause
import Stencil.Json.Reader
import Stencil.Manifest.VariableSchema
import Stencil.Yaml.Fault

/-!
# Failures

Why an operation can end without a result.  `isOfSystem` and `isOfValue` mark
the two families that callers tell apart.
-/

namespace Stencil

/-- An error that copying a directory went on after, or one letter of it. -/
inductive CopyError where
  | item (source target message : Text)
  | letter (c : CodePoint)
  deriving DecidableEq, Repr

namespace CopyError

def quoted : CopyError → Text
  | .item source target message => Layout.tuple [source.quoted, target.quoted, message.quoted]
  | .letter c => Text.quoted [c]

end CopyError

inductive Failure where
  | system (cause : Cause) (path : Text)
  | lostDirectory
  | injected (message : Text)
  | noSource (source suffixed : Text)
  | copying (errors : List CopyError)
  | sameFile (source target : Text)
  | value (message : Text)
  | undecodable (error : DecodeError)
  | unencodable (error : EncodeError)
  | json (error : Json.ReadError)
  | yaml (fault : Yaml.Fault)
  | invalid (record : Text) (issues : List Issue)
  | schema (fault : SchemaFault)
  | noPath (value : Value)
  | linkLoop (path : Text)
  | program (message : Text)
  | markup (fault : Markup.Fault)
  | manifest (message : Text)
  | method (message : Text)
  | project (message : Text)
  | templates (message : Text)
  | generator (message : Text)
  deriving Repr

namespace Failure

/-- What is said of a value that is given for a path; a type is named without its module. -/
private def noPathMessage : Value → Text
  | .scalar (.bytes _) =>
      "argument should be a str object or an os.PathLike object returning str, not <class 'bytes'>"
  | other =>
      let name := (Text.splitOn (.scalar '.') other.typeName).getLast?.getD []
      ("expected str, bytes or os.PathLike object, not " : Text) ++ name

def message : Failure → Text
  | .system cause path => cause.message path
  | .lostDirectory => Cause.missing.text
  | .injected message => message
  | .noSource source suffixed =>
      ("Source file not found: " : Text) ++ source ++ (" (also tried " : Text) ++ suffixed ++
        (")" : Text)
  | .copying errors => Layout.list (errors.map CopyError.quoted)
  | .sameFile source target =>
      source ++ (" and " : Text) ++ target ++ (" are the same file" : Text)
  | .value message => message
  | .undecodable error => error.message
  | .unencodable error => error.message
  | .json error => error.message
  | .yaml fault => fault.message
  | .invalid record issues => Issue.report record issues
  | .schema fault => fault.message
  | .noPath given => noPathMessage given
  | .linkLoop path => ("Symlink loop from " : Text) ++ path.quoted
  | .program message => message
  | .markup fault => fault.message
  | .manifest message => message
  | .method message => message
  | .project message => message
  | .templates message => message
  | .generator message => message

/-- Whether the failure comes from the files. -/
def isOfSystem : Failure → Bool
  | .system _ _ | .lostDirectory | .injected _ | .noSource _ _ | .copying _ | .sameFile _ _ => true
  | _ => false

/-- Whether the failure comes from what a file or a path holds. -/
def isOfValue : Failure → Bool
  | .value _ | .undecodable _ | .unencodable _ | .json _ | .invalid _ _ => true
  | .yaml fault => fault.isOfValue
  | _ => false

/-- Whether a document cannot be read at all. -/
def isOfDocument : Failure → Bool
  | .yaml fault => fault.isOfDocument
  | _ => false

def isOfManifest : Failure → Bool
  | .manifest _ => true
  | _ => false

def isUndecodable : Failure → Bool
  | .undecodable _ => true
  | _ => false

def isMissing : Failure → Bool
  | .system .missing _ => true
  | _ => false

end Failure

end Stencil
