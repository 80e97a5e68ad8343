import Stencil.FilePath
import Stencil.Settings

/-!
# Libraries

A library is a directory of templates, together with the settings that they are
used with.  Templates are named by their paths in it.
-/

namespace Stencil

structure Library where
  root : FilePath
  settings : Settings

namespace Library

def template (library : Library) (name : Text) : FilePath := library.root.child name

def suffix (library : Library) : Text := library.settings.templateSuffix

end Library

end Stencil
