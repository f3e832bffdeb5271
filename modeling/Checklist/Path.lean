import Checklist.Text

namespace Checklist

/-- A path as it is written, with slashes between its parts. -/
abbrev Path := Text

namespace Path

/-- The words between slashes, one after the other. Each is a step from a directory. -/
def steps (path : Path) : List Text :=
  (path.splitAll '/').filter (· != [])

/-- The steps that lead somewhere: a single dot stays where it is. -/
def parts (path : Path) : List Text :=
  path.steps.filter (· != ['.'])

def isAbsolute (path : Path) : Bool :=
  path.head? == some '/'

def endsInSlash (path : Path) : Bool :=
  path.getLast? == some '/'

/-- The last part, unless it leads up. -/
def fileName? (path : Path) : Option Text :=
  path.parts.getLast?.filter (· != ['.', '.'])

/-- A file of the directory at `path`. -/
def child (path : Path) (name : Text) : Path :=
  if path == [] || path.endsInSlash then path ++ name else path ++ '/' :: name

end Path

end Checklist
