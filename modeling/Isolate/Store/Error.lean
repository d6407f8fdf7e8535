/-!
# Failures of a file store
-/

namespace Isolate.Store

/-- What the operating system says of a failed access. Only two causes are told apart from the others,
which are known by their words. -/
inductive Cause where
  | notFound
  | permissionDenied
  | other (message : String)
  deriving Repr, DecidableEq

/-- Why a file cannot be read. -/
inductive Error where
  | notFound (path : String)
  | permissionDenied (path : String)
  /-- There is a directory at the path. -/
  | notAFile (path : String)
  | unreadable (path message : String)
  deriving Repr, DecidableEq

namespace Error

def ofCause (path : String) : Cause → Error
  | .notFound => notFound path
  | .permissionDenied => permissionDenied path
  | .other message => unreadable path message

def path : Error → String
  | notFound path => path
  | permissionDenied path => path
  | notAFile path => path
  | unreadable path _ => path

/-- Whether nothing is stored at the path. -/
def isNotFound : Error → Bool
  | notFound _ => true
  | _ => false

def message : Error → String
  | notFound path => s!"file not found: {path}"
  | permissionDenied path => s!"permission denied: {path}"
  | notAFile path => s!"not a file: {path}"
  | unreadable path message => s!"failed to read '{path}': {message}"

end Error
end Isolate.Store
