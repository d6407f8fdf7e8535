import Isolate.Path.Canonical

/-!
# Import specifiers

A specifier names a file by a path, relative to the directory of the importing file or absolute. An
empty specifier and one that starts with a scheme, such as `node:fs`, name no file. A single letter
before a colon is no scheme.
-/

namespace Isolate.Path

def isSchemeChar (c : Char) : Bool := c.isAlphanum || c == '+' || c == '-' || c == '.'

/-- Whether a specifier starts with a scheme: a letter, at least one more scheme character, a
colon. -/
def hasScheme (specifier : List Char) : Bool :=
  let scheme := specifier.takeWhile (· ≠ ':')
  let afterScheme := specifier.dropWhile (· ≠ ':')
  !afterScheme.isEmpty && 1 < scheme.length
    && (match scheme with
      | c :: _ => c.isAlpha
      | [] => false)
    && scheme.all isSchemeChar

/-- The path that a specifier names when the file at `referrer` imports it. -/
def resolve (referrer : Path) (specifier : String) : Option Path :=
  if specifier.isEmpty || hasScheme specifier.toList then none
  else
    let target : Path := ⟨specifier⟩
    if target.isAbsolute then some target.normalize
    else some (ofComponents (walk (directoryOf referrer.components ++ target.components)))

end Isolate.Path
