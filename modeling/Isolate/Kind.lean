/-!
# Module kinds

How the bytes of a resolved file become a module. Reading a declared name never fails: a name that
none of the kinds has is kept as an unsupported kind, and matters only once a file of that kind is
imported.
-/

namespace Isolate

/-- The kinds with a loader. -/
inductive Kind.Supported where
  /-- ECMAScript module source. -/
  | esModule
  /-- CommonJS source, whose `module.exports` is the default export. -/
  | commonJS
  /-- UTF-8 text as a string. -/
  | text
  /-- Raw bytes as a buffer. -/
  | data
  /-- A WebAssembly binary, compiled and not instantiated. -/
  | compiledWasm
  deriving Repr, DecidableEq

inductive Kind where
  | supported (kind : Kind.Supported)
  /-- A declared kind without a loader. -/
  | unsupported (name : String)
  deriving Repr, DecidableEq

namespace Kind

def Supported.name : Supported → String
  | .esModule => "ESModule"
  | .commonJS => "CommonJS"
  | .text => "Text"
  | .data => "Data"
  | .compiledWasm => "CompiledWasm"

def Supported.all : List Supported := [.esModule, .commonJS, .text, .data, .compiledWasm]

/-- The kind that a name declares; letter case matters. -/
def ofName (name : String) : Kind :=
  match Supported.all.find? (·.name == name) with
  | some kind => .supported kind
  | none => .unsupported name

def name : Kind → String
  | .supported kind => kind.name
  | .unsupported name => name

def isSupported : Kind → Bool
  | .supported _ => true
  | .unsupported _ => false

@[simp] theorem ofName_name (kind : Supported) : ofName kind.name = .supported kind := by
  cases kind <;> rfl

/-- No name is lost by reading it as a kind. -/
@[simp] theorem name_ofName (text : String) : (ofName text).name = text := by
  unfold ofName
  split
  next kind found => simpa [name] using List.find?_some found
  next => rfl

end Kind
end Isolate
