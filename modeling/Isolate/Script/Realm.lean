import Isolate.Script.Value

/-!
# What every world starts with

A new world holds the intrinsic objects and the builtin functions, in a fixed order, so that each of
them has a number that is known beforehand.
-/

namespace Isolate.Script

/-- The objects that every world has, apart from its functions. -/
inductive Intrinsic where
  | objectPrototype | arrayPrototype | stringPrototype | numberPrototype | booleanPrototype
  | promisePrototype | bufferPrototype | asyncFunctionPrototype | generatorFunctionPrototype
  | asyncGeneratorFunctionPrototype | generatorPrototype | json | global
  | errorPrototype (kind : ErrorKind)
  deriving Repr, DecidableEq

def ErrorKind.all : List ErrorKind :=
  [.error, .type, .range, .reference, .syntaxError, .eval, .uri, .aggregate]

namespace Intrinsic

def all : List Intrinsic :=
  [.objectPrototype, .arrayPrototype, .stringPrototype, .numberPrototype, .booleanPrototype,
    .promisePrototype, .bufferPrototype, .asyncFunctionPrototype, .generatorFunctionPrototype,
    .asyncGeneratorFunctionPrototype, .generatorPrototype, .json, .global]
  ++ ErrorKind.all.map .errorPrototype

def id : Intrinsic → ObjectId
  | .errorPrototype kind => 13 + kind.ctorIdx
  | i => i.ctorIdx

theorem all_getElem?_id (i : Intrinsic) : all[i.id]? = some i := by
  cases i with
  | errorPrototype kind => cases kind <;> rfl
  | _ => rfl

def value (i : Intrinsic) : Value := .object i.id

end Intrinsic

namespace Builtin

def all : List Builtin :=
  [.objectConstructor, .objectKeys, .objectHasOwn, .objectToString, .objectValueOf,
    .functionConstructor, .asyncFunctionConstructor, .generatorConstructor, .asyncGeneratorConstructor,
    .functionPrototype, .functionCall, .functionApply, .functionBind, .functionToString,
    .arrayConstructor, .arrayIsArray, .arrayPush, .arrayMap, .arrayJoin, .arrayToString,
    .stringConstructor, .stringRepeat, .stringToString, .numberConstructor, .numberToString,
    .booleanConstructor, .booleanToString, .errorToString, .promiseConstructor, .promiseThen,
    .promiseCatch, .promiseFinally, .promiseResolve, .promiseReject, .bufferConstructor,
    .jsonStringify, .isNaN, .isFinite, .eval]
  ++ ErrorKind.all.map .errorConstructor

def id (b : Builtin) : ObjectId := Intrinsic.all.length + all.idxOf b

def value (b : Builtin) : Value := .object b.id

/-- The name of a function and the number of its parameters. -/
def signature : Builtin → String × Nat
  | objectConstructor => ("Object", 1)
  | objectKeys => ("keys", 1)
  | objectHasOwn => ("hasOwnProperty", 1)
  | objectToString => ("toString", 0)
  | objectValueOf => ("valueOf", 0)
  | functionConstructor => ("Function", 1)
  | asyncFunctionConstructor => ("AsyncFunction", 1)
  | generatorConstructor => ("GeneratorFunction", 1)
  | asyncGeneratorConstructor => ("AsyncGeneratorFunction", 1)
  | functionPrototype => ("", 0)
  | functionCall => ("call", 1)
  | functionApply => ("apply", 2)
  | functionBind => ("bind", 1)
  | functionToString => ("toString", 0)
  | arrayConstructor => ("Array", 1)
  | arrayIsArray => ("isArray", 1)
  | arrayPush => ("push", 1)
  | arrayMap => ("map", 1)
  | arrayJoin => ("join", 1)
  | arrayToString => ("toString", 0)
  | stringConstructor => ("String", 1)
  | stringRepeat => ("repeat", 1)
  | stringToString => ("toString", 0)
  | numberConstructor => ("Number", 1)
  | numberToString => ("toString", 1)
  | booleanConstructor => ("Boolean", 1)
  | booleanToString => ("toString", 0)
  | errorConstructor .aggregate => ("AggregateError", 2)
  | errorConstructor kind => (kind.name, 1)
  | errorToString => ("toString", 0)
  | promiseConstructor => ("Promise", 1)
  | promiseThen => ("then", 2)
  | promiseCatch => ("catch", 1)
  | promiseFinally => ("finally", 1)
  | promiseResolve => ("resolve", 1)
  | promiseReject => ("reject", 1)
  | bufferConstructor => ("ArrayBuffer", 1)
  | jsonStringify => ("stringify", 3)
  | isNaN => ("isNaN", 1)
  | isFinite => ("isFinite", 1)
  | eval => ("eval", 1)

def prototype? : Builtin → Option ObjectId
  | objectConstructor => some Intrinsic.objectPrototype.id
  | functionConstructor => some functionPrototype.id
  | asyncFunctionConstructor => some Intrinsic.asyncFunctionPrototype.id
  | generatorConstructor => some Intrinsic.generatorFunctionPrototype.id
  | asyncGeneratorConstructor => some Intrinsic.asyncGeneratorFunctionPrototype.id
  | arrayConstructor => some Intrinsic.arrayPrototype.id
  | stringConstructor => some Intrinsic.stringPrototype.id
  | numberConstructor => some Intrinsic.numberPrototype.id
  | booleanConstructor => some Intrinsic.booleanPrototype.id
  | errorConstructor kind => some (Intrinsic.errorPrototype kind).id
  | promiseConstructor => some Intrinsic.promisePrototype.id
  | bufferConstructor => some Intrinsic.bufferPrototype.id
  | _ => none

def statics : Builtin → List Builtin
  | objectConstructor => [objectKeys]
  | arrayConstructor => [arrayIsArray]
  | promiseConstructor => [promiseResolve, promiseReject]
  | _ => []

end Builtin

/-- A member that loops over an object's members do not see. -/
def Property.hidden (value : Value) : Property := { value, enumerable := false }

/-- A hidden member that cannot be assigned. -/
def Property.fixed (value : Value) : Property := { value, writable := false, enumerable := false }

/-- A hidden member that can neither be assigned nor taken away. -/
def Property.permanent (value : Value) : Property :=
  { value, writable := false, enumerable := false, configurable := false }

namespace Builtin

def member (b : Builtin) : Text.Units × Property :=
  (Text.Units.ofString b.signature.1, .hidden b.value)

def functionMembers (name : Text.Units) (length : Nat) : Properties :=
  [(Text.Units.ofString "length", .fixed (.number (.ofNat length))),
    (Text.Units.ofString "name", .fixed (.string name))]

def object (b : Builtin) : Object :=
  let (name, length) := b.signature
  let members := match b.prototype? with
    | some proto => [(Text.Units.ofString "prototype", .permanent (.object proto))]
    | none => []
  let inherits := match b with
    | functionPrototype => Intrinsic.objectPrototype.id
    | errorConstructor .error => functionPrototype.id
    | errorConstructor _ => (errorConstructor .error).id
    | asyncFunctionConstructor | generatorConstructor | asyncGeneratorConstructor =>
      functionConstructor.id
    | _ => functionPrototype.id
  let methods := match b with
    | functionPrototype =>
      (Text.Units.ofString "constructor", .hidden functionConstructor.value)
        :: [functionCall, functionApply, functionBind, functionToString].map member
    | _ => []
  { proto := some inherits, nature := .function (.builtin b)
    properties := functionMembers (Text.Units.ofString name) length ++ members
      ++ b.statics.map member ++ methods }

end Builtin

namespace Intrinsic

def prototypeOf (constructor : Builtin) (methods : List Builtin) : Object :=
  { proto := some objectPrototype.id
    properties := (Text.Units.ofString "constructor", .hidden constructor.value)
      :: methods.map Builtin.member }

def globalFunctions : List Builtin :=
  [.objectConstructor, .functionConstructor, .arrayConstructor, .stringConstructor,
    .numberConstructor, .booleanConstructor, .promiseConstructor, .bufferConstructor, .isNaN,
    .isFinite, .eval]
  ++ ErrorKind.all.map .errorConstructor

def globalMembers : Properties :=
  [(Text.Units.ofString "globalThis", .hidden global.value),
    (Text.Units.ofString "Infinity", .permanent (.number .infinity)),
    (Text.Units.ofString "NaN", .permanent (.number .nan)),
    (Text.Units.ofString "undefined", .permanent .undefined),
    (Text.Units.ofString "JSON", .hidden json.value)]
  ++ globalFunctions.map Builtin.member

def object : Intrinsic → Object
  | objectPrototype =>
    { prototypeOf .objectConstructor [.objectHasOwn, .objectToString, .objectValueOf] with
      proto := none }
  | arrayPrototype =>
    { prototypeOf .arrayConstructor [.arrayPush, .arrayMap, .arrayJoin, .arrayToString] with
      nature := .array 0 }
  | stringPrototype =>
    let o := prototypeOf .stringConstructor [.stringRepeat, .stringToString]
    { o with
      nature := .wrapper (.string [])
      properties := o.properties
        ++ [(Text.Units.ofString "valueOf", .hidden Builtin.stringToString.value)] }
  | numberPrototype =>
    { prototypeOf .numberConstructor [.numberToString] with nature := .wrapper (.number (.int 0)) }
  | booleanPrototype =>
    { prototypeOf .booleanConstructor [.booleanToString] with nature := .wrapper (.bool false) }
  | promisePrototype =>
    prototypeOf .promiseConstructor [.promiseThen, .promiseCatch, .promiseFinally]
  | bufferPrototype => prototypeOf .bufferConstructor []
  | asyncFunctionPrototype =>
    { prototypeOf .asyncFunctionConstructor [] with proto := some Builtin.functionPrototype.id }
  | generatorFunctionPrototype =>
    { prototypeOf .generatorConstructor [] with proto := some Builtin.functionPrototype.id }
  | asyncGeneratorFunctionPrototype =>
    { prototypeOf .asyncGeneratorConstructor [] with proto := some Builtin.functionPrototype.id }
  | generatorPrototype => { proto := some objectPrototype.id }
  | json =>
    { proto := some objectPrototype.id, nature := .json
      properties := [Builtin.jsonStringify.member] }
  | global => { proto := some objectPrototype.id, properties := globalMembers }
  | errorPrototype kind =>
    { proto := some (if kind = .error then objectPrototype.id else (errorPrototype .error).id)
      properties :=
        [(Text.Units.ofString "constructor", .hidden (Builtin.errorConstructor kind).value),
          (Text.Units.ofString "name", .hidden (.string (Text.Units.ofString kind.name))),
          (Text.Units.ofString "message", .hidden (.string []))]
        ++ (if kind = .error then [Builtin.errorToString.member] else []) }

end Intrinsic

def globalScope : ScopeId := 0

def World.initial (limits : Limits) (allowsCodeGeneration : Bool) : World :=
  { objects := (Intrinsic.all.map Intrinsic.object ++ Builtin.all.map Builtin.object).toArray
    scopes := #[{ parent := none, object := some Intrinsic.global.id, isFunction := true }]
    limits, allowsCodeGeneration }

end Isolate.Script
