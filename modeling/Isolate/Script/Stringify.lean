import Isolate.Script.Conversion

/-!
# Values as JSON text

Objects are written with their visible members and arrays with their elements. A method `toJSON` or a
given function may put another value in the place of one that is about to be written.
-/

namespace Isolate.Script.Stringify

def hexUnit (n : Nat) : UInt16 := (if n < 10 then 48 + n else 87 + n).toUInt16

def escapeUnit (u : UInt16) : Text.Units :=
  let n := u.toNat
  [0x5c, 0x75, hexUnit (n / 0x1000), hexUnit (n / 0x100 % 16), hexUnit (n / 16 % 16), hexUnit (n % 16)]

def quoteUnit (u : UInt16) : Text.Units :=
  if u = 0x22 then [0x5c, 0x22]
  else if u = 0x5c then [0x5c, 0x5c]
  else if u = 0x08 then [0x5c, 0x62]
  else if u = 0x0c then [0x5c, 0x66]
  else if u = 0x0a then [0x5c, 0x6e]
  else if u = 0x0d then [0x5c, 0x72]
  else if u = 0x09 then [0x5c, 0x74]
  else if u < 0x20 then escapeUnit u
  else [u]

/-- A text between quotes: half a surrogate pair is escaped, so that the result is well formed. -/
def quote (units : Text.Units) : Text.Units :=
  0x22 :: (Text.Units.pieces units).flatMap (fun
    | .char c => (Text.Units.ofChar c).flatMap quoteUnit
    | .lone u => escapeUnit u) ++ [0x22]

/-- How to write: what may replace a value, the names that are written if not all, and the text that
each level is set in by. -/
structure Style where
  replacer : Option Value := none
  names : Option (List Text.Units) := none
  gap : Text.Units := []

def enclose (style : Style) (indent : Text.Units) (opening closing : UInt16)
    (parts : List Text.Units) : Text.Units :=
  if parts.isEmpty then [opening, closing]
  else if style.gap.isEmpty then
    opening :: List.intercalate [0x2c] parts ++ [closing]
  else
    let inner := indent ++ style.gap
    opening :: 0x0a :: inner ++ List.intercalate (0x2c :: 0x0a :: inner) parts
      ++ 0x0a :: indent ++ [closing]

/-- The value to write in the place of a member of an object. -/
def replaced (call : Invoke) (style : Style) (holder : Value) (name : Text.Units) (value : Value) :
    Action Value := do
  let value ←
    match value with
    | .object _ => do
      let method ← getMember value (Text.Units.ofString "toJSON")
      if ← isCallable method then call method value [.string name] else pure value
    | value => pure value
  let value ←
    match style.replacer with
    | some replacer => call replacer holder [.string name, value]
    | none => pure value
  match value with
  | .object id =>
    match ((← get).object id).nature with
    | .wrapper (.number _) => do pure (.number (← toNumber call value))
    | .wrapper (.string _) => do pure (.string (← toText call value))
    | .wrapper (.bool b) => pure (.bool b)
    | _ => pure value
  | value => pure value

/-- Write a member of an object, or nothing for a value without a JSON form. `outer` are the objects
that it lies in. -/
def member (call : Invoke) (style : Style) :
    (fuel : Nat) → (outer : List ObjectId) → (indent : Text.Units) → (holder : Value) →
      (name : Text.Units) → (value : Value) → Action (Option Text.Units)
  | 0, _, _, _, _, _ => throw .exhausted
  | fuel + 1, outer, indent, holder, name, value => do
    match ← replaced call style holder name value with
    | .undefined => pure none
    | .string s => pure (some (quote s))
    | .number n => pure (some (if n.isFinite then n.toUnits else Text.Units.ofString "null"))
    | .object id => do
      let object := (← get).object id
      if outer.contains id then failWith .type "cyclic object value"
      let inner := indent ++ style.gap
      match object.nature with
      | .function _ => pure none
      | .array length => do
        let parts ← (List.range length).mapM fun index => do
          let name := indexName index
          let part ← member call style fuel (id :: outer) inner (.object id) name
            (← getMember (.object id) name)
          pure (part.getD (Text.Units.ofString "null"))
        pure (some (enclose style indent 0x5b 0x5d parts))
      | _ => do
        let names ←
          match style.names with
          | some names => pure names
          | none => visibleNames id
        let parts ← names.filterMapM fun name => do
          let part ← member call style fuel (id :: outer) inner (.object id) name
            (← getMember (.object id) name)
          let colon : Text.Units := if style.gap.isEmpty then [0x3a] else [0x3a, 0x20]
          pure (part.map fun text => quote name ++ colon ++ text)
        pure (some (enclose style indent 0x7b 0x7d parts))
    | value => pure (some value.plainText)

/-- How deep objects may lie inside each other. -/
def depthLimit : Nat := 1000000

def chosenNames (call : Invoke) (id : ObjectId) (length : Nat) : Action (List Text.Units) := do
  let names ← (List.range length).filterMapM fun index => do
    match ← getMember (.object id) (indexName index) with
    | .string s => pure (some s)
    | .number n => pure (some n.toUnits)
    | .object o =>
      match ((← get).object o).nature with
      | .wrapper (.string _) => do pure (some (← toText call (.object o)))
      | .wrapper (.number _) => do pure (some (← toText call (.object o)))
      | _ => pure none
    | _ => pure none
  pure names.eraseDups

/-- How to write, as the arguments of a call say it. -/
def styleOf (call : Invoke) (replacer space : Value) : Action Style := do
  let style : Style ←
    match replacer with
    | .object id =>
      match ((← get).object id).nature with
      | .function _ => pure { replacer := some replacer }
      | .array length => do pure { names := some (← chosenNames call id length) }
      | _ => pure {}
    | _ => pure {}
  let space ←
    match space with
    | .object id =>
      match ((← get).object id).nature with
      | .wrapper (.number _) => do pure (.number (← toNumber call space))
      | .wrapper (.string _) => do pure (.string (← toText call space))
      | _ => pure space
    | space => pure space
  match space with
  | .number n =>
    let width := ((n.toInteger 10).toNat).min 10
    pure { style with gap := List.replicate width 0x20 }
  | .string s => pure { style with gap := s.take 10 }
  | _ => pure style

/-- The JSON text of a value, if it has one. -/
def text (call : Invoke) (value replacer space : Value) : Action Value := do
  let style ← styleOf call replacer space
  let holder ← newObject
  defineMember holder [] value
  match ← member call style depthLimit [] [] (.object holder) [] value with
  | some text => pure (.string text)
  | none => pure .undefined

end Isolate.Script.Stringify
