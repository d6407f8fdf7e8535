import Isolate.Text.Quoted
import Isolate.Script.Closure

/-!
# Values in words

How a value is shown to the host, and the diagnostic of a failure: what was thrown, with the place
where an error was made, and then the place where the failure happened. A thrown error is also known to
the host by its kind and its message, unless a member that the host looks at cannot be read or is not what
it expects.
-/

namespace Isolate.Script

def Value.shown : Value → String
  | .string s => Text.quoted s.toString
  | .number n => n.shown
  | value => value.plainText.toString

namespace World

def plainMember? (w : World) (name : Text.Units) : (fuel : Nat) → Option ObjectId → Option Value
  | 0, _ => none
  | _, none => none
  | fuel + 1, some id =>
    match Properties.get? (w.object id).properties name with
    | some property => some property.value
    | none => w.plainMember? name fuel (w.object id).proto

def memberText (w : World) (id : ObjectId) (name default : String) : String :=
  match w.plainMember? (Text.Units.ofString name) w.searchDepth (some id) with
  | some .undefined => default
  | some value => value.plainText.toString
  | none => default

/-- An error in words: its name, what it says and where it was made. -/
def describeError (w : World) (id : ObjectId) (site : Option Site) : String :=
  let name := w.memberText id "name" "Error"
  let message := w.memberText id "message" ""
  let text :=
    if name = "" then message
    else if message = "" then name
    else s!"{name}: {message}"
  match site with
  | some site =>
    let place := site.describe
    s!"{text} ({place})"
  | none => text

def describe (w : World) : (depth : Nat) → Value → String
  | _, .undefined => "undefined"
  | _, .null => "null"
  | 0, .object _ => "[Object]"
  | depth + 1, .object id =>
    let object := w.object id
    match object.nature with
    | .error _ site => w.describeError id site
    | .function _ =>
      let name := w.memberText id "name" ""
      s!"[Function: {name}]"
    | .array _ =>
      let items := object.properties.map fun (_, property) => w.describe depth property.value
      if items.isEmpty then "[]" else "[ " ++ String.intercalate ", " items ++ " ]"
    | _ =>
      let members := object.properties.map fun (name, property) =>
        let shown := w.describe depth property.value
        let name := name.toString
        s!"    {name}: {shown}"
      "\x7b\n" ++ String.intercalate ",\n" members ++ "\n\x7d"
  | _, value => value.shown

def read? (w : World) (id : ObjectId) (name : String) : Option (Option Value) :=
  match memberFrom (.object id) (Text.Units.ofString name) w.searchDepth (some id) w with
  | .ok found _ => some found
  | .error _ _ => none

def isConstructor (w : World) : (fuel : Nat) → Value → Bool
  | 0, _ => false
  | fuel + 1, value =>
    match callable? w value with
    | some (.closure _ code _ _) => code.isConstructor
    | some (.builtin builtin) => builtin.prototype?.isSome
    | some (.bound target _ _) => w.isConstructor fuel target
    | _ => false

def hasItems (w : World) : Value → Bool
  | .object id =>
    match (w.object id).nature with
    | .array length => (List.range length).all fun index => (w.read? id (toString index)).isSome
    | _ => false
  | _ => false

/-- Whether the host gets all it looks at of an error besides the message: what may be the cause,
the errors that it stands for, if it stands for several, and a constructor. -/
def isLegible (w : World) (id : ObjectId) (kind : ErrorKind) : Bool :=
  (w.read? id "cause").isSome
    && (kind ≠ .aggregate || (w.read? id "errors").any (·.any w.hasItems))
    && (w.read? id "constructor").any (·.any (w.isConstructor w.searchDepth))

end World

/-- What a member says as the message of an error. An error without the member says nothing. -/
def messageText? : Option Value → Option String
  | none => some ""
  | some (.string units) => (Text.Units.toList? units).map String.ofList
  | some _ => none

/-- An error as the host knows it, whatever name the error goes by. -/
structure Native where
  kind : ErrorKind
  message : String
  site : Option Site
  deriving Repr, DecidableEq

/-- The error in words, but for where it was made. -/
def Native.told (native : Native) : String :=
  let kind := native.kind.name
  if native.message = "" then kind else s!"{kind}: {native.message}"

def Native.text (native : Native) : String :=
  match native.site with
  | some site =>
    let place := site.describe
    s!"{native.told} ({place})"
  | none => native.told

namespace World

/-- What the host knows a value as, if the value is an error. It need not look at the members of an
error that no code has seen. -/
def native? (w : World) : Value → Option Native
  | .object id =>
    match (w.object id).nature with
    | .error kind site =>
      match (w.read? id "message").bind messageText? with
      | some message =>
        if (w.object id).fresh || w.isLegible id kind then some ⟨kind, message, site⟩ else none
      | none => none
    | _ => none
  | _ => none

/-- Whether a value is an error that no code has seen. -/
def isFresh (w : World) : Value → Bool
  | .object id => (w.object id).fresh
  | _ => false

/-- The depth to which objects inside objects are shown. -/
def describeDepth : Nat := 4

def headText (w : World) : Abrupt → String
  | .thrown value _ =>
    match w.native? value, w.isFresh value with
    | some native, true => native.text
    | _, _ => w.describe describeDepth value
  | .stopped excess _ => "RuntimeLimit: " ++ excess.message
  | .exhausted => "RuntimeLimit: out of steps"

def kindLine (w : World) : Abrupt → String
  | .thrown value _ =>
    match w.native? value with
    | some native => native.text ++ "\n"
    | none => ""
  | _ => ""

/-- The lines behind what a failure says: the place where it happened. -/
def traceLine (abrupt : Abrupt) : String :=
  let site := match abrupt with
    | .thrown _ site => site
    | .stopped _ site => site
    | .exhausted => none
  match site with
  | some site =>
    let place := site.describe
    s!"\n    at code ({place})"
  | none => ""

/-- A failure in words, with the place where it happened if it is known. -/
def describeFailure (w : World) (abrupt : Abrupt) : String := w.headText abrupt ++ traceLine abrupt

def diagnostic (w : World) (abrupt : Abrupt) : String :=
  w.kindLine abrupt ++ w.describeFailure abrupt

end World
end Isolate.Script
