import Isolate.Proofs.Script.Law
import Isolate.Script.Program

/-!
# The conduct of builtin functions

Conversions, operators, `JSON.stringify` and the functions of the library call code in between, by a call
that is given to them. They obey every law that the call obeys.
-/

namespace Isolate.Script

variable {α : Type} {R : World → World → Prop} [law : World.IsCodeLaw R] {call : Invoke}

@[grind ←] theorem obeys_primitiveBy (calls : call.Obeys R) (value : Value) (names : List String) :
    Obeys R (primitiveBy call value names) := by
  induction names with
  | nil => exact obeys_failWith _ _
  | cons name names ih =>
    have called := calls.apply
    unfold primitiveBy
    grind

@[grind ←] theorem obeys_toPrimitive (calls : call.Obeys R) (wantsText : Bool) (value : Value) :
    Obeys R (toPrimitive call wantsText value) := by
  unfold toPrimitive
  grind

@[grind ←] theorem obeys_toText (calls : call.Obeys R) (value : Value) :
    Obeys R (toText call value) := .bind (obeys_toPrimitive calls _ _) fun _ => .pure _

@[grind ←] theorem obeys_toNumber (calls : call.Obeys R) (value : Value) :
    Obeys R (toNumber call value) := .bind (obeys_toPrimitive calls _ _) fun _ => .pure _

@[grind ←] theorem obeys_looseEq (calls : call.Obeys R) (a b : Value) :
    Obeys R (looseEq call a b) := by
  unfold looseEq
  grind

@[grind ←] theorem obeys_isLess (calls : call.Obeys R) (orEqual : Bool) (a b : Value) :
    Obeys R (isLess call orEqual a b) := by
  unfold isLess
  grind

@[grind ←] theorem obeys_isGreater (calls : call.Obeys R) (orEqual : Bool) (a b : Value) :
    Obeys R (isGreater call orEqual a b) := by
  unfold isGreater
  grind

@[grind ←] theorem obeys_add (calls : call.Obeys R) (a b : Value) : Obeys R (add call a b) := by
  unfold add
  grind

@[grind ←] theorem obeys_isInstance (value target : Value) : Obeys R (isInstance value target) := by
  refine .bind .get fun w => ?_
  dsimp only
  split
  · split
    · split
      · refine .bind (obeys_getMember _ _) fun found => ?_
        split
        · exact .pure _
        · exact obeys_failWith _ _
      · exact .pure _
    · exact obeys_failWith _ _
  · exact obeys_failWith _ _

@[grind ←] theorem obeys_isMember (calls : call.Obeys R) (name target : Value) :
    Obeys R (isMember call name target) := by
  unfold isMember
  grind

@[grind ←] theorem obeys_onNumbers (calls : call.Obeys R) (op : Number → Number → Number)
    (a b : Value) : Obeys R (onNumbers call op a b) := by
  unfold onNumbers
  grind

@[grind ←] theorem obeys_binary (calls : call.Obeys R) (op : BinaryOp) (a b : Value) :
    Obeys R (op.apply call a b) := by
  unfold BinaryOp.apply
  grind

@[grind ←] theorem obeys_unary (calls : call.Obeys R) (op : UnaryOp) (a : Value) :
    Obeys R (op.apply call a) := by
  unfold UnaryOp.apply
  grind

@[grind ←] theorem obeys_runFunctions (calls : call.Obeys R) (onFulfilled onRejected : Value)
    (result : Option ObjectId) (outcome : Except Value Value) :
    Obeys R (runFunctions call onFulfilled onRejected result outcome) := by
  have called := calls.apply
  unfold runFunctions
  grind

@[grind ←] theorem obeys_runFollow (calls : call.Obeys R) (id : ObjectId) (object method : Value) :
    Obeys R (runFollow call id object method) := by
  have called := calls.apply
  unfold runFollow
  grind

@[grind ←] theorem obeys_replaced (calls : call.Obeys R) (style : Stringify.Style) (holder : Value)
    (name : Text.Units) (value : Value) :
    Obeys R (Stringify.replaced call style holder name value) := by
  have called := calls.apply
  unfold Stringify.replaced
  -- What is shared by several branches is made opaque as soon as it obeys the law; otherwise it would
  -- be split again in every branch that ends with it.
  extract_lets unwrap replace
  have unwraps (value : Value) : Obeys R (unwrap value) := by grind
  clear_value unwrap
  have replaces (value : Value) : Obeys R (replace value) := by grind
  clear_value replace
  grind

@[grind ←] theorem obeys_member (calls : call.Obeys R) (style : Stringify.Style) (fuel : Nat)
    (outer : List ObjectId) (indent : Text.Units) (holder : Value) (name : Text.Units)
    (value : Value) : Obeys R (Stringify.member call style fuel outer indent holder name value) := by
  -- The fuel bounds how deep the text nests; members are written at one level less.
  induction fuel generalizing outer indent holder name value with
  | zero => exact .throw _
  | succ fuel ih =>
    refine .bind (obeys_replaced calls _ _ _ _) fun value => ?_
    split
    · exact .pure _
    · exact .pure _
    · exact .pure _
    · refine .bind .get fun w => ?_
      extract_lets object inner colon writeMembers write
      have writesMembers (names : List Text.Units) : Obeys R (writeMembers names) :=
        .bind (.filterMapM _ fun name => by grind) fun _ => .pure _
      clear_value writeMembers
      have writes (go : PUnit) : Obeys R (write go) := by
        unfold write
        split
        · exact .pure _
        · exact .bind (.mapM _ fun index => by grind) fun _ => .pure _
        · grind
      clear_value write
      grind
    · exact .pure _

@[grind ←] theorem obeys_chosenNames (calls : call.Obeys R) (id : ObjectId) (length : Nat) :
    Obeys R (Stringify.chosenNames call id length) := by
  refine .bind (.filterMapM _ fun index => ?_) fun _ => .pure _
  exact .bind (obeys_getMember _ _) fun found => by grind

@[grind ←] theorem obeys_styleOf (calls : call.Obeys R) (replacer space : Value) :
    Obeys R (Stringify.styleOf call replacer space) := by
  unfold Stringify.styleOf
  extract_lets choose
  have chooses (style : Stringify.Style) : Obeys R (choose style) := by
    unfold choose
    extract_lets finish
    have finishes (space : Value) : Obeys R (finish space) := by grind
    clear_value finish
    grind
  clear_value choose
  grind

@[grind ←] theorem obeys_text (calls : call.Obeys R) (value replacer space : Value) :
    Obeys R (Stringify.text call value replacer space) := by
  unfold Stringify.text
  grind

namespace Library

@[grind ←] theorem obeys_functionText (w : World) (value : Value) :
    Obeys R (functionText w value) := by
  unfold functionText
  grind

@[grind ←] theorem obeys_makeError (calls : call.Obeys R) (kind : ErrorKind)
    (message options : Value) : Obeys R (makeError call kind message options) := by
  refine .bind .get fun w => ?_
  extract_lets here name addCause
  have adds (members : Properties) : Obeys R (addCause members) := by
    unfold addCause
    extract_lets make
    have makes (cause : Properties) : Obeys R (make cause) :=
      .bind (obeys_allocate _) fun _ => .pure _
    clear_value make
    grind
  clear_value addCause
  grind

@[grind ←] theorem obeys_errorText (calls : call.Obeys R) (value : Value) :
    Obeys R (errorText call value) := by
  unfold errorText
  grind

@[grind ←] theorem obeys_lengthOf (calls : call.Obeys R) (id : ObjectId) :
    Obeys R (lengthOf call id) := by
  unfold lengthOf
  grind

@[grind ←] theorem obeys_push (calls : call.Obeys R) (this : Value) (items : List Value) :
    Obeys R (push call this items) := by
  refine .bind (obeys_toObject _) fun id => .bind (obeys_lengthOf calls _) fun length => ?_
  exact .bind (.forIn _ _ fun item _ => .bind (obeys_setMember _ _ _ _) fun _ => .pure _) fun _ =>
    .bind (obeys_setMember _ _ _ _) fun _ => .pure _

@[grind ←] theorem obeys_map (calls : call.Obeys R) (this action owner : Value) :
    Obeys R (map call this action owner) := by
  refine .bind (obeys_toObject _) fun id => .bind (obeys_lengthOf calls _) fun length =>
    .bind (obeys_isCallable _) fun _ => ?_
  extract_lets fill
  have fills (go : PUnit) : Obeys R (fill go) := by
    refine .bind (obeys_newArray _) fun result => .bind (obeys_setLength _ _) fun _ =>
      .bind (.forIn _ _ fun index _ => .bind .get fun w => .bind (obeys_hasMember _ _ _) fun _ => ?_)
        fun _ => .pure _
    split
    · exact .bind (obeys_getMember _ _) fun _ => .bind (calls _ _ _) fun _ =>
        .bind (obeys_defineMember _ _ _) fun _ => .pure _
    · exact .pure _
  clear_value fill
  grind

@[grind ←] theorem obeys_join (calls : call.Obeys R) (this separator : Value) :
    Obeys R (join call this separator) := by
  refine .bind (obeys_toObject _) fun id => .bind (obeys_lengthOf calls _) fun length => ?_
  extract_lets connect
  have connects (separator : Text.Units) : Obeys R (connect separator) :=
    .bind (.mapM _ fun index => by grind) fun _ => .pure _
  clear_value connect
  grind

@[grind ←] theorem obeys_arrayText (calls : call.Obeys R) (this : Value) :
    Obeys R (arrayText call this) := by
  have called := calls.apply
  unfold arrayText
  grind

@[grind ←] theorem obeys_repeatText (calls : call.Obeys R) (this count : Value) :
    Obeys R (repeatText call this count) := by
  unfold repeatText
  extract_lets tooMany multiply
  have fails : Obeys R tooMany := obeys_failWith _ _
  clear_value tooMany
  have multiplies (go : PUnit) : Obeys R (multiply go) := by
    refine .bind (obeys_toText calls _) fun text => .bind (obeys_toNumber calls _) fun count => ?_
    split
    · grind
    · exact fails
  clear_value multiply
  grind

@[grind ←] theorem obeys_unwrapped (value : Value) : Obeys R (unwrapped value) := by
  unfold unwrapped
  grind

@[grind ←] theorem obeys_wrapIf (isNew : Bool) (value : Value) : Obeys R (wrapIf isNew value) := by
  unfold wrapIf
  grind

@[grind ←] theorem obeys_promiseId (this : Value) : Obeys R (promiseId this) := by
  unfold promiseId
  grind

@[grind ←] theorem obeys_makePromise (calls : call.Obeys R) (action : Value) :
    Obeys R (makePromise call action) := by
  refine .bind (obeys_isCallable _) fun _ => ?_
  extract_lets make
  have makes (go : PUnit) : Obeys R (make go) := by
    refine .bind obeys_newPromise fun id => .bind (obeys_resolvingFunctions _) fun functions => ?_
    refine .bind (obeys_attempt (calls _ _ _)) fun outcome => ?_
    split
    · exact .pure _
    · exact .bind (calls _ _ _) fun _ => .pure _
  clear_value make
  grind

@[grind ←] theorem obeys_makeArray (args : List Value) : Obeys R (makeArray args) := by
  unfold makeArray
  split
  · split
    · exact .bind (obeys_newArray _) fun _ => .bind (obeys_setLength _ _) fun _ => .pure _
    · exact obeys_failWith _ _
  · exact .bind (obeys_newArray _) fun _ => .pure _

@[grind ←] theorem obeys_elementsOf (calls : call.Obeys R) (value : Value) :
    Obeys R (elementsOf call value) := by
  unfold elementsOf
  grind

@[grind ←] theorem obeys_bindFunction (this owner : Value) (args : List Value) :
    Obeys R (bindFunction this owner args) := by
  unfold bindFunction
  grind

end Library

@[grind ←] theorem obeys_builtin (calls : call.Obeys R) (isNew : Bool) (this : Value)
    (args : List Value) (builtin : Builtin) : Obeys R (builtin.run call isNew this args) := by
  have called := calls.apply
  unfold Builtin.run
  grind

end Isolate.Script
