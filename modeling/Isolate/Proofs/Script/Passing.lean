import Isolate.Proofs.Script.Tokens
import Isolate.Proofs.Script.Wrapper

/-!
# Modules that pass a value on

A module that exports the value of a name as its default, and nothing else, is read and emitted the same
way whatever the name is: it loads the name, and gives its default export that value. The name is one of
the surroundings, or the module imports the default export of one other module under it.
-/

namespace Isolate.Script

namespace Grammar

section Rules

variable {α β σ : Type} {s s' : Stream}

/-- What follows a rule reads what the rule has left. -/
theorem bind_of_read {rule : Parse α} {next : α → Parse β} {a : α} (read : rule s = .ok (a, s')) :
    (rule >>= next) s = next a s' := by
  change StateT.bind rule next s = _
  rw [StateT.bind, read]
  rfl

variable {round : σ → Parse (Round σ)} {state state' : σ}

theorem repeatAtMost_stop (read : round state s = .ok (.stop state', s')) (fuel : Nat) :
    repeatAtMost (fuel + 1) round state s = .ok (state', s') := by
  rw [repeatAtMost, bind_of_read read]
  rfl

theorem repeatAtMost_more (read : round state s = .ok (.more state', s')) (fuel : Nat) :
    repeatAtMost (fuel + 1) round state s = repeatAtMost fuel round state' s' := by
  rw [repeatAtMost, bind_of_read read]

theorem repeating_eq (round : σ → Parse (Round σ)) (state : σ) (s : Stream) :
    repeating round state s = repeatAtMost (s.rest.length + 1) round state s := by
  have ahead : remaining s = .ok (s.rest.length, s) := rfl
  rw [repeating, bind_of_read ahead]

/-- A loop whose first round stops. -/
theorem repeating_stop (read : round state s = .ok (.stop state', s')) :
    repeating round state s = .ok (state', s') := by
  rw [repeating_eq]
  exact repeatAtMost_stop read _

end Rules

section Ahead

variable {lexeme : Lexeme} {rest : List Lexeme} {last : Nat}

/-- A token that is read can be looked at. -/
theorem peek_of_ne (readable : ∀ place, lexeme.token ≠ .unreadable place) :
    peek ⟨lexeme :: rest, last⟩ = .ok (lexeme, ⟨lexeme :: rest, last⟩) := by
  obtain ⟨token, place, start, stop, newline⟩ := lexeme
  cases token with
  | unreadable place => exact absurd rfl (readable place)
  | word => rfl
  | number => rfl
  | string => rfl
  | punctuator => rfl
  | endOfText => rfl

theorem peek_word {name : String} (isWord : lexeme.token = .word name) :
    peek ⟨lexeme :: rest, last⟩ = .ok (lexeme, ⟨lexeme :: rest, last⟩) := by
  apply peek_of_ne
  rw [isWord]
  intro place
  exact Token.noConfusion

theorem peek_punctuator {sign : Punctuator} (isSign : lexeme.token = .punctuator sign) :
    peek ⟨lexeme :: rest, last⟩ = .ok (lexeme, ⟨lexeme :: rest, last⟩) := by
  apply peek_of_ne
  rw [isSign]
  intro place
  exact Token.noConfusion

theorem advance_word {name : String} (isWord : lexeme.token = .word name) :
    advance ⟨lexeme :: rest, last⟩ = .ok ((), ⟨rest, lexeme.stop⟩) := by
  obtain ⟨token, place, start, stop, newline⟩ := lexeme
  obtain rfl := isWord
  rfl

theorem wordAhead_eq {name : String} (isWord : lexeme.token = .word name) (word : String) :
    wordAhead word ⟨lexeme :: rest, last⟩ = .ok (decide (name = word), ⟨lexeme :: rest, last⟩) := by
  rw [wordAhead, bind_of_read (peek_word isWord), isWord]
  rfl

theorem ahead_eq {sign : Punctuator} (isSign : lexeme.token = .punctuator sign) (other : Punctuator) :
    ahead other ⟨lexeme :: rest, last⟩ = .ok (decide (other = sign), ⟨lexeme :: rest, last⟩) := by
  rw [ahead, bind_of_read (peek_punctuator isSign), isSign]
  rfl

theorem take_of_ne {sign other : Punctuator} (isSign : lexeme.token = .punctuator sign)
    (apart : other ≠ sign) :
    take other ⟨lexeme :: rest, last⟩ = .ok (false, ⟨lexeme :: rest, last⟩) := by
  rw [take, bind_of_read (ahead_eq isSign other), decide_eq_false apart]
  rfl

theorem take_word {name : String} (isWord : lexeme.token = .word name) (sign : Punctuator) :
    take sign ⟨lexeme :: rest, last⟩ = .ok (false, ⟨lexeme :: rest, last⟩) := by
  have notAhead : ahead sign ⟨lexeme :: rest, last⟩ = .ok (false, ⟨lexeme :: rest, last⟩) := by
    rw [ahead, bind_of_read (peek_word isWord), isWord]
    rfl
  rw [take, bind_of_read notAhead]
  rfl

theorem endStatement_semicolon (ends : lexeme.token = .punctuator .semicolon) :
    endStatement ⟨lexeme :: rest, last⟩ = .ok ((), ⟨rest, lexeme.stop⟩) := by
  obtain ⟨token, place, start, stop, newline⟩ := lexeme
  obtain rfl := ends
  rfl

end Ahead

/-- A name is no reserved word. -/
theorem ne_of_isName {ctx : Context} {name : String} (isName : ctx.isName name) {word : String}
    (reserved : reservedWords.contains word) : name ≠ word := by
  rintro rfl
  rw [Context.isName, reserved] at isName
  exact Bool.noConfusion isName

section Name

variable {p : Productions} {ctx : Context} {x : String} {name ending : Lexeme} {last : Nat}
  {rest : List Lexeme} (spelled : name.token = .word x) (isName : ctx.isName x)
  (ends : ending.token = .punctuator .semicolon)

include ends in
theorem accesses_semicolon (calls : Bool) (base : Expr) :
    accesses p ctx calls base ⟨ending :: rest, last⟩ = .ok (base, ⟨ending :: rest, last⟩) := by
  apply repeating_stop
  refine (bind_of_read (peek_punctuator ends)).trans ?_
  rw [ends]
  rfl

include spelled isName ends

theorem primary_name : primary p ctx ⟨name :: ending :: rest, last⟩ =
    .ok (.name name.position x, ⟨ending :: rest, name.stop⟩) := by
  have noThis : x ≠ "this" := ne_of_isName isName rfl
  have noNull : x ≠ "null" := ne_of_isName isName rfl
  have noTrue : x ≠ "true" := ne_of_isName isName rfl
  have noFalse : x ≠ "false" := ne_of_isName isName rfl
  have noFunction : x ≠ "function" := ne_of_isName isName rfl
  obtain ⟨token, place, start, stop, newline⟩ := name
  obtain ⟨token', place', start', stop', newline'⟩ := ending
  obtain rfl := spelled
  obtain rfl := ends
  by_cases isAsync : x = "async"
  · subst isAsync
    rfl
  · rw [primary, bind_of_read (peek_word rfl)]
    simp only [isName]
    rfl

theorem callExpression_name : callExpression p ctx ⟨name :: ending :: rest, last⟩ =
    .ok (.name name.position x, ⟨ending :: rest, name.stop⟩) := by
  have noNew : isWord name.token "new" = false := by
    rw [spelled]
    exact decide_eq_false (ne_of_isName isName rfl)
  have noImport : isWord name.token "import" = false := by
    rw [spelled]
    exact decide_eq_false (ne_of_isName isName rfl)
  have read : memberExpression p ctx ⟨name :: ending :: rest, last⟩ =
      .ok (.name name.position x, ⟨ending :: rest, name.stop⟩) := by
    rw [memberExpression, bind_of_read (peek_word spelled), noNew, noImport]
    exact (bind_of_read (primary_name spelled isName ends)).trans (accesses_semicolon ends false _)
  rw [callExpression, bind_of_read read]
  exact accesses_semicolon ends true _

theorem unaryExpression_name (noAwait : x ≠ "await") :
    unaryExpression p ctx ⟨name :: ending :: rest, last⟩ =
      .ok (.name name.position x, ⟨ending :: rest, name.stop⟩) := by
  have noOp : unaryOp? name.token = none := by
    rw [spelled, unaryOp?.eq_def]
    split
    next same => contradiction
    next same => contradiction
    next same => contradiction
    next same => contradiction
    next same => exact absurd (Token.word.inj same) (ne_of_isName isName rfl)
    next same => exact absurd (Token.word.inj same) (ne_of_isName isName rfl)
    next same => exact absurd (Token.word.inj same) (ne_of_isName isName rfl)
    next => rfl
  have noAwait' : (decide (x = "await") && ctx.awaits) = false := by
    rw [decide_eq_false noAwait]
    rfl
  have read : unaryExpression.behind p ctx ⟨name :: ending :: rest, last⟩ =
      .ok (.name name.position x, ⟨ending :: rest, name.stop⟩) := by
    rw [unaryExpression.behind, bind_of_read (callExpression_name spelled isName ends),
      bind_of_read (peek_punctuator ends), ends]
    cases ending.afterNewline <;> rfl
  rw [unaryExpression, bind_of_read (peek_word spelled), noOp, spelled]
  dsimp only
  rw [noAwait']
  exact read

theorem powerExpression_name (noAwait : x ≠ "await") (fuel : Nat) :
    powerExpression p fuel ctx ⟨name :: ending :: rest, last⟩ =
      .ok (.name name.position x, ⟨ending :: rest, name.stop⟩) := by
  have read : unaryExpression p ctx ⟨name :: ending :: rest, last⟩ =
      .ok (.name name.position x, ⟨ending :: rest, name.stop⟩) :=
    unaryExpression_name spelled isName ends noAwait
  cases fuel with
  | zero => exact read
  | succ fuel =>
    rw [powerExpression, bind_of_read (peek_word spelled), bind_of_read read,
      bind_of_read (ahead_eq ends .power)]
    rfl

/-- No operator of two operands is spelled as a semicolon. -/
theorem binaryExpression_name (noAwait : x ≠ "await") (levels : List (Token → Option BinaryOp))
    (none : ∀ op? ∈ levels, op? (.punctuator .semicolon) = none) :
    binaryExpression p ctx levels ⟨name :: ending :: rest, last⟩ =
      .ok (.name name.position x, ⟨ending :: rest, name.stop⟩) := by
  induction levels with
  | nil => exact powerExpression_name spelled isName ends noAwait _
  | cons op? tighter ih =>
    have first := ih fun op? member => none op? (List.mem_cons_of_mem _ member)
    rw [binaryExpression, bind_of_read first]
    apply repeating_stop
    refine (bind_of_read (peek_punctuator ends)).trans ?_
    rw [ends, none op? List.mem_cons_self]
    rfl

omit spelled isName ends in
theorem logicalExpression_stop {sign : Punctuator} {op : LogicalOp} {operand : Parse (Expr × Bool)}
    {found : Expr × Bool} {s s' : Stream} (read : operand s = .ok (found, s'))
    (stops : take sign s' = .ok (false, s')) :
    logicalExpression sign op operand s = .ok (found, s') := by
  rw [logicalExpression, bind_of_read read]
  exact repeating_stop (bind_of_read stops)

theorem shortCircuit_name (noAwait : x ≠ "await") :
    shortCircuit p ctx ⟨name :: ending :: rest, last⟩ =
      .ok (.name name.position x, ⟨ending :: rest, name.stop⟩) := by
  have none : ∀ op? ∈ binaryLevels ctx, op? (.punctuator .semicolon) = none := by
    intro op? member
    simp only [binaryLevels, List.mem_cons, List.not_mem_nil, or_false] at member
    obtain rfl | rfl | rfl | rfl | rfl | rfl | rfl | rfl := member <;> rfl
  have read : binaryExpression p ctx (binaryLevels ctx) ⟨name :: ending :: rest, last⟩ =
      .ok (.name name.position x, ⟨ending :: rest, name.stop⟩) :=
    binaryExpression_name spelled isName ends noAwait _ none
  have noSign {sign : Punctuator} (apart : sign ≠ .semicolon) :
      take sign ⟨ending :: rest, name.stop⟩ = .ok (false, ⟨ending :: rest, name.stop⟩) :=
    take_of_ne ends apart
  rw [shortCircuit]
  refine (bind_of_read (logicalExpression_stop (logicalExpression_stop (bind_of_read read)
    (noSign (by decide))) (noSign (by decide)))).trans ?_
  refine (bind_of_read (ahead_eq ends .coalesce)).trans ?_
  exact repeating_stop (bind_of_read (noSign (by decide)))

theorem arrowFunction?_name : arrowFunction? p ctx ⟨name :: ending :: rest, last⟩ =
    .ok (none, ⟨name :: ending :: rest, last⟩) := by
  have next : peekNext ⟨name :: ending :: rest, last⟩ =
      .ok (ending.token, ⟨name :: ending :: rest, last⟩) := rfl
  rw [arrowFunction?, bind_of_read (peek_word spelled), spelled]
  refine (bind_of_read next).trans ?_
  rw [ends]
  by_cases isAsync : x = "async"
  · subst isAsync
    rfl
  · simp only [isPunctuator, isAsync]
    rfl

/-- A name in front of a semicolon is read as an expression. -/
theorem assignmentExpression_name (noAwait : x ≠ "await") :
    assignmentExpression p ctx ⟨name :: ending :: rest, last⟩ =
      .ok (.name name.position x, ⟨ending :: rest, name.stop⟩) := by
  rw [assignmentExpression, bind_of_read (peek_word spelled)]
  refine (bind_of_read (arrowFunction?_name spelled isName ends)).trans ?_
  refine (bind_of_read (shortCircuit_name spelled isName ends noAwait)).trans ?_
  refine (bind_of_read (take_of_ne ends (by decide))).trans ?_
  refine (bind_of_read (peek_punctuator ends)).trans ?_
  rw [ends]
  rfl

end Name

def ModuleDraft.passOn (draft : ModuleDraft) (place : Position) (name : String) : ModuleDraft :=
  let statement := Stmt.declare .const [.mk (.name place defaultName) (some (.name place name))]
  { draft with body := statement :: draft.body }.export
    (.own (Text.Units.ofString "default") defaultName)

def ModuleDraft.importDefault (draft : ModuleDraft) (specifier : Text.Units) (name : String) :
    ModuleDraft :=
  { draft.request specifier with
    imports := ⟨specifier, .named (Text.Units.ofString "default"), name⟩ :: draft.imports }

theorem isName_of_isBindable {ctx : Context} {name : String} (h : ctx.isBindable name) :
    ctx.isName name := (Bool.and_eq_true _ _ ▸ h).1

section Items

variable {x : String} {name ending : Lexeme} {last depth : Nat} {rest : List Lexeme}
  {draft : ModuleDraft}

theorem exportDefault_name (spelled : name.token = .word x) (isName : moduleContext.isName x)
    (ends : ending.token = .punctuator .semicolon) :
    exportDefault (productions (depth + 1)) draft ⟨name :: ending :: rest, last⟩ =
      .ok (draft.passOn name.position x, ⟨rest, ending.stop⟩) := by
  have noFunction : x ≠ "function" := ne_of_isName isName rfl
  have noAwait : x ≠ "await" := by
    rintro rfl
    revert isName
    decide
  have next : peekNext ⟨name :: ending :: rest, last⟩ =
      .ok (ending.token, ⟨name :: ending :: rest, last⟩) := rfl
  have value : (do
      let lexeme ← peek
      let value ← (productions (depth + 1)).assignment moduleContext
      endStatement
      let statement := Stmt.declare .const [.mk (.name lexeme.position defaultName) (some value)]
      pure ({ draft with body := statement :: draft.body }.export
        (.own (Text.Units.ofString "default") defaultName)) : Parse ModuleDraft)
      ⟨name :: ending :: rest, last⟩ = .ok (draft.passOn name.position x, ⟨rest, ending.stop⟩) := by
    refine (bind_of_read (peek_word spelled)).trans ?_
    refine (bind_of_read (assignmentExpression_name spelled isName ends noAwait)).trans ?_
    exact bind_of_read (endStatement_semicolon ends)
  rw [exportDefault, bind_of_read (wordAhead_eq spelled "function"), decide_eq_false noFunction]
  refine (bind_of_read (wordAhead_eq spelled "async")).trans ?_
  by_cases isAsync : x = "async"
  · rw [decide_eq_true isAsync]
    refine (bind_of_read next).trans ?_
    rw [ends]
    exact value
  · rw [decide_eq_false isAsync]
    exact value

/-- `export default`, a name and a semicolon are one item of a module. -/
theorem moduleItem_passOn {first second : Lexeme} (opens : first.token = .word "export")
    (defaults : second.token = .word "default") (spelled : name.token = .word x)
    (isName : moduleContext.isName x) (ends : ending.token = .punctuator .semicolon) :
    moduleItem (productions (depth + 1)) draft ⟨first :: second :: name :: ending :: rest, last⟩ =
      .ok (draft.passOn name.position x, ⟨rest, ending.stop⟩) := by
  have next : peekNext ⟨first :: second :: name :: ending :: rest, last⟩ =
      .ok (second.token, ⟨first :: second :: name :: ending :: rest, last⟩) := rfl
  rw [moduleItem, bind_of_read (peek_word opens), bind_of_read next, opens, defaults]
  refine (bind_of_read (advance_word opens)).trans ?_
  refine (bind_of_read (peek_word defaults)).trans ?_
  rw [defaults]
  refine (bind_of_read (advance_word defaults)).trans ?_
  exact exportDefault_name spelled isName ends

/-- The import of a default export is one item of a module. -/
theorem moduleItem_importDefault {first from' specifier : Lexeme} {units : Text.Units}
    (opens : first.token = .word "import") (spelled : name.token = .word x)
    (bindable : moduleContext.isBindable x) (leads : from'.token = .word "from")
    (quoted : specifier.token = .string units) (ends : ending.token = .punctuator .semicolon) :
    moduleItem (productions depth) draft
        ⟨first :: name :: from' :: specifier :: ending :: rest, last⟩ =
      .ok (draft.importDefault units x, ⟨rest, ending.stop⟩) := by
  have next : peekNext ⟨first :: name :: from' :: specifier :: ending :: rest, last⟩ =
      .ok (name.token, ⟨first :: name :: from' :: specifier :: ending :: rest, last⟩) := rfl
  have names : bindingName moduleContext ⟨name :: from' :: specifier :: ending :: rest, first.stop⟩ =
      .ok ((name.position, x), ⟨from' :: specifier :: ending :: rest, name.stop⟩) := by
    rw [bindingName, bind_of_read (peek_word spelled), spelled]
    dsimp only
    rw [bindable]
    exact bind_of_read (advance_word spelled)
  have leads' : fromClause ⟨from' :: specifier :: ending :: rest, name.stop⟩ =
      .ok (units, ⟨ending :: rest, specifier.stop⟩) := by
    rw [fromClause, expectWord]
    refine (bind_of_read ((bind_of_read (wordAhead_eq leads "from")).trans
      (advance_word leads))).trans ?_
    obtain ⟨token, place, start, stop, newline⟩ := specifier
    obtain rfl := quoted
    rfl
  rw [moduleItem, bind_of_read (peek_word opens), bind_of_read next, opens, spelled]
  refine (bind_of_read (advance_word opens)).trans ?_
  rw [importDeclaration, bind_of_read (peek_word spelled), spelled]
  refine (bind_of_read names).trans ?_
  refine (bind_of_read (take_word leads .comma)).trans ?_
  rw [if_neg Bool.false_ne_true]
  refine (bind_of_read rfl).trans ((bind_of_read leads').trans ?_)
  exact bind_of_read (endStatement_semicolon ends)

def moduleItems (p : Productions) : ModuleDraft → Parse (Round ModuleDraft) := fun draft => do
  match (← peek).token with
  | .endOfText => pure (.stop draft)
  | _ => .more <$> moduleItem p draft

theorem moduleItems_of_item {p : Productions} {draft draft' : ModuleDraft} {word : String}
    {first : Lexeme} {rest : List Lexeme} {s' : Stream} (opens : first.token = .word word)
    (read : moduleItem p draft ⟨first :: rest, last⟩ = .ok (draft', s')) :
    moduleItems p draft ⟨first :: rest, last⟩ = .ok (.more draft', s') := by
  rw [moduleItems, bind_of_read (peek_word opens), opens]
  change StateT.map _ _ _ = _
  rw [StateT.map, read]
  rfl

theorem moduleItems_end {p : Productions} {draft : ModuleDraft} {final : Lexeme}
    (ends : final.token = .endOfText) :
    moduleItems p draft ⟨[final], last⟩ = .ok (.stop draft, ⟨[final], last⟩) := by
  obtain ⟨token, place, start, stop, newline⟩ := final
  obtain rfl := ends
  rfl

theorem readModule_eq (text : List Char) :
    readModule text =
      match (repeating (moduleItems (productionsFor (Scanner.tokens text))) {}).run
          ⟨Scanner.tokens text, 0⟩ with
      | .error e => .error e
      | .ok (draft, _) =>
        let body := draft.body.reverse
        if draft.isSound body then
          .ok
            { body, requests := draft.requests.reverse, imports := draft.imports.reverse
              exports := draft.exports.reverse.map (redirect draft.imports)
              awaits := statementsAwait body }
        else .error soundnessFault := rfl

/-- A module is read as its items. -/
theorem readModule_of_items {text : List Char} {draft : ModuleDraft} {s : Stream}
    (read : repeating (moduleItems (productionsFor (Scanner.tokens text))) {}
      ⟨Scanner.tokens text, 0⟩ = .ok (draft, s))
    (sound : draft.isSound draft.body.reverse) :
    readModule text = .ok
      { body := draft.body.reverse, requests := draft.requests.reverse
        imports := draft.imports.reverse
        exports := draft.exports.reverse.map (redirect draft.imports)
        awaits := statementsAwait draft.body.reverse } := by
  have run : (repeating (moduleItems (productionsFor (Scanner.tokens text))) {}).run
      ⟨Scanner.tokens text, 0⟩ = .ok (draft, s) := read
  rw [readModule_eq, run]
  exact if_pos sound

end Items
end Grammar

/-- A module that imports what it names, and whose only statement makes the value of a name its default
export. -/
structure ModuleTree.PassesOn (tree : ModuleTree) (name : String) (imports : List ImportEntry) :
    Prop where
  body : ∃ place, tree.body = [.declare .const
    [.mk (.name place Grammar.defaultName) (some (.name place name))]]
  requests : tree.requests = imports.map ImportEntry.specifier
  imports : tree.imports = imports
  exports : tree.exports = [.own defaultExport defaultBinding]
  awaits : tree.awaits = false

/-- The source of a module that passes a name of its surroundings on. -/
def passingSource (name : String) : String := "export default " ++ name ++ ";"

/-- The source of a module that passes the default export of another one on. -/
def importingSource (name specifier : String) : String :=
  "import " ++ name ++ " from " ++ (Json.string specifier).toText ++ "; " ++ passingSource name

section Sources

open Grammar

variable {x : String}

theorem scans_passingSource (identifier : Text.IsIdentifier x) :
    Scanner.Scans (passingSource x).toList
      [.word "export", .word "default", .word x, .punctuator .semicolon, .endOfText] := by
  have name := Scanner.scans_nil.semicolon.word identifier (by rintro c ⟨⟩; decide)
  have whole : (passingSource x).toList =
      "export".toList ++ ' ' :: ("default".toList ++ ' ' :: (x.toList ++ ';' :: [])) := by
    simp [passingSource]
  rw [whole]
  exact (name.wordSpace (by decide +kernel)).wordSpace (by decide +kernel)

/-- The text that passes a name on is a module that does. -/
theorem readModule_passingSource (identifier : Text.IsIdentifier x)
    (isName : moduleContext.isName x) :
    ∃ tree, readModule (passingSource x).toList = .ok tree ∧ tree.PassesOn x [] := by
  have tokens := (scans_passingSource identifier).tokens
  simp only [List.map_eq_cons_iff, List.map_eq_nil_iff] at tokens
  obtain ⟨first, _, split, opens, second, _, rfl, defaults, name, _, rfl, spelled, ending, _, rfl, ends,
    final, _, rfl, last, rfl⟩ := tokens
  have item : moduleItem (productions (47 + 1)) {} ⟨[first, second, name, ending, final], 0⟩ =
      .ok (({} : ModuleDraft).passOn name.position x, ⟨[final], ending.stop⟩) :=
    moduleItem_passOn opens defaults spelled isName ends
  have read : repeating (moduleItems (productionsFor (Scanner.tokens (passingSource x).toList))) {}
      ⟨Scanner.tokens (passingSource x).toList, 0⟩ =
        .ok (({} : ModuleDraft).passOn name.position x, ⟨[final], ending.stop⟩) := by
    rw [split, repeating_eq]
    exact (repeatAtMost_more (moduleItems_of_item opens item) _).trans
      (repeatAtMost_stop (moduleItems_end last) _)
  exact ⟨_, readModule_of_items read rfl, ⟨⟨_, rfl⟩, rfl, rfl, rfl, rfl⟩⟩

theorem scans_importingSource (identifier : Text.IsIdentifier x) (specifier : String) :
    Scanner.Scans (importingSource x specifier).toList
      [.word "import", .word x, .word "from", .string (Text.Units.ofString specifier),
        .punctuator .semicolon, .word "export", .word "default", .word x, .punctuator .semicolon,
        .endOfText] := by
  have passed := (scans_passingSource identifier).space.semicolon.string specifier
  have whole : (importingSource x specifier).toList =
      "import".toList ++ ' ' :: (x.toList ++ ' ' :: ("from".toList ++ ' ' ::
        (Json.writeString specifier ++ ';' :: ' ' :: (passingSource x).toList))) := by
    simp [importingSource, Json.toText, Json.write]
  rw [whole]
  exact ((passed.wordSpace (by decide +kernel)).wordSpace identifier).wordSpace (by decide +kernel)

/-- The text that passes the default export of another module on is a module that does. -/
theorem readModule_importingSource (identifier : Text.IsIdentifier x)
    (bindable : moduleContext.isBindable x) (specifier : String) :
    ∃ tree, readModule (importingSource x specifier).toList = .ok tree ∧ tree.PassesOn x
      [⟨Text.Units.ofString specifier, .named (Text.Units.ofString "default"), x⟩] := by
  have tokens := (scans_importingSource identifier specifier).tokens
  simp only [List.map_eq_cons_iff, List.map_eq_nil_iff] at tokens
  obtain ⟨opening, _, split, opens, named, _, rfl, names, from', _, rfl, leads, quoted, _, rfl, quotes,
    middle, _, rfl, ends, first, _, rfl, opens', second, _, rfl, defaults, name, _, rfl, spelled, ending,
    _, rfl, ends', final, _, rfl, last, rfl⟩ := tokens
  let units := Text.Units.ofString specifier
  have imports : moduleItem (productions (87 + 1)) {}
      ⟨[opening, named, from', quoted, middle, first, second, name, ending, final], 0⟩ =
      .ok (({} : ModuleDraft).importDefault units x,
        ⟨[first, second, name, ending, final], middle.stop⟩) :=
    moduleItem_importDefault opens names bindable leads quotes ends
  have passes : moduleItem (productions (87 + 1)) (({} : ModuleDraft).importDefault units x)
      ⟨[first, second, name, ending, final], middle.stop⟩ =
      .ok ((({} : ModuleDraft).importDefault units x).passOn name.position x,
        ⟨[final], ending.stop⟩) :=
    moduleItem_passOn opens' defaults spelled (isName_of_isBindable bindable) ends'
  have read : repeating
      (moduleItems (productionsFor (Scanner.tokens (importingSource x specifier).toList))) {}
      ⟨Scanner.tokens (importingSource x specifier).toList, 0⟩ =
        .ok ((({} : ModuleDraft).importDefault units x).passOn name.position x,
          ⟨[final], ending.stop⟩) := by
    rw [split, repeating_eq]
    exact (repeatAtMost_more (moduleItems_of_item opens imports) _).trans
      ((repeatAtMost_more (moduleItems_of_item opens' passes) _).trans
        (repeatAtMost_stop (moduleItems_end last) _))
  have apart : x ≠ defaultName := by
    rintro rfl
    revert identifier
    decide +kernel
  have sound : ((({} : ModuleDraft).importDefault units x).passOn name.position x).isSound
      ((({} : ModuleDraft).importDefault units x).passOn name.position x).body.reverse := by
    have once : hasRepeated [x, defaultName] = false := by simp [hasRepeated, apart]
    change (!hasRepeated [x, defaultName] && !shareName [x, defaultName] []
      && [defaultName].all [x, defaultName].contains && true && true) = true
    rw [once]
    simp [shareName]
  have own : ([⟨units, .named (Text.Units.ofString "default"), x⟩] : List ImportEntry).find?
      (·.localName == defaultName) = none := by
    simp [apart]
  refine ⟨_, readModule_of_items read sound, ⟨⟨_, rfl⟩, rfl, rfl, ?_, rfl⟩⟩
  change [redirect [⟨units, .named (Text.Units.ofString "default"), x⟩]
    (.own (Text.Units.ofString "default") defaultName)] = _
  rw [redirect, own]
  rfl

end Sources
structure FunctionCode.PassesOn (code : FunctionCode) (name : String) : Prop where
  vars : code.vars = []
  functions : code.functions = []
  lexicals : code.lexicals = [(defaultBinding, .constant)]
  instrs : code.instrs = #[.loadName name, .initName defaultBinding, .push .undefined, .ret]

/-- A module that passes a name on is emitted as code that does. -/
theorem ModuleTree.PassesOn.code {tree : ModuleTree} {name : String} {imports : List ImportEntry}
    (h : tree.PassesOn name imports) (text : List Char) :
    ∃ code, (tree.code text).functions.back? = some code ∧ code.PassesOn name := by
  obtain ⟨place, same⟩ := h.body
  let env : Surroundings := { isStrict := true, text }
  let own : Emit Unit := do
    emitStmts env tree.body
    env.emits [.push .undefined, .ret]
  obtain ⟨code, back, vars, lexicals, functions, instrs⟩ := back?_unitOf text
    { name := none, params := [], isStrict := true, isAsync := tree.awaits } [] none
    (varNames tree.body) (topLexicalBindings tree.body) (emitDeclared env tree.body) own
  have declared : emitDeclared env tree.body = pure [] := by rw [same]; rfl
  have emitted : (own.run {}).2.instrs =
      #[.loadName name, .initName defaultBinding, .push .undefined, .ret] := by
    have statements : own = (do
        Expr.emit env (Text.Units.ofString "default") (.name place name)
        env.emit (.initName Grammar.defaultName)
        env.emits [.push .undefined, .ret]) := by
      change (do
        emitStmts env tree.body
        env.emits [.push .undefined, .ret]) = _
      rw [same]
      rfl
    have value : Expr.emit env (Text.Units.ofString "default") (.name place name) = (do
        if name = "arguments" then modify fun b => { b with usesArguments := true }
        env.emit (.loadName name)) := rfl
    rw [statements, value]
    by_cases isArguments : name = "arguments"
    · rw [if_pos isArguments]
      rfl
    · rw [if_neg isArguments]
      rfl
  rw [declared] at functions instrs
  refine ⟨code, back, ?_, functions, ?_, ?_⟩
  · rw [vars, same]
    rfl
  · rw [lexicals, same]
    rfl
  · rw [instrs]
    change (own.run {}).2.instrs.map _ = _
    rw [emitted]
    simp only [List.map_toArray, List.map_cons, List.map_nil, Instr.resolve]

end Isolate.Script
