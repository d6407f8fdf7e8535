import Isolate.Script.Grammar.Expression

/-!
# Statements

The rules for bindings and statements, the knot that ties all rules together, and the reading of a
whole script. A statement ends by a semicolon or where a line, a block or the text ends.
-/

namespace Isolate.Script.Grammar

/-- Read the elements of an array pattern behind its opening bracket. -/
def arrayPattern (p : Productions) (ctx : Context) : Parse Pattern := do
  let items ← repeating (fun (items : List (Option Pattern)) => do
    if ← take .closeBracket then pure (.stop items)
    else if ← take .comma then pure (.more (none :: items))
    else
      let item ← p.pattern ctx
      let items := some item :: items
      if ← take .comma then pure (.more items)
      else
        let _ ← expect .closeBracket
        pure (.stop items)) []
  pure (.array items.reverse)

def memberPattern (p : Productions) (ctx : Context) : Parse (Text.Units × Pattern) := do
  if isPunctuator (← peekNext) .colon then
    let name ← fixedName
    advance
    let pattern ← p.pattern ctx
    pure (name, pattern)
  else
    let (place, name) ← bindingName ctx
    pure (Text.Units.ofString name, .name place name)

/-- Read the members of an object pattern behind its opening brace. -/
def objectPattern (p : Productions) (ctx : Context) : Parse Pattern := do
  let members ← repeating (fun (members : List (Text.Units × Pattern)) => do
    if ← take .closeBrace then pure (.stop members)
    else
      let member ← memberPattern p ctx
      let members := member :: members
      if ← take .comma then pure (.more members)
      else
        let _ ← expect .closeBrace
        pure (.stop members)) []
  pure (.object members.reverse)

def bindingPattern (p : Productions) (ctx : Context) : Parse Pattern := do
  if ← take .openBracket then arrayPattern p ctx
  else if ← take .openBrace then objectPattern p ctx
  else
    let (place, name) ← bindingName ctx
    pure (.name place name)

/-- Read the binding of a declaration and its first value. A constant and a pattern need one. -/
def declarator (p : Productions) (ctx : Context) (kind : DeclarationKind) : Parse Declarator := do
  let lexeme ← peek
  let pattern ←
    if kind ≠ .var && isWord lexeme.token "let" then failAt lexeme else p.pattern ctx
  if ← take .assign then
    let value ← p.assignment ctx
    pure (.mk pattern (some value))
  else
    match kind, pattern with
    | .const, _ => unexpected
    | _, .name _ _ => pure (.mk pattern none)
    | _, _ => unexpected

def declaration (p : Productions) (ctx : Context) (kind : DeclarationKind) : Parse Stmt := do
  let first ← declarator p ctx kind
  let bindings ← repeating (fun (bindings : List Declarator) => do
    if ← take .comma then
      let binding ← declarator p ctx kind
      pure (.more (binding :: bindings))
    else pure (.stop bindings)) [first]
  pure (.declare kind bindings.reverse)

def declarationKind? : Token → Option DeclarationKind
  | .word "var" => some .var
  | .word "let" => some .letting
  | .word "const" => some .const
  | _ => none

/-- Read a function declaration; its keywords are ahead. Without a name it is refused unless it may
be nameless. -/
def functionDeclaration (p : Productions) (ctx : Context) (mayBeNameless : Bool) : Parse Stmt := do
  let first ← peek
  let isAsync ← takeWord "async"
  expectWord "function"
  let isGenerator ← take .star
  let nameless ← ahead .openParen
  let name ←
    if nameless && mayBeNameless then pure none
    else do
      let (_, name) ← bindingName ctx
      pure (some name)
  let (head, body) ← functionTail p ctx
    { name, params := [], isAsync, isGenerator, start := first.start }
  pure (.function first.position head body)

def condition (p : Productions) (ctx : Context) : Parse Expr := do
  let _ ← expect .openParen
  let test ← p.expression { ctx with allowsIn := true }
  let _ ← expect .closeParen
  pure test

/-- Read an expression in front of a punctuator, if there is one, and the punctuator. -/
def optionalExpression (p : Productions) (ctx : Context) (ending : Punctuator) :
    Parse (Option Expr) := do
  if ← take ending then pure none
  else
    let value ← p.expression { ctx with allowsIn := true }
    let _ ← expect ending
    pure (some value)

/-- Read a `for` loop behind its keyword. -/
def forLoop (p : Productions) (ctx : Context) : Parse Stmt := do
  let _ ← expect .openParen
  let first ← peek
  let start ←
    match declarationKind? first.token with
    | some kind => do
      advance
      let start ← declaration p { ctx with allowsIn := false } kind
      let _ ← expect .semicolon
      pure (some start)
    | none =>
      if ← take .semicolon then pure none
      else do
        let value ← p.expression { ctx with allowsIn := false }
        let _ ← expect .semicolon
        pure (some (.expression value))
  let test ← optionalExpression p ctx .semicolon
  let update ← optionalExpression p ctx .closeParen
  let body ← p.statement ctx
  pure (.forLoop start test update body)

def block (p : Productions) (ctx : Context) : Parse (List Stmt) := do
  let _ ← expect .openBrace
  statementsToBrace p ctx

/-- Read a `try` statement behind its keyword. -/
def tryStatement (p : Productions) (ctx : Context) : Parse Stmt := do
  let body ← block p ctx
  let handler ←
    if ← takeWord "catch" then
      let param ←
        if ← take .openParen then do
          let param ← p.pattern ctx
          let _ ← expect .closeParen
          pure (some param)
        else pure none
      let body ← block p ctx
      pure (some (.mk param body))
    else pure none
  let finalizer ←
    if ← takeWord "finally" then some <$> block p ctx
    else if handler.isSome then pure none
    else unexpected
  pure (.tries body handler finalizer)

/-- Read the label of a jump behind its keyword, on the same line. -/
def jumpLabel (ctx : Context) : Parse (Option String) := do
  let lexeme ← peek
  match lexeme.token with
  | .word w =>
    if !lexeme.afterNewline && ctx.isName w then
      advance
      endStatement
      pure (some w)
    else do
      endStatement
      pure none
  | _ => do
    endStatement
    pure none

/-- Read the value of a `return` behind its keyword, on the same line. -/
def returnValue (p : Productions) (ctx : Context) : Parse Stmt := do
  let lexeme ← peek
  let isBare :=
    lexeme.afterNewline
      || match lexeme.token with
        | .punctuator .semicolon => true
        | .punctuator .closeBrace => true
        | .endOfText => true
        | _ => false
  if isBare then
    endStatement
    pure (.returns none)
  else
    let value ← p.expression { ctx with allowsIn := true }
    endStatement
    pure (.returns (some value))

def expressionStatement (p : Productions) (ctx : Context) : Parse Stmt := do
  let lexeme ← peek
  let isLabel ←
    match lexeme.token with
    | .word w => do pure (ctx.isName w && isPunctuator (← peekNext) .colon)
    | _ => pure false
  match lexeme.token, isLabel with
  | .word w, true =>
    advance
    advance
    let body ← p.statement ctx
    pure (.labelled w body)
  | _, _ =>
    let value ← p.expression { ctx with allowsIn := true }
    endStatement
    pure (.expression value)

/-- Read a statement that starts with a word. -/
def wordStatement (p : Productions) (ctx : Context) (lexeme : Lexeme) (word : String) :
    Parse Stmt := do
  match word with
  | "if" =>
    advance
    let test ← condition p ctx
    let yes ← p.statement ctx
    let no ← if ← takeWord "else" then some <$> p.statement ctx else pure none
    pure (.ifElse test yes no)
  | "for" => do advance; forLoop p ctx
  | "while" =>
    advance
    let test ← condition p ctx
    let body ← p.statement ctx
    pure (.whileLoop test body)
  | "do" =>
    advance
    let body ← p.statement ctx
    expectWord "while"
    let test ← condition p ctx
    let _ ← take .semicolon
    pure (.doWhile body test)
  | "break" => do advance; .breaks <$> jumpLabel ctx
  | "continue" => do advance; .continues <$> jumpLabel ctx
  | "return" => if ctx.inFunction then do advance; returnValue p ctx else failAt lexeme
  | "throw" =>
    advance
    let first ← peek
    if first.afterNewline then failAt first
    else
      let value ← p.expression { ctx with allowsIn := true }
      endStatement
      pure (.throws value)
  | "try" => do advance; tryStatement p ctx
  | "function" => functionDeclaration p ctx false
  | "async" =>
    if isWord (← peekNext) "function" then functionDeclaration p ctx false
    else expressionStatement p ctx
  | "debugger" =>
    advance
    endStatement
    pure .empty
  | _ =>
    match declarationKind? lexeme.token with
    | some kind =>
      advance
      let statement ← declaration p { ctx with allowsIn := true } kind
      endStatement
      pure statement
    | none => expressionStatement p ctx

def statement (p : Productions) (ctx : Context) : Parse Stmt := do
  let lexeme ← peek
  match lexeme.token with
  | .punctuator .openBrace => .block <$> block p ctx
  | .punctuator .semicolon => do advance; pure .empty
  | .word w => wordStatement p ctx lexeme w
  | .endOfText => unexpected
  | _ => expressionStatement p ctx

/-- The rules with at most `depth` uses of each other inside each other. -/
def productions : (depth : Nat) → Productions
  | 0 =>
    { expression := fun _ => unexpected, assignment := fun _ => unexpected
      unary := fun _ => unexpected, member := fun _ => unexpected
      statement := fun _ => unexpected, pattern := fun _ => unexpected }
  | depth + 1 =>
    { expression := fun ctx s => fullExpression (productions depth) ctx s
      assignment := fun ctx s => assignmentExpression (productions depth) ctx s
      unary := fun ctx s => unaryExpression (productions depth) ctx s
      member := fun ctx s => memberExpression (productions depth) ctx s
      statement := fun ctx s => statement (productions depth) ctx s
      pattern := fun ctx s => bindingPattern (productions depth) ctx s }

/-- Rules deep enough for a text of so many tokens: between two tokens a rule uses fewer than eight
others. -/
def productionsFor (tokens : List Lexeme) : Productions := productions (8 * tokens.length + 8)

def statementsToEnd (p : Productions) (ctx : Context) : Parse (List Stmt) := do
  let body ← repeating (fun (body : List Stmt) => do
    match (← peek).token with
    | .endOfText => pure (.stop body)
    | _ =>
      let statement ← p.statement ctx
      pure (.more (statement :: body))) []
  pure body.reverse

def readScript (text : List Char) (isStrict : Bool) : Except Fault ScriptTree :=
  let tokens := Scanner.tokens text
  let isStrict := isStrict || startsStrict tokens
  match (statementsToEnd (productionsFor tokens) { isStrict }).run ⟨tokens, 0⟩ with
  | .ok (body, _) => .ok ⟨body, isStrict⟩
  | .error e => .error e

end Isolate.Script.Grammar
