import Isolate.Script.Grammar.Basic

/-!
# Expressions

The rules for expressions, from the names and literals at the bottom to assignments and sequences at
the top. A parenthesis that is closed in front of an arrow holds the parameters of an arrow function.
-/

namespace Isolate.Script.Grammar

/-- Read the parameters of a function behind their opening parenthesis. -/
def parameters (p : Productions) (ctx : Context) : Parse (List Pattern) := do
  let params ← repeating (fun (params : List Pattern) => do
    if ← take .closeParen then pure (.stop params)
    else
      let param ← p.pattern ctx
      let params := param :: params
      if ← take .comma then pure (.more params)
      else
        let _ ← expect .closeParen
        pure (.stop params)) []
  pure params.reverse

def statementsToBrace (p : Productions) (ctx : Context) : Parse (List Stmt) := do
  let body ← repeating (fun (body : List Stmt) => do
    if ← take .closeBrace then pure (.stop body)
    else
      let statement ← p.statement ctx
      pure (.more (statement :: body))) []
  pure body.reverse

def bodyContext (ctx : Context) (isAsync isStrict : Bool) : Context :=
  { ctx with isStrict, awaits := isAsync, yields := false, inFunction := true, allowsIn := true }

/-- Read the body of a function with its braces. The result says whether it is strict. -/
def functionBody (p : Productions) (ctx : Context) (isAsync : Bool) : Parse (List Stmt × Bool) := do
  let _ ← expect .openBrace
  let isStrict := ctx.isStrict || startsStrict (← get).rest
  let body ← statementsToBrace p (bodyContext ctx isAsync isStrict)
  pure (body, isStrict)

/-- Read a function behind its name. A generator may only be one that does nothing. -/
def functionTail (p : Productions) (ctx : Context) (head : FunctionHead) :
    Parse (FunctionHead × List Stmt) := do
  let _ ← expect .openParen
  if head.isGenerator then
    let _ ← expect .closeParen
    let _ ← expect .openBrace
    let _ ← expect .closeBrace
    let stop := (← get).last
    pure ({ head with isStrict := ctx.isStrict, stop }, [])
  else
    let params ← parameters p (bodyContext ctx head.isAsync ctx.isStrict)
    let (body, isStrict) ← functionBody p ctx head.isAsync
    let stop := (← get).last
    pure ({ head with params, isStrict, stop }, body)

/-- Read a function expression; the keywords that start it are ahead. -/
def functionExpression (p : Productions) (ctx : Context) : Parse Expr := do
  let first ← peek
  let isAsync ← takeWord "async"
  expectWord "function"
  let isGenerator ← take .star
  let lexeme ← peek
  let inner := { ctx with awaits := isAsync, yields := isGenerator }
  let name ←
    match lexeme.token with
    | .word _ => do
      let (_, name) ← bindingName inner
      pure (some name)
    | _ => pure none
  let (head, body) ← functionTail p ctx
    { name, params := [], isAsync, isGenerator, start := first.start }
  pure (.function first.position head body)

/-- Read an arrow function behind its parameters. -/
def arrowTail (p : Productions) (ctx : Context) (first : Lexeme) (isAsync : Bool)
    (params : List Pattern) : Parse Expr := do
  let _ ← expect .arrow
  let head : FunctionHead :=
    { name := none, params, isAsync, isArrow := true, start := first.start }
  if ← ahead .openBrace then
    let (body, isStrict) ← functionBody p ctx isAsync
    let stop := (← get).last
    pure (.function first.position { head with isStrict, stop } body)
  else
    let value ← p.assignment
      { bodyContext ctx isAsync ctx.isStrict with allowsIn := ctx.allowsIn }
    let stop := (← get).last
    pure (.function first.position { head with isStrict := ctx.isStrict, stop }
      [.returns (some value)])

/-- Read an arrow function if one is ahead. -/
def arrowFunction? (p : Productions) (ctx : Context) : Parse (Option Expr) := do
  let first ← peek
  match first.token with
  | .punctuator .openParen =>
    if closesBeforeArrow 0 (← get).rest then
      advance
      let params ← parameters p ctx
      some <$> arrowTail p ctx first false params
    else pure none
  | .word w =>
    let second ← peekNext
    if isPunctuator second .arrow then
      let (place, name) ← bindingName ctx
      some <$> arrowTail p ctx first false [.name place name]
    else if w = "async" then
      match second with
      | .punctuator .openParen =>
        if closesBeforeArrow 0 ((← get).rest.drop 1) then
          advance
          advance
          let params ← parameters p { ctx with awaits := true }
          some <$> arrowTail p ctx first true params
        else pure none
      | .word param =>
        if ctx.isBindable param && !isWord second "function" then
          advance
          let (place, name) ← bindingName { ctx with awaits := true }
          some <$> arrowTail p ctx first true [.name place name]
        else pure none
      | .endOfText => do
        advance
        unexpected
      | _ => pure none
    else pure none
  | _ => pure none

/-- Read the elements of an array behind its opening bracket. -/
def arrayTail (p : Productions) (ctx : Context) (place : Position) : Parse Expr := do
  let items ← repeating (fun (items : List Expr) => do
    if ← take .closeBracket then pure (.stop items)
    else if ← take .comma then pure (.more (.hole :: items))
    else
      let item ← p.assignment { ctx with allowsIn := true }
      let items := item :: items
      if ← take .comma then pure (.more items)
      else
        let _ ← expect .closeBracket
        pure (.stop items)) []
  pure (.array place items.reverse)

def methodTail (p : Productions) (ctx : Context) (first : Lexeme) (name : Option String)
    (isAsync isGenerator : Bool) : Parse Expr := do
  let (head, body) ← functionTail p ctx
    { name := none, params := [], isAsync, isGenerator, isMethod := true, start := first.start }
  pure (.function first.position { head with name } body)

/-- Read a member of an object behind its name: its value or the rest of a method. -/
def memberValue (p : Productions) (ctx : Context) (first : Lexeme) : Parse (Expr × Bool) := do
  if ← ahead .openParen then
    let method ← methodTail p ctx first none false false
    pure (method, false)
  else
    let _ ← expect .colon
    let value ← p.assignment { ctx with allowsIn := true }
    pure (value, true)

def fixedName? : Token → Option Text.Units
  | .word w => some (Text.Units.ofString w)
  | .string units => some units
  | .number n => some n.toUnits
  | _ => none

/-- Read the name of a member that is not in brackets. -/
def fixedName : Parse Text.Units := do
  let lexeme ← peek
  match fixedName? lexeme.token with
  | some name => do
    advance
    pure name
  | none => failAt lexeme

def objectMember (p : Productions) (ctx : Context) : Parse Member := do
  let first ← peek
  let second ← peekNext
  let isName (token : Token) : Bool :=
    (fixedName? token).isSome || isPunctuator token .openBracket
  if isPunctuator first.token .openBracket then
    advance
    let name ← p.assignment { ctx with allowsIn := true }
    let _ ← expect .closeBracket
    let (value, _) ← memberValue p ctx first
    pure (.computed name value)
  else if isPunctuator first.token .star then
    advance
    let name ← fixedName
    let value ← methodTail p ctx first none false true
    pure (.fixed name value)
  else if isWord first.token "async" && (isName second || isPunctuator second .star) then
    advance
    let isGenerator ← take .star
    let name ← fixedName
    let value ← methodTail p ctx first none true isGenerator
    pure (.fixed name value)
  else
    let name ← fixedName
    let isShort ← do
      let lexeme ← peek
      pure (isPunctuator lexeme.token .comma || isPunctuator lexeme.token .closeBrace)
    match first.token, isShort with
    | .word w, true =>
      if ctx.isName w then pure (.fixed name (.name first.position w)) else failAt first
    | _, _ =>
      let (value, isPlain) ← memberValue p ctx first
      if isPlain && name = Text.Units.ofString "__proto__" then pure (.proto value)
      else pure (.fixed name value)

/-- Read the members of an object behind its opening brace. -/
def objectTail (p : Productions) (ctx : Context) (place : Position) : Parse Expr := do
  let members ← repeating (fun (members : List Member) => do
    if ← take .closeBrace then pure (.stop members)
    else
      let member ← objectMember p ctx
      let members := member :: members
      if ← take .comma then pure (.more members)
      else
        let _ ← expect .closeBrace
        pure (.stop members)) []
  pure (.object place members.reverse)

/-- Read an expression without operators. -/
def primary (p : Productions) (ctx : Context) : Parse Expr := do
  let lexeme ← peek
  let place := lexeme.position
  match lexeme.token with
  | .number value => do advance; pure (.literal place (.number value))
  | .string value => do advance; pure (.literal place (.string value))
  | .punctuator .openParen =>
    advance
    let value ← p.expression { ctx with allowsIn := true }
    let _ ← expect .closeParen
    pure value
  | .punctuator .openBracket => do advance; arrayTail p ctx place
  | .punctuator .openBrace => do advance; objectTail p ctx place
  | .word "this" => do advance; pure (.this place)
  | .word "null" => do advance; pure (.literal place .null)
  | .word "true" => do advance; pure (.literal place (.bool true))
  | .word "false" => do advance; pure (.literal place (.bool false))
  | .word "function" => functionExpression p ctx
  | .word "async" =>
    if isWord (← peekNext) "function" then functionExpression p ctx
    else do advance; pure (.name place "async")
  | .word w => if ctx.isName w then do advance; pure (.name place w) else failAt lexeme
  | _ => failAt lexeme

/-- Read arguments behind their opening parenthesis. -/
def arguments (p : Productions) (ctx : Context) : Parse (List Expr) := do
  let args ← repeating (fun (args : List Expr) => do
    if ← take .closeParen then pure (.stop args)
    else
      let arg ← p.assignment { ctx with allowsIn := true }
      let args := arg :: args
      if ← take .comma then pure (.more args)
      else
        let _ ← expect .closeParen
        pure (.stop args)) []
  pure args.reverse

/-- Read accesses to members, and calls if they are allowed, behind an expression. -/
def accesses (p : Productions) (ctx : Context) (calls : Bool) (base : Expr) : Parse Expr :=
  repeating (fun (base : Expr) => do
    let lexeme ← peek
    match lexeme.token with
    | .punctuator .dot =>
      advance
      let name ← peek
      match name.token with
      | .word w => do
        advance
        pure (.more (.member name.position base (Text.Units.ofString w)))
      | _ => failAt name
    | .punctuator .openBracket =>
      advance
      let first ← peek
      let index ← p.expression { ctx with allowsIn := true }
      let _ ← expect .closeBracket
      pure (.more (.index first.position base index))
    | .punctuator .openParen =>
      if calls then
        advance
        let args ← arguments p ctx
        pure (.more (.call lexeme.position base args))
      else pure (.stop base)
    | _ => pure (.stop base)) base

def importExpression (p : Productions) (ctx : Context) : Parse Expr := do
  let lexeme ← next
  if ← take .dot then
    let name ← peek
    if ctx.isModule && isWord name.token "meta" then
      advance
      pure (.importMeta lexeme.position)
    else failAt name
  else
    let _ ← expect .openParen
    let specifier ← p.assignment { ctx with allowsIn := true }
    let _ ← take .comma
    let _ ← expect .closeParen
    pure (.importCall lexeme.position specifier)

/-- Read an expression with its accesses to members and without calls. -/
def memberExpression (p : Productions) (ctx : Context) : Parse Expr := do
  let lexeme ← peek
  let base ←
    if isWord lexeme.token "new" then
      advance
      let callee ← p.member ctx
      if ← take .openParen then
        let args ← arguments p ctx
        pure (.construct lexeme.position callee args)
      else pure (.construct lexeme.position callee [])
    else if isWord lexeme.token "import" then importExpression p ctx
    else primary p ctx
  accesses p ctx false base

def callExpression (p : Productions) (ctx : Context) : Parse Expr := do
  let base ← memberExpression p ctx
  accesses p ctx true base

def isTarget (ctx : Context) : Expr → Bool
  | .name _ name => !(ctx.isStrict && (name == "eval" || name == "arguments"))
  | .member _ _ _ => true
  | .index _ _ _ => true
  | _ => false

def unaryOp? : Token → Option UnaryOp
  | .punctuator .minus => some .neg
  | .punctuator .plus => some .plus
  | .punctuator .logicalNot => some .not
  | .punctuator .bitNot => some .bitNot
  | .word "typeof" => some .typeof
  | .word "void" => some .void
  | .word "delete" => some .delete
  | _ => none

/-- Read an operand with what stands directly before and behind it. -/
def unaryExpression (p : Productions) (ctx : Context) : Parse Expr := do
  let lexeme ← peek
  let place := lexeme.position
  match unaryOp? lexeme.token with
  | some op =>
    advance
    let operand ← p.unary ctx
    match op, operand, ctx.isStrict with
    | .delete, .name _ _, true => failAt lexeme
    | _, _, _ => pure (.unary place op operand)
  | none =>
    match lexeme.token with
    | .punctuator .increment => do
      advance
      let target ← p.unary ctx
      if isTarget ctx target then pure (.update place true true target) else failAtPlace place
    | .punctuator .decrement => do
      advance
      let target ← p.unary ctx
      if isTarget ctx target then pure (.update place true false target) else failAtPlace place
    | .word w =>
      if w = "await" && ctx.awaits then
        advance
        let operand ← p.unary ctx
        pure (.await place operand)
      else behind p ctx
    | _ => behind p ctx
where
  /-- Read an operand with an operator behind it. -/
  behind (p : Productions) (ctx : Context) : Parse Expr := do
    let target ← callExpression p ctx
    let lexeme ← peek
    if lexeme.afterNewline then pure target
    else
      match lexeme.token with
      | .punctuator .increment =>
        if isTarget ctx target then do
          advance
          pure (.update lexeme.position false true target)
        else failAt lexeme
      | .punctuator .decrement =>
        if isTarget ctx target then do
          advance
          pure (.update lexeme.position false false target)
        else failAt lexeme
      | _ => pure target

/-- Read a power; it groups to the right. -/
def powerExpression (p : Productions) : (fuel : Nat) → Context → Parse Expr
  | 0, ctx => unaryExpression p ctx
  | fuel + 1, ctx => do
    let first ← peek
    let base ← unaryExpression p ctx
    if ← ahead .power then
      if (unaryOp? first.token).isSome then unexpected
      else
        advance
        let exponent ← powerExpression p fuel ctx
        pure (.binary .pow base exponent)
    else pure base

/-- The operators of two operands, level by level, the loosest first. -/
def binaryLevels (ctx : Context) : List (Token → Option BinaryOp) :=
  [ fun | .punctuator .bitOr => some .bitOr | _ => none,
    fun | .punctuator .bitXor => some .bitXor | _ => none,
    fun | .punctuator .bitAnd => some .bitAnd | _ => none,
    fun
      | .punctuator .equal => some .equal
      | .punctuator .notEqual => some .notEqual
      | .punctuator .strictEqual => some .strictEqual
      | .punctuator .strictNotEqual => some .strictNotEqual
      | _ => none,
    fun
      | .punctuator .less => some .less
      | .punctuator .greater => some .greater
      | .punctuator .lessEqual => some .lessEqual
      | .punctuator .greaterEqual => some .greaterEqual
      | .word "instanceof" => some .isInstance
      | .word "in" => if ctx.allowsIn then some .isIn else none
      | _ => none,
    fun
      | .punctuator .shiftLeft => some .shiftLeft
      | .punctuator .shiftRight => some .shiftRight
      | .punctuator .shiftRightUnsigned => some .shiftRightUnsigned
      | _ => none,
    fun
      | .punctuator .plus => some .add
      | .punctuator .minus => some .sub
      | _ => none,
    fun
      | .punctuator .star => some .mul
      | .punctuator .slash => some .div
      | .punctuator .percent => some .mod
      | _ => none ]

/-- Read an expression with the operators of the given levels; each groups to the left. -/
def binaryExpression (p : Productions) (ctx : Context) :
    List (Token → Option BinaryOp) → Parse Expr
  | [] => do powerExpression p (← remaining) ctx
  | op? :: tighter => do
    let first ← binaryExpression p ctx tighter
    repeating (fun (left : Expr) => do
      match op? (← peek).token with
      | some op =>
        advance
        let right ← binaryExpression p ctx tighter
        pure (.more (.binary op left right))
      | none => pure (.stop left)) first

/-- Read operands joined by one logical operator. The result says whether there was one. -/
def logicalExpression (sign : Punctuator) (op : LogicalOp) (operand : Parse (Expr × Bool)) :
    Parse (Expr × Bool) := do
  let first ← operand
  repeating (fun ((left, joined) : Expr × Bool) => do
    if ← take sign then
      let (right, _) ← operand
      pure (.more (.logical op left right, true))
    else pure (.stop (left, joined))) first

/-- Read an expression with logical operators. `??` does not mix with the others. -/
def shortCircuit (p : Productions) (ctx : Context) : Parse Expr := do
  let operand : Parse (Expr × Bool) := do
    let value ← binaryExpression p ctx (binaryLevels ctx)
    pure (value, false)
  let (left, joined) ←
    logicalExpression .logicalOr .or (logicalExpression .logicalAnd .and operand)
  if (← ahead .coalesce) && joined then unexpected
  else
    repeating (fun (left : Expr) => do
      if ← take .coalesce then
        let (right, _) ← operand
        pure (.more (.logical .coalesce left right))
      else pure (.stop left)) left

def assignOp? : Token → Option AssignOp
  | .punctuator .assign => some .replace
  | .punctuator .plusAssign => some (.combine .add)
  | .punctuator .minusAssign => some (.combine .sub)
  | .punctuator .starAssign => some (.combine .mul)
  | .punctuator .slashAssign => some (.combine .div)
  | .punctuator .percentAssign => some (.combine .mod)
  | .punctuator .powerAssign => some (.combine .pow)
  | .punctuator .shiftLeftAssign => some (.combine .shiftLeft)
  | .punctuator .shiftRightAssign => some (.combine .shiftRight)
  | .punctuator .shiftRightUnsignedAssign => some (.combine .shiftRightUnsigned)
  | .punctuator .bitAndAssign => some (.combine .bitAnd)
  | .punctuator .bitOrAssign => some (.combine .bitOr)
  | .punctuator .bitXorAssign => some (.combine .bitXor)
  | .punctuator .logicalAndAssign => some (.conditional .and)
  | .punctuator .logicalOrAssign => some (.conditional .or)
  | .punctuator .coalesceAssign => some (.conditional .coalesce)
  | _ => none

/-- Read an assignment or what binds tighter. -/
def assignmentExpression (p : Productions) (ctx : Context) : Parse Expr := do
  let first ← peek
  match ← arrowFunction? p ctx with
  | some f => pure f
  | none =>
    let left ← shortCircuit p ctx
    if ← take .question then
      let yes ← p.assignment { ctx with allowsIn := true }
      let _ ← expect .colon
      let no ← p.assignment ctx
      pure (.conditional left yes no)
    else
      match assignOp? (← peek).token with
      | some op =>
        if isTarget ctx left then
          advance
          let value ← p.assignment ctx
          pure (.assign op left value)
        else failAt first
      | none => pure left

def fullExpression (p : Productions) (ctx : Context) : Parse Expr := do
  let first ← p.assignment ctx
  repeating (fun (left : Expr) => do
    if ← take .comma then
      let right ← p.assignment ctx
      pure (.more (.sequence left right))
    else pure (.stop left)) first

end Isolate.Script.Grammar
