import Isolate.Script.Grammar.Statement
import Isolate.Script.Names

/-!
# Modules

The rules for `import` and `export` and the reading of a whole module. An export of a binding that is
itself imported is an export of the other module. The default export of a value is a constant under a
name that no text can write.
-/

namespace Isolate.Script.Grammar

/-- The name of the binding that holds a default export without a name of its own. -/
def defaultName : String := "*default*"

/-- The parts of a module read so far, each last one first. -/
structure ModuleDraft where
  body : List Stmt := []
  requests : List Text.Units := []
  imports : List ImportEntry := []
  exports : List ExportEntry := []

def ModuleDraft.request (draft : ModuleDraft) (specifier : Text.Units) : ModuleDraft :=
  if draft.requests.contains specifier then draft
  else { draft with requests := specifier :: draft.requests }

def ModuleDraft.export (draft : ModuleDraft) (entry : ExportEntry) : ModuleDraft :=
  { draft with exports := entry :: draft.exports }

def moduleContext : Context := { isStrict := true, awaits := true, isModule := true }

def specifier : Parse Text.Units := do
  let lexeme ← peek
  match lexeme.token with
  | .string units => do advance; pure units
  | _ => failAt lexeme

def fromClause : Parse Text.Units := do
  expectWord "from"
  specifier

def exportedName : Parse Text.Units := do
  let lexeme ← peek
  match lexeme.token with
  | .word w => do advance; pure (Text.Units.ofString w)
  | .string units => do advance; pure units
  | _ => failAt lexeme

def importedName : Parse (ImportedName × String) := do
  let lexeme ← peek
  match lexeme.token with
  | .string units =>
    advance
    expectWord "as"
    let (_, name) ← bindingName moduleContext
    pure (.named units, name)
  | .word w =>
    if isWord (← peekNext) "as" then
      advance
      advance
      let (_, name) ← bindingName moduleContext
      pure (.named (Text.Units.ofString w), name)
    else
      let (_, name) ← bindingName moduleContext
      pure (.named (Text.Units.ofString w), name)
  | _ => failAt lexeme

/-- Read what stands in braces up to the closing one. Commas may be left out, but the first thing may
not be one. -/
def inBraces {α : Type} (item : Parse α) : Parse (List α) := do
  let _ ← expect .openBrace
  let items ← repeating (fun (items : List α) => do
    if ← take .closeBrace then pure (.stop items)
    else if !items.isEmpty && (← ahead .comma) then do
      advance
      pure (.more items)
    else
      let a ← item
      pure (.more (a :: items))) []
  pure items.reverse

def everythingAs : Parse (ImportedName × String) := do
  let _ ← expect .star
  expectWord "as"
  let (_, name) ← bindingName moduleContext
  pure (.everything, name)

/-- Read an import declaration behind its keyword. -/
def importDeclaration (draft : ModuleDraft) : Parse ModuleDraft := do
  let lexeme ← peek
  match lexeme.token with
  | .string units =>
    advance
    endStatement
    pure (draft.request units)
  | _ =>
    let names ←
      if isPunctuator lexeme.token .openBrace then inBraces importedName
      else if isPunctuator lexeme.token .star then do
        let name ← everythingAs
        pure [name]
      else do
        let (_, name) ← bindingName moduleContext
        let first := (ImportedName.named (Text.Units.ofString "default"), name)
        if ← take .comma then
          if ← ahead .star then do
            let name ← everythingAs
            pure [first, name]
          else do
            let names ← inBraces importedName
            pure (first :: names)
        else pure [first]
    let units ← fromClause
    endStatement
    let entries := names.map fun (imported, name) => (⟨units, imported, name⟩ : ImportEntry)
    pure { draft.request units with imports := entries.reverse ++ draft.imports }

/-- Read one name in the braces of an export: what is exported and under which name. -/
def exportItem : Parse (Lexeme × Text.Units × Text.Units) := do
  let lexeme ← peek
  match lexeme.token with
  | .string units =>
    advance
    expectWord "as"
    let name ← exportedName
    pure (lexeme, units, name)
  | _ =>
    let source ← exportedName
    if ← takeWord "as" then
      let name ← exportedName
      pure (lexeme, source, name)
    else pure (lexeme, source, source)

def exportBraces (draft : ModuleDraft) : Parse ModuleDraft := do
  let items ← inBraces exportItem
  if ← wordAhead "from" then
    let units ← fromClause
    endStatement
    pure (items.foldl (fun draft (_, source, name) =>
      draft.export (.indirect name units (.named source))) (draft.request units))
  else
    let refused := items.find? fun (lexeme, _, _) =>
      match lexeme.token with
      | .word w => !moduleContext.isName w
      | _ => true
    match refused with
    | some (lexeme, _, _) => failAt lexeme
    | none =>
      endStatement
      pure (items.foldl (fun draft (_, source, name) =>
        draft.export (.own name source.toString)) draft)

def exportStar (draft : ModuleDraft) : Parse ModuleDraft := do
  if ← takeWord "as" then
    let name ← exportedName
    let units ← fromClause
    endStatement
    pure ((draft.request units).export (.indirect name units .everything))
  else
    let units ← fromClause
    endStatement
    pure ((draft.request units).export (.star units))

def nameDefault (head : FunctionHead) : FunctionHead :=
  match head.name with
  | some _ => head
  | none => { head with name := some defaultName }

/-- Read a default export behind its keywords. -/
def exportDefault (p : Productions) (draft : ModuleDraft) : Parse ModuleDraft := do
  let default := Text.Units.ofString "default"
  let isFunction ← do
    if ← wordAhead "function" then pure true
    else if ← wordAhead "async" then pure (isWord (← peekNext) "function")
    else pure false
  if isFunction then
    match ← functionDeclaration p moduleContext true with
    | .function place head body =>
      let head := nameDefault head
      let draft := { draft with body := .function place head body :: draft.body }
      pure (draft.export (.own default (head.name.getD defaultName)))
    | _ => unexpected
  else
    let lexeme ← peek
    let value ← p.assignment moduleContext
    endStatement
    let statement :=
      Stmt.declare .const [.mk (.name lexeme.position defaultName) (some value)]
    pure ({ draft with body := statement :: draft.body }.export (.own default defaultName))

/-- Read an export declaration behind its keyword. -/
def exportDeclaration (p : Productions) (draft : ModuleDraft) : Parse ModuleDraft := do
  let lexeme ← peek
  match lexeme.token with
  | .punctuator .star => do advance; exportStar draft
  | .punctuator .openBrace => exportBraces draft
  | .word "default" => do advance; exportDefault p draft
  | token =>
    let own (draft : ModuleDraft) (name : String) : ModuleDraft :=
      draft.export (.own (Text.Units.ofString name) name)
    match declarationKind? token with
    | some kind =>
      advance
      let statement ← declaration p moduleContext kind
      endStatement
      let names :=
        match statement with
        | .declare _ bindings => declaredNames bindings
        | _ => []
      pure (names.foldl own { draft with body := statement :: draft.body })
    | none =>
      if isWord token "function" || isWord token "async" then
        let statement ← functionDeclaration p moduleContext false
        let draft := { draft with body := statement :: draft.body }
        match statement with
        | .function _ head _ => pure ((head.name.map (own draft)).getD draft)
        | _ => pure draft
      else failAt lexeme

def moduleItem (p : Productions) (draft : ModuleDraft) : Parse ModuleDraft := do
  let lexeme ← peek
  let second ← peekNext
  let isCall := isPunctuator second .openParen || isPunctuator second .dot
  if isWord lexeme.token "import" && !isCall then
    advance
    importDeclaration draft
  else if isWord lexeme.token "export" then
    advance
    exportDeclaration p draft
  else
    let statement ← p.statement moduleContext
    pure { draft with body := statement :: draft.body }

def redirect (imports : List ImportEntry) (entry : ExportEntry) : ExportEntry :=
  match entry with
  | .own name localName =>
    match imports.find? (·.localName == localName) with
    | some ⟨units, .named source, _⟩ => .indirect name units (.named source)
    | _ => entry
  | _ => entry

def exportNames (exports : List ExportEntry) : List Text.Units :=
  exports.filterMap fun
    | .own name _ => some name
    | .indirect name _ _ => some name
    | .star _ => none

def repeats : List Text.Units → Bool
  | [] => false
  | name :: rest => rest.contains name || repeats rest

/-- Whether the names of a module are in order: nothing is bound or exported twice, and what is
exported is bound. -/
def ModuleDraft.isSound (draft : ModuleDraft) (body : List Stmt) : Bool :=
  let lexical := draft.imports.map ImportEntry.localName ++ lexicalNames body
  let bound := lexical ++ varNames body
  let exported := draft.exports.filterMap fun
    | .own _ localName => some localName
    | _ => none
  !hasRepeated lexical && !shareName lexical (varNames body) && exported.all bound.contains
    && !repeats (exportNames draft.exports) && statementsSound {} body

/-- Where a text whose names are not in order is refused. -/
def soundnessFault : Fault := ⟨some ⟨1, 1⟩⟩

def readModule (text : List Char) : Except Fault ModuleTree :=
  let tokens := Scanner.tokens text
  let p := productionsFor tokens
  let items : Parse ModuleDraft := repeating (fun (draft : ModuleDraft) => do
    match (← peek).token with
    | .endOfText => pure (.stop draft)
    | _ => .more <$> moduleItem p draft) {}
  match items.run ⟨tokens, 0⟩ with
  | .error e => .error e
  | .ok (draft, _) =>
    let body := draft.body.reverse
    if draft.isSound body then
      .ok
        { body, requests := draft.requests.reverse, imports := draft.imports.reverse
          exports := draft.exports.reverse.map (redirect draft.imports)
          awaits := statementsAwait body }
    else .error soundnessFault

def readSoundScript (text : List Char) (isStrict : Bool) : Except Fault ScriptTree :=
  match readScript text isStrict with
  | .error e => .error e
  | .ok tree => if tree.isSound then .ok tree else .error soundnessFault

end Isolate.Script.Grammar
