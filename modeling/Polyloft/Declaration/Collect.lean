import Polyloft.Declaration
import Polyloft.Declaration.Shape

/-!
# Polyloft.Declaration.Collect

Fills the declaration table of a document, line by line. Shapes are found on the masked text of a
line; the texts of types, parameters and initializers are then cut from the code at the same
columns, so that string literals keep their contents. A line is read as the first shape that fits:
import, class-like, function, variable, loop, catch, constructor, and last as a member of the
enumeration or interface it stands in.
-/

namespace Polyloft

open Polyloft.Text

namespace Collect

/-- The text of a span. -/
def spanText (s : Span) (cs : List Char) : String :=
  String.ofList (s.slice cs)

/-- The text of a span without blanks at either end. -/
def trimmedText (s : Span) (cs : List Char) : String :=
  String.ofList (strip (s.slice cs))

/-! ### Parameter lists -/

/-- The position of the parenthesis that closes `depth` further ones, quotes passed over. -/
def closingParen? (quote : Option Char) (depth : Nat) : List Char → Option Nat
  | [] => none
  | c :: cs =>
    match quote with
    | some q =>
      (closingParen? (if c = q then none else some q) depth cs).map (· + 1)
    | none =>
      if c = '"' ∨ c = '\'' then (closingParen? (some c) depth cs).map (· + 1)
      else if c = '(' then (closingParen? none (depth + 1) cs).map (· + 1)
      else if c = ')' then
        match depth with
        | 0 => some 0
        | depth + 1 => (closingParen? none depth cs).map (· + 1)
      else (closingParen? none depth cs).map (· + 1)

/-- The parameters in the parentheses at or after a column, and the code behind them. A
parenthesis that is never closed takes the rest of the line. -/
def paramsAfter (line : Line) (column : Nat) : List Parameter × List Char :=
  let before := (line.masked.drop column).takeWhile (· != '(')
  let start := column + before.length + 1
  match (line.masked.drop column).drop before.length with
  | [] => ([], line.code.drop column)
  | _ :: inside =>
    match closingParen? none 0 inside with
    | none => (Parameter.parseList (line.code.drop start) start, [])
    | some n =>
      (Parameter.parseList ((line.code.drop start).take n) start, line.code.drop (start + n + 1))

/-! ### Where a line stands -/

/-- The frame a line's declarations live in. -/
def frameOf (tree : ScopeTree) (line : Line) : Nat :=
  ((tree.frameAt? line.index).map Frame.id).getD 0

/-- The frame that a line opens. -/
def bodyOf (tree : ScopeTree) (line : Line) : Option Nat :=
  (tree.openedAt? line.index).map Frame.id

/-- The class-like or interface that a line's declarations belong to. -/
def ownerOf (tree : ScopeTree) (line : Line) : Option String :=
  let frame := (tree.frameAt? line.index).bind fun f =>
    if f.inline then f.parent.bind tree.frame? else some f
  frame.bind fun f => if f.kind == .classLike || f.kind == .interface then f.name else none

/-! ### Declarations of a line -/

/-- A variable for each parameter, living in the body of the function. -/
def parameterDecls (line : Line) (params : List Parameter) (form : DeclarationForm) (body : Nat)
    (owner : Option String) : List Declaration :=
  params.map fun p =>
    { name := p.name
      form := form
      line := line.index
      column := p.column.getD 0
      frame := body
      declaredType := if p.isTyped then some p.type else none
      typeText := p.typeText
      owner := owner }

/-- The names an import brings in, each placed at the piece that names it. -/
def importStatement (line : Line) (path inner : Span) : ImportStatement :=
  let module := spanText path line.masked
  let symbols := (splitTopLevel (· == ',') (inner.slice line.code)).filterMap fun piece =>
    let parts := splitOnText ' ' "as ".toList (strip piece.2)
    let name := strip (parts.getLastD [])
    if isIdentifier name then
      some (ImportedSymbol.mk (String.ofList name) module line.index
        (inner.start + piece.1 + leadingBlanks piece.2))
    else none
  ⟨module, line.index, symbols⟩

/-- The form of a class-like declared by a word. -/
def classForm : String → DeclarationForm
  | "enum" => .enumType
  | "record" => .recordType
  | "interface" => .interfaceType
  | _ => .classType

/-- A class-like, and the components of a record that has a body. -/
def classDecls (tree : ScopeTree) (line : Line) (word : String) (name : Span) : List Declaration :=
  let form := classForm word
  let className := spanText name line.masked
  let (typeParams, rest) := Shape.typeParams (line.code.drop name.stop)
  let params := if form = .recordType then (paramsAfter line name.stop).1 else []
  let body := bodyOf tree line
  let decl : Declaration :=
    { name := className
      form := form
      line := line.index
      column := name.start
      frame := frameOf tree line
      params := params
      parent := Shape.parent? rest
      implements := Shape.implements rest
      typeParams := typeParams
      body := body
      owner := ownerOf tree line }
  match body with
  | none => [decl]
  | some b => decl :: parameterDecls line params .component b (some className)

/-- A function or constructor, and its parameters if it has a body. -/
def functionDecls (tree : ScopeTree) (line : Line) (form : DeclarationForm) (name : Span) :
    List Declaration :=
  let (params, tail) := paramsAfter line name.stop
  let body := bodyOf tree line
  let decl : Declaration :=
    { name := spanText name line.masked
      form := form
      line := line.index
      column := name.start
      frame := frameOf tree line
      params := params
      returnText := if form = .function then Shape.returnText? tail else none
      body := body
      owner := ownerOf tree line }
  match body with
  | none => [decl]
  | some b => decl :: parameterDecls line params .parameter b none

/-- A variable with one word for its mutability. -/
def variableDecl (tree : ScopeTree) (line : Line) (v : Shape.Variable) : Declaration :=
  let typeText := v.type.map (trimmedText · line.code)
  let initializer := v.initializer.map (trimmedText · line.code)
  { name := spanText v.name line.masked
    form := .variable v.declarator
    line := line.index
    column := v.name.start
    frame := frameOf tree line
    declaredType := (typeText.filter (· != "")).map Ty.ofString
    typeText := typeText
    initializer := initializer.filter (· != "")
    owner := ownerOf tree line }

/-- The variables of a loop that has a body; the first of them knows what is looped over. -/
def loopDecls (tree : ScopeTree) (line : Line) (l : Shape.Loop) : List Declaration :=
  match bodyOf tree line with
  | none => []
  | some body =>
    let decl (name : Span) (initializer : Option String) : Declaration :=
      { name := spanText name line.masked
        form := .loopVariable
        line := line.index
        column := name.start
        frame := body
        initializer := initializer }
    decl l.first (some (trimmedText l.iterable line.code)) ::
      (l.second.map fun name => decl name none).toList

/-- The error that a catch branch names. -/
def caughtDecls (tree : ScopeTree) (line : Line) (name : Span) (type : Option Span) :
    List Declaration :=
  let branch := (tree.frameAt? line.index).bind fun f =>
    (tree.children f.id).find? fun c => c.start == line.index
  match branch with
  | none => []
  | some f =>
    let typeText := type.map (spanText · line.masked)
    [{ name := spanText name line.masked
       form := .caughtError
       line := line.index
       column := name.start
       frame := f.id
       declaredType := typeText.map Ty.ofString
       typeText := typeText }]

/-- A value of the enumeration, or a method of the interface, that the line stands in. -/
def memberDecls (tree : ScopeTree) (line : Line) : List Declaration :=
  match tree.frameAt? line.index with
  | none => []
  | some f =>
    match f.name with
    | none => []
    | some owner =>
      if f.construct = .enumBody then
        (Shape.enumValue? line.masked).toList.map fun name =>
          { name := spanText name line.masked
            form := .enumValue
            line := line.index
            column := name.start
            frame := f.id
            owner := some owner }
      else if f.kind = .interface then
        (Shape.signature? line.masked).toList.map fun name =>
          let (params, tail) := paramsAfter line name.1.stop
          { name := spanText name.1 line.masked
            form := .signature
            line := line.index
            column := name.1.start
            frame := f.id
            params := params
            returnText := Shape.returnText? tail
            owner := some owner }
      else []

/-! ### The table -/

/-- Adds declarations behind those of the table. -/
def add (table : DeclarationTable) (ds : List Declaration) : DeclarationTable :=
  { table with declarations := table.declarations ++ ds }

/-- Adds a line that declares a variable; several words for its mutability are only reported. -/
def addVariable (tree : ScopeTree) (line : Line) (table : DeclarationTable) (v : Shape.Variable) :
    DeclarationTable :=
  if v.more.isEmpty then add table [variableDecl tree line v]
  else
    let words := (v.declarator :: v.more).map Mutability.keyword
    { table with
      stacked := table.stacked ++ [⟨line.index, v.written.start, v.written.stop - 1, words⟩] }

/-- A line that is no declaration by a word: a loop, a catch branch, a constructor or a member. -/
def addUnworded (tree : ScopeTree) (line : Line) (table : DeclarationTable) : DeclarationTable :=
  match Shape.loop? line.masked with
  | some l => add table (loopDecls tree line l)
  | none =>
    match Shape.caught? line.masked with
    | some (name, type) => add table (caughtDecls tree line name type)
    | none =>
      match Shape.constructor? line.masked with
      | some (name, _) =>
        if (stripEnd line.masked).getLast? = some ':' then
          add table (functionDecls tree line .constructor name)
        else add table (memberDecls tree line)
      | none => add table (memberDecls tree line)

/-- Adds what one line declares. -/
def addLine (tree : ScopeTree) (table : DeclarationTable) (line : Line) : DeclarationTable :=
  if line.isBlank then table
  else
    match Shape.import? line.masked with
    | some (path, inner) =>
      { table with imports := table.imports ++ [importStatement line path inner] }
    | none =>
      match Shape.classLike? line.masked with
      | some (word, name, _) => add table (classDecls tree line word name)
      | none =>
        match Shape.function? line.masked with
        | some (name, _) => add table (functionDecls tree line .function name)
        | none =>
          match Shape.variableLine? line.masked with
          | some v => addVariable tree line table v
          | none => addUnworded tree line table

end Collect

/-- Everything a document declares. -/
def DeclarationTable.collect (doc : Document) (tree : ScopeTree) : DeclarationTable :=
  doc.lines.foldl (Collect.addLine tree) {}

end Polyloft
