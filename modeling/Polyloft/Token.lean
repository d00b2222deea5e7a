/-!
# Polyloft.Token

Tokens of the Polyloft language. A token knows its category, its exact text and where it stands;
lines and columns count from zero and columns count code points. The predicates `isKeyword` and
`isSymbol` are how every later layer asks for a particular word or sign: they look at category and
text together, so the identifier `and` is never taken for a keyword, nor a quoted `"("` for a
bracket.
-/

namespace Polyloft

/-- Lexical categories; a `marker` is an annotation such as `@Override`. -/
inductive TokenKind where
  | identifier
  | keyword
  | int
  | float
  | string
  | operator
  | punct
  | marker
  | comment
  | unknown
deriving DecidableEq, Repr

/-- A token; `terminated` is false only for a string literal with no closing quote. -/
structure Token where
  kind : TokenKind
  text : String
  line : Nat
  column : Nat
  terminated : Bool := true
deriving DecidableEq, Repr

/-- The reserved words. -/
def keywords : List String :=
  ["var", "let", "const", "final", "def", "class", "interface", "import", "implements",
    "abstract", "sealed", "return", "if", "elif", "else", "for", "in", "loop", "break",
    "continue", "end", "do", "true", "false", "nil", "null", "thread", "spawn", "join",
    "public", "pub", "private", "priv", "protected", "prot", "static", "this", "super",
    "instanceof", "enum", "record", "try", "catch", "finally", "throw", "defer", "switch",
    "case", "default", "where", "from", "as", "export", "extends", "out"]

/-- Words that may stand before a declaration without changing what it declares. -/
def modifiers : List String :=
  ["public", "pub", "private", "priv", "protected", "prot", "static", "abstract", "sealed",
    "export"]

namespace Token

/-- The column just past the token. -/
def stop (t : Token) : Nat :=
  t.column + t.text.length

/-- The reserved word `w`. -/
def isKeyword (t : Token) (w : String) : Bool :=
  t.kind == .keyword && t.text == w

/-- One of the reserved words `ws`. -/
def isKeywordIn (t : Token) (ws : List String) : Bool :=
  t.kind == .keyword && ws.contains t.text

/-- The operator or punctuation sign `s`. -/
def isSymbol (t : Token) (s : String) : Bool :=
  (t.kind == .operator || t.kind == .punct) && t.text == s

/-- One of the operators or punctuation signs `ss`. -/
def isSymbolIn (t : Token) (ss : List String) : Bool :=
  (t.kind == .operator || t.kind == .punct) && ss.contains t.text

/-- Does the token's text start with an upper-case letter? Names start with an ASCII character,
so the ASCII test is exact for them. -/
def startsUpper (t : Token) : Bool :=
  match t.text.toList with
  | [] => false
  | c :: _ => c.isUpper

/-- An annotation, or a word that may stand before a declaration. -/
def isDeclarationPrefix (t : Token) : Bool :=
  t.kind == .marker || t.isKeywordIn modifiers

end Token

/-- The tokens without comments. -/
def codeTokens (tokens : List Token) : List Token :=
  tokens.filter fun t => t.kind != .comment

/-- The number of annotations and modifiers at the start. -/
def prefixLength (tokens : List Token) : Nat :=
  (tokens.takeWhile Token.isDeclarationPrefix).length

end Polyloft
