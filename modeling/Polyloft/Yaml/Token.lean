/-!
# Polyloft.Yaml.Token

Tokens of YAML, the format in which catalogs are written: block and flow collections, plain and
quoted scalars, comments and document markers. Anchors, tags, directives and block scalars are not
part of the format here and are refused.

Whether a scalar is a key is known only when the colon behind it is met. The scan therefore
remembers, for each nesting level of flow collections, the last place where a key may have begun,
and puts a `key` token there when the colon comes. Block structure is made explicit in the same
way: a change of indentation becomes a start or an end token.
-/

namespace Polyloft

/-- A YAML token. A scalar is `plain` when it is written without quotes. -/
inductive YamlToken where
  | scalar (text : List Char) (plain : Bool)
  | key
  | value
  | blockEntry
  | sequenceStart
  | mappingStart
  | blockEnd
  | flowSequenceStart
  | flowSequenceEnd
  | flowMappingStart
  | flowMappingEnd
  | flowEntry
  | documentStart
  | documentEnd
deriving DecidableEq, Repr

namespace Yaml

/-- A place where a key may have begun. A required one must turn out to be a key. -/
structure KeyCandidate where
  tokenIndex : Nat
  required : Bool
  index : Nat
  line : Nat
  column : Nat
deriving DecidableEq, Repr

/-- Where a scan stands. `keys` holds at most one candidate for each flow level. -/
structure Scan where
  rest : List Char
  index : Nat := 0
  line : Nat := 0
  column : Nat := 0
  flowLevel : Nat := 0
  indent : Int := -1
  outerIndents : List Int := []
  allowKey : Bool := true
  keys : List (Nat × KeyCandidate) := []
  tokens : Array YamlToken := #[]

/-- Why a text holds no data. -/
inductive YamlError where
  /-- The text is not YAML. -/
  | malformed
  /-- A number, a date or a character has the form of one, but there is none such. -/
  | noSuchValue
  /-- A number in parts of sixty has too many of them. -/
  | outOfRange
deriving DecidableEq, Repr

/-- A line break. -/
def isBreak (c : Char) : Bool :=
  c ∈ ['\r', '\n', '\x85', '\u2028', '\u2029']

/-- A character that ends a word: a blank, a line break or the end of the text. -/
def isGap : Option Char → Bool
  | none => true
  | some c => c == ' ' || c == '\t' || isBreak c

/-- The text of a line break. -/
def breakText (c : Char) : Char :=
  if c == '\u2028' || c == '\u2029' then c else '\n'

/-- A character that may occur in YAML at all. -/
def isAllowed (c : Char) : Bool :=
  let n := c.toNat
  n == 0x9 || n == 0xa || n == 0xd || (0x20 ≤ n && n ≤ 0x7e) || n == 0x85 ||
    (0xa0 ≤ n && n ≤ 0xd7ff) || (0xe000 ≤ n && n ≤ 0xfffd) || 0x10000 ≤ n

namespace Scan

/-- Passes over `n` characters of the line. -/
def advance (s : Scan) (n : Nat) : Scan :=
  { s with rest := s.rest.drop n, index := s.index + n, column := s.column + n }

/-- Passes over a line break, which may be two characters. -/
def nextLine (s : Scan) : Scan :=
  let n := if s.rest.head? == some '\r' && s.rest.tail.head? == some '\n' then 2 else 1
  { s with rest := s.rest.drop n, index := s.index + n, line := s.line + 1, column := 0 }

/-- Adds a token. -/
def emit (s : Scan) (t : YamlToken) : Scan :=
  { s with tokens := s.tokens.push t }

/-- Inside a flow collection? -/
def inFlow (s : Scan) : Bool :=
  s.flowLevel != 0

/-- Does a document marker of three characters `c` stand here? -/
def atMarker (s : Scan) (c : Char) : Bool :=
  s.column == 0 && s.rest.take 3 == [c, c, c] && isGap (s.rest.drop 3).head?

/-- Does a document marker stand here? -/
def atDocumentMarker (s : Scan) : Bool :=
  s.atMarker '-' || s.atMarker '.'

/-! ### Candidates for keys -/

/-- Forgets the candidate of this level, which must not be a required one. -/
def dropCandidate (s : Scan) : Except YamlError Scan :=
  match s.keys.lookup s.flowLevel with
  | some k =>
    if k.required then .error .malformed
    else .ok { s with keys := s.keys.filter (·.1 != s.flowLevel) }
  | none => .ok s

/-- Notes that a key may begin here. -/
def saveCandidate (s : Scan) : Except YamlError Scan :=
  if s.allowKey then do
    let required := !s.inFlow && s.indent == (s.column : Int)
    let s ← s.dropCandidate
    return { s with
      keys := (s.flowLevel, ⟨s.tokens.size, required, s.index, s.line, s.column⟩) :: s.keys }
  else .ok s

/-- A key must be on one line and not too long. -/
def isStale (s : Scan) (k : KeyCandidate) : Bool :=
  k.line != s.line || k.index + 1024 < s.index

/-- Forgets candidates that can no longer be keys. -/
def dropStale (s : Scan) : Except YamlError Scan :=
  if s.keys.any fun k => s.isStale k.2 && k.2.required then .error .malformed
  else .ok { s with keys := s.keys.filter fun k => !s.isStale k.2 }

/-! ### Indentation -/

/-- Closes the blocks indented more than `column`. -/
def unwindTo (column : Int) : List Int → Scan → Scan
  | [], s => s
  | outer :: more, s =>
    if column < s.indent then
      unwindTo column more ({ s with indent := outer, outerIndents := more }.emit .blockEnd)
    else s

/-- Closes the blocks indented more than `column`, outside of flow collections. -/
def unwind (s : Scan) (column : Int) : Scan :=
  if s.inFlow then s else unwindTo column s.outerIndents s

/-- Opens a block at a column that is further in; says whether it did. -/
def openIndent (s : Scan) (column : Nat) : Scan × Bool :=
  if s.indent < (column : Int) then
    ({ s with indent := column, outerIndents := s.indent :: s.outerIndents }, true)
  else (s, false)

/-! ### Blanks and comments -/

/-- Passes over blanks, comments and line breaks. -/
def skipGaps (s : Scan) : Nat → Scan
  | 0 => s
  | fuel + 1 =>
    let s := s.advance (s.rest.takeWhile (· == ' ')).length
    let s := if s.rest.head? == some '#' then
      s.advance (s.rest.takeWhile fun c => !isBreak c).length else s
    match s.rest.head? with
    | some c =>
      if isBreak c then
        let s := s.nextLine
        skipGaps (if s.inFlow then s else { s with allowKey := true }) fuel
      else s
    | none => s

/-! ### Plain scalars -/

/-- Does a plain scalar stop before these characters? -/
def stopsPlain (flow : Bool) : List Char → Bool
  | [] => true
  | c :: cs =>
    isGap (some c) ||
      (c == ':' && (isGap cs.head? || (flow && cs.head?.any (",[]\x7b\x7d".toList.contains ·)))) ||
      (flow && ",?[]\x7b\x7d".toList.contains c)

/-- The number of characters up to the next stop. -/
def plainLength (flow : Bool) : List Char → Nat
  | [] => 0
  | c :: cs => if stopsPlain flow (c :: cs) then 0 else plainLength flow cs + 1

/-- The empty lines and blanks before the next text; `none` if a document marker comes. -/
def plainBreaks (s : Scan) : Nat → Scan × Option (List Char)
  | 0 => (s, some [])
  | fuel + 1 =>
    if s.atDocumentMarker then (s, none)
    else
      let s := s.advance (s.rest.takeWhile (· == ' ')).length
      match s.rest.head? with
      | some c =>
        if isBreak c then
          let (s, more) := plainBreaks s.nextLine fuel
          (s, more.map (breakText c :: ·))
        else (s, some [])
      | none => (s, some [])

/-- What separates two parts of a plain scalar: blanks, or line breaks folded to a blank. Nothing
if the scalar ends. -/
def plainGap (s : Scan) : Scan × List Char :=
  let blanks := s.rest.takeWhile (· == ' ')
  let s := s.advance blanks.length
  match s.rest.head? with
  | some c =>
    if isBreak c then
      let s := { s.nextLine with allowKey := true }
      match plainBreaks s s.rest.length with
      | (s, none) => (s, [])
      | (s, some breaks) =>
        if breakText c != '\n' then (s, breakText c :: breaks)
        else if breaks.isEmpty then (s, [' '])
        else (s, breaks)
    else (s, blanks)
  | none => (s, blanks)

/-- The parts of a plain scalar; `gap` stands before the next part. -/
def plainParts (s : Scan) (gap : List Char) : Nat → Scan × List Char
  | 0 => (s, [])
  | fuel + 1 =>
    if s.rest.head? == some '#' then (s, [])
    else
      let n := plainLength s.inFlow s.rest
      if n == 0 then (s, [])
      else
        let part := s.rest.take n
        let (s, next) := plainGap { s.advance n with allowKey := false }
        if next.isEmpty || s.rest.head? == some '#' ||
            (!s.inFlow && (s.column : Int) < s.indent + 1) then (s, gap ++ part)
        else
          let (s, more) := plainParts s next fuel
          (s, gap ++ part ++ more)

/-- A plain scalar. -/
def plain (s : Scan) : Except YamlError Scan := do
  let s ← s.saveCandidate
  let (s, text) := plainParts { s with allowKey := false } [] (s.rest.length + 1)
  return s.emit (.scalar text true)

/-! ### Quoted scalars -/

/-- The character that an escape stands for. -/
def escape? : Char → Option Char
  | '0' => some '\x00'
  | 'a' => some '\x07'
  | 'b' => some '\x08'
  | 't' => some '\t'
  | '\t' => some '\t'
  | 'n' => some '\n'
  | 'v' => some '\x0b'
  | 'f' => some '\x0c'
  | 'r' => some '\r'
  | 'e' => some '\x1b'
  | ' ' => some ' '
  | '"' => some '"'
  | '\\' => some '\\'
  | '/' => some '/'
  | 'N' => some '\x85'
  | '_' => some '\xa0'
  | 'L' => some '\u2028'
  | 'P' => some '\u2029'
  | _ => none

/-- The number of hexadecimal digits of an escape by code point. -/
def escapeDigits? : Char → Option Nat
  | 'x' => some 2
  | 'u' => some 4
  | 'U' => some 8
  | _ => none

/-- The value of a hexadecimal digit. -/
def hexValue? (c : Char) : Option Nat :=
  if '0' ≤ c ∧ c ≤ '9' then some (c.toNat - 0x30)
  else if 'a' ≤ c ∧ c ≤ 'f' then some (c.toNat - 0x57)
  else if 'A' ≤ c ∧ c ≤ 'F' then some (c.toNat - 0x37)
  else none

/-- The code point that hexadecimal digits denote. -/
def hexCode? (digits : List Char) : Option Nat :=
  digits.foldl (fun n c => n.bind fun n => (hexValue? c).map (16 * n + ·)) (some 0)

/-- The code that `n` hexadecimal digits denote. -/
def escapeCode (n : Nat) (cs : List Char) : Except YamlError Nat :=
  let digits := cs.take n
  match hexCode? digits with
  | some code =>
    if digits.length != n then .error .malformed
    else if 0x10ffff < code then .error .noSuchValue
    else .ok code
  | none => .error .malformed

/-- The lower of two UTF-16 units, if an escape for one comes next. -/
def lowUnit? : List Char → Option Nat
  | '\\' :: 'u' :: cs => (hexCode? (cs.take 4)).filter fun n => 0xdc00 ≤ n && n ≤ 0xdfff
  | _ => none

/-- The character of an escape with `n` hexadecimal digits, and how many characters it takes after
its letter. A character beyond the basic plane may be written by its two UTF-16 units; a unit by
itself is no character and is replaced. -/
def codeEscape (n : Nat) (cs : List Char) : Except YamlError (Char × Nat) := do
  let code ← escapeCode n cs
  if 0xd800 ≤ code && code ≤ 0xdfff then
    match lowUnit? (cs.drop n) with
    | some low =>
      if code ≤ 0xdbff then
        return (Char.ofNat (0x10000 + (code - 0xd800) * 0x400 + (low - 0xdc00)), n + 6)
      else return ('\ufffd', n)
    | none => return ('\ufffd', n)
  else return (Char.ofNat code, n)

/-- The empty lines of a quoted scalar, after its first line break. -/
def quotedBreaks (s : Scan) : Nat → Except YamlError (Scan × List Char)
  | 0 => .ok (s, [])
  | fuel + 1 => do
    if s.atDocumentMarker then throw .malformed
    let s := s.advance (s.rest.takeWhile fun c => c == ' ' || c == '\t').length
    match s.rest.head? with
    | some c =>
      if isBreak c then
        let (s, more) ← quotedBreaks s.nextLine fuel
        return (s, breakText c :: more)
      else return (s, [])
    | none => return (s, [])

/-- The text of a quoted scalar up to its closing quote. -/
def quotedText (double : Bool) (s : Scan) : Nat → Except YamlError (Scan × List Char)
  | 0 => .error .malformed
  | fuel + 1 => do
    match s.rest with
    | [] => throw .malformed
    | '\'' :: '\'' :: _ =>
      if double then
        let (s, more) ← quotedText double (s.advance 2) fuel
        return (s, '\'' :: '\'' :: more)
      else
        let (s, more) ← quotedText double (s.advance 2) fuel
        return (s, '\'' :: more)
    | '\\' :: c :: cs =>
      if double then
        match escape? c, escapeDigits? c with
        | some e, _ =>
          let (s, more) ← quotedText double (s.advance 2) fuel
          return (s, e :: more)
        | none, some n =>
          let (e, length) ← codeEscape n cs
          let (s, more) ← quotedText double (s.advance (2 + length)) fuel
          return (s, e :: more)
        | none, none =>
          if isBreak c then
            let (s, breaks) ← quotedBreaks (s.advance 1).nextLine s.rest.length
            let (s, more) ← quotedText double s fuel
            return (s, breaks ++ more)
          else throw .malformed
      else
        let (s, more) ← quotedText double (s.advance 1) fuel
        return (s, '\\' :: more)
    | c :: _ =>
      if c == (if double then '"' else '\'') then return (s.advance 1, [])
      else if c == '\\' && double then throw .malformed
      else if c == ' ' || c == '\t' || isBreak c then
        let blanks := s.rest.takeWhile fun c => c == ' ' || c == '\t'
        let s := s.advance blanks.length
        match s.rest.head? with
        | none => throw .malformed
        | some c =>
          if isBreak c then
            let (s, breaks) ← quotedBreaks s.nextLine s.rest.length
            let (s, more) ← quotedText double s fuel
            if breakText c != '\n' then return (s, breakText c :: breaks ++ more)
            else if breaks.isEmpty then return (s, ' ' :: more)
            else return (s, breaks ++ more)
          else
            let (s, more) ← quotedText double s fuel
            return (s, blanks ++ more)
      else
        let (s, more) ← quotedText double (s.advance 1) fuel
        return (s, c :: more)

/-- A scalar in quotes. -/
def quoted (s : Scan) (double : Bool) : Except YamlError Scan := do
  let s ← s.saveCandidate
  let (s, text) ← quotedText double { s.advance 1 with allowKey := false } (s.rest.length + 1)
  return s.emit (.scalar text false)

/-! ### Signs -/

/-- The start of a flow collection. -/
def flowStart (s : Scan) (t : YamlToken) : Except YamlError Scan := do
  let s ← s.saveCandidate
  return { s.advance 1 with flowLevel := s.flowLevel + 1, allowKey := true }.emit t

/-- The end of a flow collection. -/
def flowEnd (s : Scan) (t : YamlToken) : Except YamlError Scan := do
  if s.flowLevel == 0 then throw .malformed
  let s ← s.dropCandidate
  return { s.advance 1 with flowLevel := s.flowLevel - 1, allowKey := false }.emit t

/-- A comma. -/
def flowEntry (s : Scan) : Except YamlError Scan := do
  let s ← s.dropCandidate
  return { s.advance 1 with allowKey := true }.emit .flowEntry

/-- Opens a block collection at a column, if it is further in. -/
def openBlock (s : Scan) (column : Nat) (start : YamlToken) : Except YamlError Scan :=
  if s.inFlow then .ok s
  else if !s.allowKey then .error .malformed
  else
    match s.openIndent column with
    | (s, true) => .ok (s.emit start)
    | (s, false) => .ok s

/-- The dash of an item. -/
def blockEntry (s : Scan) : Except YamlError Scan := do
  let s ← s.openBlock s.column .sequenceStart
  let s ← s.dropCandidate
  return { s.advance 1 with allowKey := true }.emit .blockEntry

/-- The question mark before a key. -/
def explicitKey (s : Scan) : Except YamlError Scan := do
  let s ← s.openBlock s.column .mappingStart
  let s ← s.dropCandidate
  return { s.advance 1 with allowKey := !s.inFlow }.emit .key

/-- Puts tokens at an earlier place. -/
def insertTokens (s : Scan) (index : Nat) (tokens : List YamlToken) : Scan :=
  let all := s.tokens.toList
  { s with tokens := (all.take index ++ tokens ++ all.drop index).toArray }

/-- The colon before a value: what stands before it is a key, if it can be one. -/
def value (s : Scan) : Except YamlError Scan := do
  match s.keys.lookup s.flowLevel with
  | some k =>
    let s := { s with keys := s.keys.filter (·.1 != s.flowLevel) }
    let (s, opened) := if s.inFlow then (s, false) else s.openIndent k.column
    let s := s.insertTokens k.tokenIndex (if opened then [.mappingStart, .key] else [.key])
    return { s.advance 1 with allowKey := false }.emit .value
  | none =>
    let s ← s.openBlock s.column .mappingStart
    let s ← s.dropCandidate
    return { s.advance 1 with allowKey := !s.inFlow }.emit .value

/-- A document marker. -/
def documentMarker (s : Scan) (t : YamlToken) : Except YamlError Scan := do
  let s ← (s.unwind (-1)).dropCandidate
  return { s.advance 3 with allowKey := false }.emit t

/-- May a plain scalar start here? -/
def startsPlain (flow : Bool) (c : Char) (next : Option Char) : Bool :=
  !isGap (some c) && !"-?:,[]\x7b\x7d#&*!|>'\"%@`".toList.contains c ||
    !isGap next && (c == '-' || (!flow && (c == '?' || c == ':')))

/-- The token at the start of the rest. -/
def step (s : Scan) (c : Char) : Except YamlError Scan :=
  let next := s.rest.tail.head?
  if s.atMarker '-' then s.documentMarker .documentStart
  else if s.atMarker '.' then s.documentMarker .documentEnd
  else if c == '[' then s.flowStart .flowSequenceStart
  else if c == '{' then s.flowStart .flowMappingStart
  else if c == ']' then s.flowEnd .flowSequenceEnd
  else if c == '}' then s.flowEnd .flowMappingEnd
  else if c == ',' then s.flowEntry
  else if c == '-' && isGap next then s.blockEntry
  else if c == '?' && (s.inFlow || isGap next) then s.explicitKey
  else if c == ':' && (s.inFlow || isGap next) then s.value
  else if c == '\'' then s.quoted false
  else if c == '"' then s.quoted true
  else if startsPlain s.inFlow c next then s.plain
  else .error .malformed

/-- The tokens of the rest. -/
def run (s : Scan) : Nat → Except YamlError (List YamlToken)
  | 0 => .error .malformed
  | fuel + 1 => do
    let s := s.skipGaps (s.rest.length + 1)
    let s ← s.dropStale
    let s := s.unwind s.column
    match s.rest with
    | [] =>
      let s ← (s.unwind (-1)).dropCandidate
      return s.tokens.toList
    | c :: _ => run (← s.step c) fuel

end Scan

/-- The tokens of a text. -/
def tokens (text : List Char) : Except YamlError (List YamlToken) :=
  if text.all isAllowed then
    let text := if text.head? == some '\ufeff' then text.tail else text
    Scan.run { rest := text } (text.length + 1)
  else .error .malformed

end Yaml

end Polyloft
