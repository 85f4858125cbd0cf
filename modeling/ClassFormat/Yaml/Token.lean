import ClassFormat.Yaml.Scalar

namespace ClassFormat.Yaml

/-- The tokens of a YAML text. A place where the text cannot be read any further counts as one too.
-/
inductive Token where
  | documentStart
  | documentEnd
  | blockSequenceStart
  | blockMappingStart
  | blockEnd
  | flowSequenceStart
  | flowSequenceEnd
  | flowMappingStart
  | flowMappingEnd
  | flowEntry
  | blockEntry
  | key
  | value
  | plain (text : Text)
  | quoted (text : CodeText)
  /-- A reference to another node. -/
  | alias
  /-- The text cannot be read any further. -/
  | fault (e : Error)
  deriving DecidableEq, Repr

/-- A place where a key may have begun. -/
structure PossibleKey where
  /-- How many tokens come before the key. -/
  position : Nat
  /-- Whether the layout leaves no other choice. -/
  required : Bool
  index : Nat
  line : Nat
  column : Nat

/-- A scan of a text under way. A key shows itself only by the colon behind it, so a token waits
until it is clear whether a key begins with it. -/
structure Scan where
  cursor : Cursor
  tokens : List Token := []
  /-- The indentation of the innermost open block collection. -/
  indent : Int := -1
  /-- The indentations around it. -/
  outerIndents : List Int := []
  /-- The tokens that opened the flow collections around the cursor. -/
  flow : List Token := []
  /-- The possible key of each depth of flow collections. -/
  keys : List (Nat × PossibleKey) := []
  /-- Whether a key may begin here. -/
  keyAllowed : Bool := true
  /-- Whether tokens wait while the next one is read. -/
  waiting : Bool := false
  /-- Whether the end of the text is reached. -/
  finished : Bool := false

namespace Scan

/-- A key is at most this long. -/
def maxKeyLength : Nat := 1024

def inFlow (s : Scan) : Bool := !s.flow.isEmpty

def push (s : Scan) (t : Token) : Scan := { s with tokens := s.tokens ++ [t] }

def insertAt (s : Scan) (position : Nat) (t : Token) : Scan :=
  { s with tokens := s.tokens.take position ++ t :: s.tokens.drop position }

def take (s : Scan) (t : Token) (length : Nat) : Scan :=
  { s.push t with cursor := s.cursor.advance length }

/-- Passes blanks, comments and line breaks; the flag says that a line break was among them. -/
def skipBlanks (flow comment : Bool) : Text → Text × Bool
  | [] => ([], false)
  | c :: cs =>
    if isBreak c then ((skipBlanks flow false cs).1, true)
    else if comment then skipBlanks flow true cs
    else if c = ' ' || (flow && c = '\t') then skipBlanks flow false cs
    else if c = '#' then skipBlanks flow true cs
    else (c :: cs, false)

/-- Moves to the next token; a new line outside flow collections may begin with a key. -/
def toNextToken (s : Scan) : Scan :=
  let k := if s.cursor.index = 0 && s.cursor.peek? = some byteOrderMark then s.cursor.next
    else s.cursor
  let (rest, crossed) := skipBlanks s.inFlow false k.rest
  { s with cursor := k.moveTo rest, keyAllowed := s.keyAllowed || (crossed && !s.inFlow) }

/-- Drops the keys that have become too long or have run into another line. -/
def dropStaleKeys (s : Scan) : Except Error Scan :=
  let stale (k : PossibleKey) : Bool :=
    k.line != s.cursor.line || decide (maxKeyLength < s.cursor.index - k.index)
  if s.keys.any fun e => stale e.2 && e.2.required then .error .invalid
  else .ok { s with keys := s.keys.filter fun e => !stale e.2 }

def dropKey (s : Scan) : Except Error Scan :=
  match s.keys.lookup s.flow.length with
  | some k =>
    if k.required then .error .invalid
    else .ok { s with keys := s.keys.filter fun e => e.1 != s.flow.length }
  | none => .ok s

/-- Notes that a key may begin here. -/
def noteKey (s : Scan) : Except Error Scan :=
  if s.keyAllowed then do
    let s ← s.dropKey
    return { s with
      keys := (s.flow.length,
        { position := s.tokens.length
          required := !s.inFlow && s.indent == s.cursor.column
          index := s.cursor.index, line := s.cursor.line,
          column := s.cursor.column }) :: s.keys }
  else .ok s

/-- Closes the block collections that are indented deeper than a column. -/
def closeFrom (column : Int) (tokens : List Token) (indent : Int) :
    List Int → List Token × Int × List Int
  | [] => (tokens, indent, [])
  | outer :: rest =>
    if column < indent then closeFrom column (tokens ++ [.blockEnd]) outer rest
    else (tokens, indent, outer :: rest)

/-- Closes the block collections that are indented deeper than a column, outside flow collections.
-/
def closeTo (s : Scan) (column : Int) : Scan :=
  if s.inFlow then s
  else
    let (tokens, indent, outerIndents) := closeFrom column s.tokens s.indent s.outerIndents
    { s with tokens, indent, outerIndents }

/-- Opens a block collection at a column, unless one is open there. -/
def openAt (s : Scan) (column : Nat) (position : Nat) (t : Token) : Scan :=
  if s.indent < column then
    { s.insertAt position t with indent := column, outerIndents := s.indent :: s.outerIndents }
  else s

def marker (s : Scan) (t : Token) : Except Error Scan := do
  let s ← (s.closeTo (-1)).dropKey
  return { s.take t 3 with keyAllowed := false }

def openFlow (s : Scan) (t : Token) : Except Error Scan := do
  let s ← s.noteKey
  return { s.take t 1 with flow := t :: s.flow, keyAllowed := true }

def closeFlow (s : Scan) (t : Token) : Except Error Scan := do
  let s ← s.dropKey
  match s.flow with
  | [] => .error .invalid
  | _ :: outer => .ok { s.take t 1 with flow := outer, keyAllowed := false }

def flowEntry (s : Scan) : Except Error Scan := do
  let s ← s.dropKey
  return { s.take .flowEntry 1 with keyAllowed := true }

def blockEntry (s : Scan) : Except Error Scan :=
  if s.inFlow || s.keyAllowed then do
    let s := if s.inFlow then s else s.openAt s.cursor.column s.tokens.length .blockSequenceStart
    let s ← s.dropKey
    return { s.take .blockEntry 1 with keyAllowed := true }
  else .error .invalid

def markedKey (s : Scan) : Except Error Scan :=
  if s.inFlow || s.keyAllowed then do
    let s := if s.inFlow then s else s.openAt s.cursor.column s.tokens.length .blockMappingStart
    let s ← s.dropKey
    return { s.take .key 1 with keyAllowed := !s.inFlow }
  else .error .invalid

/-- Reads the colon before a value. It makes a key of what stands before it, if that can be one. -/
def valueMark (s : Scan) : Except Error Scan :=
  match s.keys.lookup s.flow.length with
  | some k =>
    let s := { s with keys := s.keys.filter fun e => e.1 != s.flow.length }
    let s := s.insertAt k.position .key
    let s := if s.inFlow then s else s.openAt k.column k.position .blockMappingStart
    .ok { s.take .value 1 with keyAllowed := false }
  | none =>
    if s.inFlow || s.keyAllowed then
      let s := if s.inFlow then s else s.openAt s.cursor.column s.tokens.length .blockMappingStart
      .ok { s.take .value 1 with keyAllowed := !s.inFlow }
    else .error .invalid

def quotedScalar (s : Scan) (opening : Char) (behind : Text) : Except Error Scan := do
  let s ← s.noteKey
  let (text, rest) ← Quoted.read opening behind
  return { s.push (.quoted text) with cursor := s.cursor.moveTo rest, keyAllowed := false }

def plainScalar (s : Scan) : Except Error Scan := do
  let s ← s.noteKey
  let r := Plain.read s.inFlow (s.indent + 1) s.cursor
  return { s.push (.plain r.text) with cursor := r.cursor, keyAllowed := r.crossed }

def isNameChar (c : Char) : Bool :=
  !endsWord (some c) && !Plain.isFlowMark c && c != byteOrderMark

def readAlias (s : Scan) (behind : Text) : Except Error Scan :=
  let name := behind.takeWhile isNameChar
  let next := behind[name.length]?
  if name.isEmpty || !(endsWord next || next.any Plain.isFlowMark) then .error .invalid
  else do
    let s ← s.noteKey
    return { s.take .alias (name.length + 1) with keyAllowed := false }

/-- Whether a colon before `next` comes before a value. In a flow mapping it always does, unless it
follows another one while that one still waits. -/
def isValueMark (s : Scan) (next : Option Char) : Bool :=
  endsWord next ||
    (s.flow.head? == some .flowMappingStart && !(s.waiting && s.tokens.getLast? == some .value))

def readToken (s : Scan) (c : Char) (cs : Text) : Except Error Scan :=
  let next := cs.head?
  if s.cursor.column = 0 && startsTriple '-' (c :: cs) then s.marker .documentStart
  else if s.cursor.column = 0 && startsTriple '.' (c :: cs) then s.marker .documentEnd
  else if c = '[' then s.openFlow .flowSequenceStart
  else if c = '{' then s.openFlow .flowMappingStart
  else if c = ']' then s.closeFlow .flowSequenceEnd
  else if c = '}' then s.closeFlow .flowMappingEnd
  else if c = ',' then s.flowEntry
  else if c = '-' && endsWord next then s.blockEntry
  else if c = '?' && (s.inFlow || endsWord next) then s.markedKey
  else if c = ':' && s.isValueMark next then s.valueMark
  else if c = '*' then s.readAlias cs
  else if c = '\'' || c = '"' then s.quotedScalar c cs
  else if Plain.starts s.inFlow c next then s.plainScalar
  else .error .invalid

/-- Reads the next token, or ends the scan at the end of the text. -/
def step (s : Scan) : Except Error Scan := do
  let s ← s.toNextToken.dropStaleKeys
  let s := s.closeTo s.cursor.column
  match s.cursor.rest with
  | [] => do return { ← (s.closeTo (-1)).dropKey with finished := true }
  | c :: cs => s.readToken c cs

/-- How many tokens do not wait: a token waits if a key may begin with it or before it. -/
def settled (s : Scan) : Nat := (s.keys.map fun e => e.2.position).foldl min s.tokens.length

def brokenOff (s : Scan) (e : Error) : List Token := s.tokens.take s.settled ++ [.fault e]

/-- Reads tokens up to the end of the text, with at most `fuel` steps. -/
def readTokens : Nat → Scan → List Token
  | 0, s => s.tokens
  | fuel + 1, s =>
    match s.dropStaleKeys with
    | .error e => s.brokenOff e
    | .ok s =>
      match { s with waiting := !s.keys.isEmpty }.step with
      | .error e => s.brokenOff e
      | .ok next => if next.finished then next.tokens else readTokens fuel next

end Scan

def isAllowed (c : Char) : Bool :=
  let n := c.toNat
  n == 9 || n == 10 || n == 13 || (0x20 ≤ n && n ≤ 0x7e) || n == 0x85 ||
    (0xa0 ≤ n && n ≤ 0xfffd) || 0x10000 ≤ n

/-- The tokens of a text. Every token takes at least one character, so the length bounds the scan.
-/
def Token.scan (t : Text) : List Token :=
  if t.all isAllowed then Scan.readTokens (t.length + 1) { cursor := { rest := t } }
  else [.fault .invalid]

end ClassFormat.Yaml
