import ClassFormat.Decimal.Numeral
import ClassFormat.Text.Quoted
import ClassFormat.Yaml.Basic

namespace ClassFormat.Yaml

/-- The text that a run of line breaks stands for: one break counts as a space, and of several
breaks the first one is dropped. -/
def foldBreaks : List Char → Text
  | [] => []
  | ['\n'] => [' ']
  | '\n' :: later => later
  | breaks => breaks

namespace Quoted

/-- Where a reader of a quoted scalar stands. -/
inductive Mode where
  /-- Behind a character that counts as it is. -/
  | text
  /-- Behind blanks, which count unless a line break follows. -/
  | blanks (run : Text)
  /-- Behind the given line breaks. -/
  | breaks (all : Text)
  /-- Behind an escaped line break and the given further ones. -/
  | joined (later : Text)
  /-- Behind a backslash. -/
  | escape
  /-- Inside an escape that gives a code point, with digits still to come. -/
  | code (missing value : Nat)
  /-- Behind a single quote that may be the first of two. -/
  | quote

def Mode.pending : Mode → Text
  | .blanks run => run
  | .breaks all => foldBreaks all
  | .joined later => later
  | _ => []

/-- The characters that stand for themselves or for a control character behind a backslash. -/
def escapes : List (Char × Char) :=
  [('0', Char.ofNat 0), ('a', Char.ofNat 7), ('b', Char.ofNat 8), ('t', '\t'), ('\t', '\t'),
    ('n', '\n'), ('v', Char.ofNat 11), ('f', Char.ofNat 12), ('r', '\r'), ('e', Char.ofNat 27),
    (' ', ' '), ('"', '"'), ('/', '/'), ('\\', '\\'), ('N', Char.ofNat 0x85),
    ('_', Char.ofNat 0xa0), ('L', Char.ofNat 0x2028), ('P', Char.ofNat 0x2029)]

def codeLength? (c : Char) : Option Nat :=
  if c = 'x' then some 2 else if c = 'u' then some 4 else if c = 'U' then some 8 else none

def codePoint (n : Nat) : Except Error Nat :=
  if n < 0x110000 then .ok n
  else .error (.fault (if n < 0x80000000 then .noSuchValue else .outOfRange))

/-- What is read of a quoted scalar, and what follows its closing quote. -/
abbrev Reading := Except Error (CodeText × Text)

def prepend (codes : CodeText) (r : Reading) : Reading :=
  r.map fun (more, rest) => (codes ++ more, rest)

def readFrom (opening : Char) (mode : Mode) : Text → Reading
  | [] =>
    match mode with
    | .quote => .ok ([], [])
    | _ => .error .invalid
  | c :: cs =>
    match mode with
    | .quote =>
      if c = '\'' then prepend ['\''.toNat] (readFrom opening .text cs) else .ok ([], c :: cs)
    | .escape =>
      match escapes.lookup c, codeLength? c with
      | some d, _ => prepend [d.toNat] (readFrom opening .text cs)
      | none, some n => readFrom opening (.code n 0) cs
      | none, none =>
        if isBreak c && !isMarker cs then readFrom opening (.joined []) cs else .error .invalid
    | .code missing value =>
      match Numeral.natural? 16 [c] with
      | none => .error .invalid
      | some d =>
        if missing ≤ 1 then do
          let n ← codePoint (16 * value + d)
          prepend [n] (readFrom opening .text cs)
        else readFrom opening (.code (missing - 1) (16 * value + d)) cs
    | mode =>
      if c = ' ' || c = '\t' then
        match mode with
        | .blanks run => readFrom opening (.blanks (run ++ [c])) cs
        | .text => readFrom opening (.blanks [c]) cs
        | mode => readFrom opening mode cs
      else if isBreak c then
        if isMarker cs then .error .invalid
        else
          match mode with
          | .breaks all => readFrom opening (.breaks (all ++ [normalBreak c])) cs
          | .joined later => readFrom opening (.joined (later ++ [normalBreak c])) cs
          | _ => readFrom opening (.breaks [normalBreak c]) cs
      else
        prepend mode.pending.codes
          (if c = opening then
            if c = '"' then .ok ([], cs) else readFrom opening .quote cs
          else if c = '\\' && opening = '"' then readFrom opening .escape cs
          else prepend [c.toNat] (readFrom opening .text cs))

def read (opening : Char) (t : Text) : Reading := readFrom opening .text t

end Quoted

namespace Plain

def isFlowMark (c : Char) : Bool :=
  c == ',' || c == '[' || c == ']' || c == '{' || c == '}'

/-- Whether a plain scalar ends before `c`: at a blank, at a colon with a blank behind it, and
inside a flow collection at one of its marks. -/
def stops (flow : Bool) (c : Char) (next : Option Char) : Bool :=
  if c = ':' then endsWord next else endsWord (some c) || (flow && isFlowMark c)

/-- The longest run of characters of a plain scalar, and what follows it. -/
def run (flow : Bool) : Text → Text × Text
  | [] => ([], [])
  | c :: cs =>
    if stops flow c cs.head? then ([], c :: cs)
    else
      let (r, rest) := run flow cs
      (c :: r, rest)

/-- What stands between two runs of a plain scalar. -/
structure Gap where
  /-- What the gap counts as; an empty gap ends the scalar. -/
  text : Text
  /-- Whether the gap holds a line break. -/
  crossed : Bool
  /-- What follows the gap. -/
  rest : Text

/-- Passes spaces and line breaks behind the line breaks `all`. A marker ends the scalar. -/
def breaksFrom (all : Text) : Text → Gap
  | [] => ⟨foldBreaks all, true, []⟩
  | c :: cs =>
    if c = ' ' then breaksFrom all cs
    else if isBreak c then
      if isMarker cs then ⟨[], true, cs⟩ else breaksFrom (all ++ [normalBreak c]) cs
    else ⟨foldBreaks all, true, c :: cs⟩

def gap (t : Text) : Gap :=
  match t.dropWhile (· = ' ') with
  | [] => ⟨t.takeWhile (· = ' '), false, []⟩
  | c :: cs =>
    if isBreak c then
      if isMarker cs then ⟨[], true, cs⟩ else breaksFrom [normalBreak c] cs
    else ⟨t.takeWhile (· = ' '), false, c :: cs⟩

/-- A plain scalar, the place behind it, and whether a line break ends it. -/
structure Reading where
  text : Text
  cursor : Cursor
  crossed : Bool

/-- Reads a plain scalar run by run, with at most `fuel` runs. Outside flow collections a line that
is not indented deeply enough ends it. -/
def readFrom (flow : Bool) (indent : Int) : Nat → Cursor → Bool → Reading
  | 0, k, crossed => ⟨[], k, crossed⟩
  | fuel + 1, k, crossed =>
    if k.peek? = some '#' then ⟨[], k, crossed⟩
    else
      let (r, rest) := run flow k.rest
      if r.isEmpty then ⟨[], k, crossed⟩
      else
        let g := gap rest
        let k := k.moveTo g.rest
        if g.text.isEmpty || k.peek? = some '#' || (!flow && k.column < indent) then
          ⟨r, k, g.crossed⟩
        else
          let more := readFrom flow indent fuel k g.crossed
          { more with text := if more.text.isEmpty then r else r ++ g.text ++ more.text }

def read (flow : Bool) (indent : Int) (k : Cursor) : Reading :=
  readFrom flow indent (k.rest.length + 1) k false

def starts (flow : Bool) (c : Char) (next : Option Char) : Bool :=
  if c = '-' then !endsWord next
  else if c = '?' then !flow && !endsWord next
  else if c = ':' then
    if flow then next != some ' ' && next != some '\t' else !endsWord next
  else !(endsWord (some c) || isFlowMark c || "#&*!|>'\"%@\x60".toList.contains c)

end Plain

end ClassFormat.Yaml
