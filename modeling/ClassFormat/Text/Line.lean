import ClassFormat.Basic

namespace ClassFormat

inductive Newline where
  | lf
  | crlf
  deriving DecidableEq, Repr

def Newline.text : Newline → Text
  | .lf => ['\n']
  | .crlf => ['\r', '\n']

namespace Text

/-- Indentation is made of spaces and tabs. -/
def isIndent (c : Char) : Bool := c == ' ' || c == '\t'

def lastLineStart (t : Text) : Nat :=
  (t.reverse.dropWhile (· ≠ '\n')).length

/-- The indentation of the line that holds an offset; it may reach past the offset. -/
def lineIndent (t : Text) (offset : Int) : Text :=
  (t.drop (lastLineStart (t.take (t.position offset)))).takeWhile isIndent

def countCrlf : Text → Nat
  | '\r' :: '\n' :: cs => countCrlf cs + 1
  | _ :: cs => countCrlf cs
  | [] => 0

/-- The line ending of most line breaks; without a majority it is the plain line feed. -/
def dominantNewline (t : Text) : Newline :=
  if t.countCrlf > t.count '\n' - t.countCrlf then .crlf else .lf

/-- Writes every line end as a line feed: a carriage return counts as one, also together with the
line feed behind it. -/
def unifyNewlines : Text → Text
  | [] => []
  | '\r' :: '\n' :: cs => '\n' :: unifyNewlines cs
  | c :: cs => (if c = '\r' then '\n' else c) :: unifyNewlines cs

/-- Writes every line feed of a text as the given line ending. -/
def withNewline (t : Text) (newline : Newline) : Text :=
  t.replaceChar '\n' newline.text

end Text

end ClassFormat
