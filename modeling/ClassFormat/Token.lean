import ClassFormat.Basic

namespace ClassFormat

/-- A class as it stands in an attribute value. -/
abbrev Token := Text

/-- The responsive breakpoints, smallest first. -/
inductive Breakpoint where
  | sm
  | md
  | lg
  | xl
  | xxl
  deriving DecidableEq, Repr

namespace Breakpoint

/-- All breakpoints, smallest first. -/
def all : List Breakpoint := [sm, md, lg, xl, xxl]

def name : Breakpoint → String
  | sm => "sm"
  | md => "md"
  | lg => "lg"
  | xl => "xl"
  | xxl => "2xl"

def index : Breakpoint → Nat
  | sm => 0
  | md => 1
  | lg => 2
  | xl => 3
  | xxl => 4

end Breakpoint

namespace Token

def isLower (c : Char) : Bool := 'a' ≤ c && c ≤ 'z'

def isVariantChar (c : Char) : Bool := isLower c || ('0' ≤ c && c ≤ '9')

/-- What follows each leading variant, in order; `named` says that a name has begun. -/
def restsFrom (named : Bool) : Text → List Text
  | [] => []
  | c :: cs =>
    if isVariantChar c then restsFrom true cs
    else if c == ':' && named then cs :: restsFrom false cs
    else []

/-- What follows the first leading variant, the second, and so on. A variant is a run of lower case
letters and digits with a colon behind it. -/
def variantRests (t : Token) : List Text := restsFrom false t

/-- The token without its variants. -/
def base (t : Token) : Text := t.variantRests.getLastD t

/-- A single line that is not empty, without its line feed if one ends it. -/
def line? (t : Text) : Option Text :=
  let body := if t.getLast? = some '\n' then t.dropLast else t
  if body.isEmpty || body.contains '\n' then none else some body

/-- The base that decides the category: what follows the last variant that leaves a line that is not
empty, or else the whole token. -/
def categoryBase (t : Token) : Text := (t.variantRests.reverse.findSome? line?).getD t

def breakpoint? (t : Token) : Option Breakpoint :=
  Breakpoint.all.find? fun b => (b.name.toList ++ [':']).isPrefixOf t

/-- The order of tokens in a cluster: those without breakpoint come first. -/
def rank (t : Token) : Int :=
  match t.breakpoint? with
  | none => -1
  | some b => b.index

/-- The property a token styles: the leading letters of its base, or the whole base if it starts
with none. -/
def property (t : Token) : Text :=
  match t.base.takeWhile isLower with
  | [] => t.base
  | letters => letters

end Token

end ClassFormat
