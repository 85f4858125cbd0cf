import ClassFormat.Category
import ClassFormat.Options

namespace ClassFormat

structure Bucket where
  category : Category
  tokens : List Token
  deriving DecidableEq, Repr

namespace Token

/-- All ranks, smallest first. -/
def ranks : List Int := [-1, 0, 1, 2, 3, 4]

theorem rank_mem_ranks (t : Token) : t.rank ∈ ranks := by
  unfold rank
  cases t.breakpoint? with
  | none => decide
  | some b => cases b <;> decide

/-- Sorts tokens by rank; tokens of one rank keep their order. -/
def sortByRank (ts : List Token) : List Token :=
  ranks.flatMap fun r => ts.filter fun t => t.rank = r

/-- The tokens by property, in the order in which the properties first appear; inside a cluster the
tokens without breakpoint lead and the smaller breakpoint comes first. -/
def clusters (ts : List Token) : List (List Token) :=
  (ts.map property).eraseDups.map fun p => sortByRank (ts.filter fun t => t.property = p)

/-- The tokens by category, in the order in which categories are written; no bucket is empty. -/
def buckets (ts : List Token) : List Bucket :=
  Category.emitOrder.filterMap fun c =>
    match ts.filter fun t => Category.ofToken t = c with
    | [] => none
    | tokens => some ⟨c, tokens⟩

end Token

namespace Packing

/-- Fills lines greedily: the next cluster joins the current line if the result is within the width,
otherwise it opens a line at the wrap indentation. -/
def fill (width : Int) (wrapIndent : Text) (line : Text) : List Text → List Text
  | [] => [line]
  | c :: cs =>
    if ((line ++ ' ' :: c).length : Int) ≤ width then fill width wrapIndent (line ++ ' ' :: c) cs
    else line :: fill width wrapIndent (wrapIndent ++ c) cs

/-- The lines of one category; width 0 gives every cluster a line at the class indentation. -/
def categoryLines (width : Int) (classIndent wrapIndent : Text) : List Text → List Text
  | [] => []
  | c :: cs =>
    if width = 0 then (c :: cs).map (classIndent ++ ·)
    else fill width wrapIndent (classIndent ++ c) cs

/-- A cluster as it is written: its tokens with a space between two. -/
def clusterText (cluster : List Token) : Text := [' '].intercalate cluster

/-- Classes stand two spaces deeper than the attribute that holds them. -/
def classIndent (attributeIndent : Text) : Text := attributeIndent ++ [' ', ' ']

/-- The indentation of the further lines of a category. -/
def wrapIndent (style : WrapStyle) (attributeIndent : Text) : Text :=
  if style = .extra then classIndent attributeIndent ++ [' ', ' '] else classIndent attributeIndent

def lines (options : Options) (attributeIndent : Text) (value : Text) : List Text :=
  (Token.buckets value.words).flatMap fun bucket =>
    categoryLines options.maxLineWidth (classIndent attributeIndent)
      (wrapIndent options.wrapStyle attributeIndent)
      ((Token.clusters bucket.tokens).map clusterText)

end Packing

/-- The formatted form of a class attribute value. -/
def pack (options : Options) (attributeIndent : Text) (value : Text) : Text :=
  let body := '\n' :: ['\n'].intercalate (Packing.lines options attributeIndent value)
  if options.closeQuoteOnNewLine then body ++ '\n' :: attributeIndent else body

end ClassFormat
