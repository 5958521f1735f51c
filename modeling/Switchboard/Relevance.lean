import Switchboard.Text

/-!
# Relevance

How well a text answers a query is the share of the query's tokens that occur in some token of
the text. Tokens are the words of a text in lower case, without what is not a letter or digit
at either end. Texts are ranked by their share; texts with equal shares keep their order.
-/

namespace Switchboard.Relevance

/-- The token of a word; empty if the word has no letter or digit. -/
def tokenOfWord (w : List Char) : List Char :=
  Unicode.lower (Text.strip (fun c => !Unicode.isAlphanumeric c) w)

/-- The tokens of a text in order. -/
def tokens (s : List Char) : List (List Char) :=
  ((Text.words s).map tokenOfWord).filter (!·.isEmpty)

/-- Whether a query token occurs in some token of a text. -/
def isMatched (content : List (List Char)) (q : List Char) : Bool :=
  content.any fun c => Text.occursIn q c

/-- The number of query tokens that occur in a text. -/
def matchCount (query content : List (List Char)) : Nat :=
  query.countP (isMatched content)

/-- The share of query tokens that occur in a text; zero for a query without tokens. -/
def scoreTokens (query content : List (List Char)) : Float :=
  if query.isEmpty then 0
  else Float.ofNat (matchCount query content) / Float.ofNat query.length

/-- The share of the tokens of `query` that occur in `content`. -/
def score (query content : String) : Float :=
  scoreTokens (tokens query.toList) (tokens content.toList)

/-- The place of a number in the total order of floating point numbers. -/
def orderKey (x : Float) : Int :=
  let n := x.toBits.toNat
  if n < Nat.pow 2 63 then n else -(n - Nat.pow 2 63 : Nat) - 1

/-- Whether a text with score `x` is worth returning. -/
def isRelevant (threshold x : Float) : Bool :=
  x > 0 && x ≥ threshold

/-- The scores of the candidates with their indices. -/
def scored (query : List (List Char)) (candidates : List String) : List (Nat × Float) :=
  candidates.zipIdx.map fun c => (c.2, scoreTokens query (tokens c.1.toList))

/-- The best `limit` of the relevant candidates, by index and score. -/
def rank (query : String) (candidates : List String) (threshold : Float) (limit : Nat) :
    List (Nat × Float) :=
  let relevant := (scored (tokens query.toList) candidates).filter fun c =>
    isRelevant threshold c.2
  (relevant.mergeSort fun a b => decide (orderKey b.2 ≤ orderKey a.2)).take limit

/-- The threshold if none is given. -/
def defaultThreshold : Float := 0.3

/-- The number of texts fetched if none is given. -/
def defaultLimit : Nat := 10

end Switchboard.Relevance
