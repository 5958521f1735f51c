import Switchboard.Unicode.Lowercase
import Switchboard.Unicode.Alphanumeric

/-!
# Text

Words, trimming, splitting and searching on lists of characters. White space is the Unicode
property `White_Space`; a word is a longest run of characters without white space.
-/

namespace Switchboard.Text

/-- Unicode property `White_Space`. -/
def isBlank (c : Char) : Bool :=
  let n := c.toNat
  (9 ≤ n && n ≤ 13) || n = 0x20 || n = 0x85 || n = 0xa0 || n = 0x1680 ||
    (0x2000 ≤ n && n ≤ 0x200a) || n = 0x2028 || n = 0x2029 || n = 0x202f || n = 0x205f ||
    n = 0x3000

/-- `s` without the characters satisfying `p` at either end. -/
def strip (p : Char → Bool) (s : List Char) : List Char :=
  ((s.dropWhile p).reverse.dropWhile p).reverse

/-- `s` without white space at either end. -/
def trim (s : List Char) : List Char :=
  strip isBlank s

/-- The words of `s`, the first of which continues the reversed text `current`. -/
def wordsFrom (current : List Char) : (s : List Char) → List (List Char)
  | [] => if current.isEmpty then [] else [current.reverse]
  | c :: rest =>
    if isBlank c then
      (if current.isEmpty then [] else [current.reverse]) ++ wordsFrom [] rest
    else wordsFrom (c :: current) rest

/-- The words of `s` in order. -/
def words (s : List Char) : List (List Char) :=
  wordsFrom [] s

/-- The trimmed, non-empty entries of a comma-separated list. -/
def commaList (s : List Char) : List (List Char) :=
  ((s.splitOn ',').map trim).filter (!·.isEmpty)

/-- Whether `needle` stands somewhere in the text. -/
def occursIn (needle : List Char) : (s : List Char) → Bool
  | [] => needle.isEmpty
  | c :: rest => needle.isPrefixOf (c :: rest) || occursIn needle rest

/-- Lower case of a string. -/
def lowercase (s : String) : String :=
  String.ofList (Unicode.lower s.toList)

/-- A string without outer white space. -/
def trimmed (s : String) : String :=
  String.ofList (trim s.toList)

/-- Whether a string is empty or all white space. -/
def isBlankString (s : String) : Bool :=
  s.toList.all isBlank

/-- Strings in order of their code points, which is the order of their UTF-8 bytes. -/
def sortStrings (l : List String) : List String :=
  l.mergeSort fun a b => decide (a ≤ b)

end Switchboard.Text
