/-!
Blank characters: the characters that separate words, and the trimming of texts by them.
-/

namespace SpreadWatch.Text

/-- The blank characters: the ASCII ones, including the four information separators, and the
spaces and line separators of the other blocks. -/
def isBlank (c : Char) : Bool :=
  let code := c.toNat
  (9 ≤ code && code ≤ 13) || (28 ≤ code && code ≤ 32) || code == 0x85 || code == 0xA0 ||
    code == 0x1680 || (0x2000 ≤ code && code ≤ 0x200A) || code == 0x2028 || code == 0x2029 ||
    code == 0x202F || code == 0x205F || code == 0x3000

def trimWhere (test : Char → Bool) (chars : List Char) : List Char :=
  ((chars.dropWhile test).reverse.dropWhile test).reverse

def trim (chars : List Char) : List Char := trimWhere isBlank chars

/-- The blanks that may stand around a binary number: all but the information separators. -/
def isPadding (c : Char) : Bool := isBlank c && ! (28 ≤ c.toNat && c.toNat ≤ 31)

def isNonBlank (text : String) : Bool := text.toList.any fun c => ! isBlank c

end SpreadWatch.Text
