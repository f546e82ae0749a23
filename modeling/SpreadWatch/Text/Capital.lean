/-!
Capital forms of words, as far as an ASCII word can arise from them. Two letters outside ASCII,
the dotless i and the long s, have ASCII capitals.
-/

namespace SpreadWatch.Text

/-- The capital form of a letter with an ASCII capital; every other character stays as it is. -/
def capital (c : Char) : Char :=
  if c.toNat = 0x131 then 'I'
  else if c.toNat = 0x17F then 'S'
  else c.toUpper

/-- A word in capitals, exact for every word whose capital form is one of the level names. -/
def capitals (word : String) : String := String.ofList (word.toList.map capital)

end SpreadWatch.Text
