/-!
# Words

The words of a line are its longest runs of characters other than space and
tab. Other blank characters do not separate words.
-/

namespace HackStack.Text

def isGap (c : Char) : Bool := c == ' ' || c == '\t'

def words (s : List Char) : List (List Char) :=
  (s.splitOnP isGap).filter (!·.isEmpty)

example : words [' ', 'a', '\t', ' ', 'b', '\u00a0', 'c'] = [['a'], ['b', '\u00a0', 'c']] := by decide

end HackStack.Text
