/-!
# Blank characters

Two sets of blanks: those of ASCII, and those of the Unicode property `White_Space`.
-/

namespace NeighborSearch.Text

/-- Whether a character is a blank of ASCII. The vertical tab is none. -/
def isAsciiBlank (c : Char) : Bool :=
  c == ' ' || c == '\t' || c == '\n' || c == '\x0c' || c == '\r'

/-- The blanks beyond ASCII and the vertical tab. -/
def wideBlanks : List Char :=
  ['\x0b', '\u0085', '\u00a0', '\u1680', '\u2000', '\u2001', '\u2002', '\u2003', '\u2004', '\u2005',
    '\u2006', '\u2007', '\u2008', '\u2009', '\u200a', '\u2028', '\u2029', '\u202f', '\u205f',
    '\u3000']

/-- Whether a character is a blank of Unicode. -/
def isBlank (c : Char) : Bool :=
  isAsciiBlank c || wideBlanks.contains c

/-- A text without the blanks at both ends. -/
def trim (s : List Char) : List Char :=
  ((s.dropWhile isBlank).reverse.dropWhile isBlank).reverse

end NeighborSearch.Text
