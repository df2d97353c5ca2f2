import SourceAtlas.Text.Category
import SourceAtlas.Text.Ranges

/-!
# Letters and words

* `isAlphabetic`, `isLowercase`, `isUppercase`, `isNumeric`;
* **`isWordChar`**: what words are made of.
-/

namespace SourceAtlas.Text

/-- Is the character's category in the list? -/
def hasCategory (categories : List Category) (c : Char) : Bool := categories.contains (.ofChar c)

/-- The letters. -/
def letterCategories : List Category :=
  [.uppercaseLetter, .lowercaseLetter, .titlecaseLetter, .modifierLetter, .otherLetter]

/-- The marks that combine with letters. -/
def markCategories : List Category := [.nonspacingMark, .spacingMark, .enclosingMark]

/-- The characters that count as alphabetic although they are neither letters nor letter numbers. -/
def otherAlphabetic : List (Nat × Nat) :=
  Ranges.decode <| String.join [
    "837+0 30+12 577+13 2+0 2+1 2+1 2+0 73+10 49+12 2+6 17+0 102+6 5+3 3+1 5+0 36+0 31+15 103",
    "+10 102+1 4+8 2+2 2+3 107+0 61+11 4+6 7+19 55+1 3+14 2+1 6+2 11+1 30+2 59+6 3+1 3+1 11+0",
    " 11+1 30+2 59+4 5+1 3+1 5+0 31+1 4+0 12+2 59+7 2+2 2+1 22+1 23+2 5+2 59+6 3+1 3+1 10+1 1",
    "1+1 31+0 60+4 4+2 2+2 11+0 41+4 58+6 2+2 2+2 9+1 12+1 30+2 59+6 2+2 2+2 9+1 12+1 16+0 13",
    "+3 59+6 2+2 2+2 11+0 11+1 30+2 76+5 2+0 2+7 19+1 62+0 3+6 19+0 100+0 3+5 2+1 17+0 164+18",
    " 10+10 2+35 111+11 2+0 3+3 24+3 5+2 2+2 3+6 4+3 14+11 2+0 11+3 1653+1 31+1 31+1 31+1 67+",
    "18 189+1 35+0 119+11 5+8 223+4 58+9 3+19 75+1 12+2 50+4 49+14 61+2 31+8 3+1 58+10 51+18 ",
    "413+33 1730+51 2295+31 30837+7 35+1 355+0 9+0 24+4 89+1 51+15 2+0 58+0 39+4 29+11 46+3 4",
    "9+11 38+0 68+13 13+0 9+1 46+2 51+0 2+2 3+1 6+0 45+4 6+0 238+7 20276+0 2136+4 1671+2 2+1 ",
    "6+3 789+3 66+0 322+1 78+2 260+2 54+13 46+1 12+2 46+8 10+0 62+2 37+11 19+1 58+2 49+12 15+",
    "1 93+8 3+0 7+0 3+0 158+9 24+3 59+6 3+1 3+1 11+0 11+1 85+8 2+0 3+0 2+3 2+1 104+12 2+2 107",
    "+17 238+6 3+6 30+1 83+14 2+0 107+10 104+13 258+12 248+5 2+1 3+1 4+0 2+0 143+6 3+5 5+0 29",
    "+9 43+4 2+3 19+10 47+13 201+7 200+7 2+6 84+21 2+13 123+5 4+0 2+1 2+2 2+0 4+0 67+4 2+1 2+",
    "3 349+3 10+1 2+0 49+6 4+2 16862+16 3617+0 2+54 8+3 94+1 19629+0 9058+6 2+16 3+6 2+1 2+4 ",
    "101+0 1620+0 3+0 8+1 6+0 594+0 2025+25 7+25 7+25"]

/-- The characters that count as small although they are not small letters. -/
def otherLowercase : List (Nat × Nat) :=
  Ranges.decode <| String.join [
    "170+0 16+0 502+8 8+1 31+4 97+0 53+0 3458+0 3120+62 14+0 35+36 690+0 14+0 17+12 212+15 84",
    "9+25 1939+1 31263+1 211+0 129+3 4+1 867+3 10+0 23575+0 3+2 2+41 2+8 55414+61"]

/-- The characters that count as capital although they are not capital letters. -/
def otherUppercase : List (Nat × Nat) :=
  Ranges.decode <| String.join [
    "8544+15 839+25 117857+25 7+25 7+25"]

/-- What makes up words in writing. -/
def isAlphabetic (c : Char) : Bool :=
  hasCategory (.letterNumber :: letterCategories) c || Ranges.contains otherAlphabetic c.toNat

/-- A small letter. -/
def isLowercase (c : Char) : Bool :=
  hasCategory [.lowercaseLetter] c || Ranges.contains otherLowercase c.toNat

/-- A capital letter. -/
def isUppercase (c : Char) : Bool :=
  hasCategory [.uppercaseLetter] c || Ranges.contains otherUppercase c.toNat

/-- A digit or another character for a number. -/
def isNumeric (c : Char) : Bool := hasCategory [.decimalNumber, .letterNumber, .otherNumber] c

/-- What words are made of: alphabetic characters, marks, digits, connectors and joiners. -/
def isWordChar (c : Char) : Bool :=
  isAlphabetic c || hasCategory ([.decimalNumber, .connectorPunctuation] ++ markCategories) c ||
    c == '\u200c' || c == '\u200d'

end SourceAtlas.Text
