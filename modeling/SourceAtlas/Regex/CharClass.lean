import SourceAtlas.Text.Blank
import SourceAtlas.Text.Fold
import SourceAtlas.Text.Letters
import SourceAtlas.Text.Script

/-!
# Classes of characters

* `CharClass`, **`CharClass.contains`**;
* `CharClass.posix?`: the classes with names in brackets;
* `CharClass.property?`: the classes of properties of characters.
-/

namespace SourceAtlas

/-- A set of characters. -/
inductive CharClass where
  /-- The characters in ranges of code points. -/
  | ranges (ranges : List (Nat × Nat))
  /-- The characters with one of the categories. -/
  | categories (categories : List Text.Category)
  /-- What words are made of. -/
  | word
  /-- The blanks. -/
  | blank
  | alphabetic
  | lowercase
  | uppercase
  | negate (c : CharClass)
  | union (a b : CharClass)
  | inter (a b : CharClass)
  | diff (a b : CharClass)
  | symmDiff (a b : CharClass)
  /-- The characters that differ from one in the set in case only. -/
  | folded (c : CharClass)
  /-- The same for the letters of ASCII alone. -/
  | foldedAscii (c : CharClass)
deriving Repr, Inhabited

namespace CharClass

/-- The letter of ASCII in the other case. -/
def otherCase (c : Char) : Char := if c.isUpper then c.toLower else c.toUpper

/-- Is a character in the set? -/
def contains : CharClass → Char → Bool
  | ranges rs, x => Text.Ranges.contains rs x.toNat
  | categories cs, x => Text.hasCategory cs x
  | word, x => Text.isWordChar x
  | blank, x => Text.isBlank x
  | alphabetic, x => Text.isAlphabetic x
  | lowercase, x => Text.isLowercase x
  | uppercase, x => Text.isUppercase x
  | negate c, x => !c.contains x
  | union a b, x => a.contains x || b.contains x
  | inter a b, x => a.contains x && b.contains x
  | diff a b, x => a.contains x && !b.contains x
  | symmDiff a b, x => a.contains x != b.contains x
  | folded c, x => (Text.Fold.group x).any fun y => c.contains y
  | foldedAscii c, x => c.contains x || c.contains (otherCase x)

/-- No character at all. -/
def none : CharClass := ranges []

/-- Every character. -/
def any : CharClass := ranges [(0, 0x10FFFF)]

/-- One character. -/
def single (c : Char) : CharClass := ranges [(c.toNat, c.toNat)]

/-- The characters from one to another. -/
def between (a b : Char) : CharClass := ranges [(a.toNat, b.toNat)]

/-- The complement of a set if `negated` is set. -/
def negateIf (negated : Bool) (c : CharClass) : CharClass := if negated then negate c else c

/-- The digits of ASCII. -/
def asciiDigit : CharClass := between '0' '9'

/-- The blanks of ASCII. -/
def asciiBlank : CharClass := ranges [(9, 13), (32, 32)]

/-- The letters, digits and the underscore of ASCII. -/
def asciiWord : CharClass := ranges [(48, 57), (65, 90), (95, 95), (97, 122)]

/-- Does the set hold a byte outside of ASCII? -/
def hasHighByte (c : CharClass) : Bool :=
  (List.range 128).any fun i => c.contains (Char.ofNat (128 + i))

/-- The class with a name in brackets. -/
def posix? : String → Option CharClass
  | "alnum" => some (ranges [(48, 57), (65, 90), (97, 122)])
  | "alpha" => some (ranges [(65, 90), (97, 122)])
  | "ascii" => some (ranges [(0, 127)])
  | "blank" => some (ranges [(9, 9), (32, 32)])
  | "cntrl" => some (ranges [(0, 31), (127, 127)])
  | "digit" => some asciiDigit
  | "graph" => some (ranges [(33, 126)])
  | "lower" => some (ranges [(97, 122)])
  | "print" => some (ranges [(32, 126)])
  | "punct" => some (ranges [(33, 47), (58, 64), (91, 96), (123, 126)])
  | "space" => some asciiBlank
  | "upper" => some (ranges [(65, 90)])
  | "word" => some asciiWord
  | "xdigit" => some (ranges [(48, 57), (65, 70), (97, 102)])
  | _ => Option.none

/-! ## Properties -/

/-- The groups of categories and the long names of categories. -/
def categoryNames : List (String × List String) :=
  [("l", ["Lu", "Ll", "Lt", "Lm", "Lo"]), ("letter", ["Lu", "Ll", "Lt", "Lm", "Lo"]),
    ("lc", ["Lu", "Ll", "Lt"]), ("casedletter", ["Lu", "Ll", "Lt"]),
    ("m", ["Mn", "Mc", "Me"]), ("mark", ["Mn", "Mc", "Me"]), ("combiningmark", ["Mn", "Mc", "Me"]),
    ("n", ["Nd", "Nl", "No"]), ("number", ["Nd", "Nl", "No"]),
    ("p", ["Pc", "Pd", "Ps", "Pe", "Pi", "Pf", "Po"]),
    ("punctuation", ["Pc", "Pd", "Ps", "Pe", "Pi", "Pf", "Po"]),
    ("punct", ["Pc", "Pd", "Ps", "Pe", "Pi", "Pf", "Po"]),
    ("s", ["Sm", "Sc", "Sk", "So"]), ("symbol", ["Sm", "Sc", "Sk", "So"]),
    ("z", ["Zs", "Zl", "Zp"]), ("separator", ["Zs", "Zl", "Zp"]),
    ("c", ["Cc", "Cf", "Cs", "Co", "Cn"]), ("other", ["Cc", "Cf", "Cs", "Co", "Cn"]),
    ("uppercaseletter", ["Lu"]), ("lowercaseletter", ["Ll"]), ("titlecaseletter", ["Lt"]),
    ("modifierletter", ["Lm"]), ("otherletter", ["Lo"]), ("nonspacingmark", ["Mn"]),
    ("spacingmark", ["Mc"]), ("enclosingmark", ["Me"]), ("decimalnumber", ["Nd"]),
    ("digit", ["Nd"]), ("letternumber", ["Nl"]), ("othernumber", ["No"]),
    ("connectorpunctuation", ["Pc"]), ("dashpunctuation", ["Pd"]), ("openpunctuation", ["Ps"]),
    ("closepunctuation", ["Pe"]), ("initialpunctuation", ["Pi"]), ("finalpunctuation", ["Pf"]),
    ("otherpunctuation", ["Po"]), ("mathsymbol", ["Sm"]), ("currencysymbol", ["Sc"]),
    ("modifiersymbol", ["Sk"]), ("othersymbol", ["So"]), ("spaceseparator", ["Zs"]),
    ("lineseparator", ["Zl"]), ("paragraphseparator", ["Zp"]), ("control", ["Cc"]),
    ("cntrl", ["Cc"]), ("format", ["Cf"]), ("surrogate", ["Cs"]), ("privateuse", ["Co"]),
    ("unassigned", ["Cn"])]

/-- The class of a general category. -/
def category? (name : String) : Option CharClass :=
  match name with
  | "any" => some any
  | "ascii" => some (ranges [(0, 127)])
  | "assigned" => some (negate (categories [.unassigned]))
  | _ =>
    match categoryNames.find? (·.1 == name) with
    | some (_, codes) => some (categories (codes.filterMap Text.Category.ofCode?))
    | Option.none =>
      (Text.Category.all.find? fun c => Text.Script.simplify c.code == name).map
        fun c => categories [c]

/-- Short names of scripts. -/
def scriptNames : List (String × String) :=
  [("arab", "arabic"), ("armn", "armenian"), ("beng", "bengali"), ("cyrl", "cyrillic"),
    ("deva", "devanagari"), ("ethi", "ethiopic"), ("geor", "georgian"), ("grek", "greek"),
    ("hang", "hangul"), ("hani", "han"), ("hebr", "hebrew"), ("hira", "hiragana"),
    ("kana", "katakana"), ("khmr", "khmer"), ("laoo", "lao"), ("latn", "latin"),
    ("mong", "mongolian"), ("mymr", "myanmar"), ("taml", "tamil"), ("telu", "telugu"),
    ("zinh", "inherited"), ("qaai", "inherited"), ("zyyy", "common")]

/-- The class of a script. -/
def script? (name : String) : Option CharClass :=
  let name := ((scriptNames.find? (·.1 == name)).map (·.2)).getD name
  (Text.Script.ranges? name).map ranges

/-- The characters with which names start. -/
def nameStart : CharClass :=
  union (categories (.letterNumber :: Text.letterCategories))
    (ranges [(0x1885, 0x1886), (0x2118, 0x2118), (0x212E, 0x212E), (0x309B, 0x309C)])

/-- The characters of which names consist. -/
def namePart : CharClass :=
  union nameStart <|
    union (categories [.nonspacingMark, .spacingMark, .decimalNumber, .connectorPunctuation])
      (ranges [(0xB7, 0xB7), (0x387, 0x387), (0x1369, 0x1371), (0x19DA, 0x19DA), (0x200C, 0x200D),
        (0x30FB, 0x30FB), (0xFF65, 0xFF65)])

/-- The class of a property that a character has or has not. -/
def binary? : String → Option CharClass
  | "alphabetic" | "alpha" => some alphabetic
  | "lowercase" | "lower" => some lowercase
  | "uppercase" | "upper" => some uppercase
  | "whitespace" | "wspace" | "space" => some blank
  | "asciihexdigit" | "ahex" => posix? "xdigit"
  | "hexdigit" | "hex" =>
    (posix? "xdigit").map (union (ranges [(0xFF10, 0xFF19), (0xFF21, 0xFF26), (0xFF41, 0xFF46)]))
  | "idstart" | "ids" | "xidstart" | "xids" => some nameStart
  | "idcontinue" | "idc" | "xidcontinue" | "xidc" => some namePart
  | "joincontrol" | "joinc" => some (ranges [(0x200C, 0x200D)])
  | _ => Option.none

/-- Leaves out what does not count in the name of a property. -/
def simplifyName (name : String) : String :=
  let cs := name.toList.filter fun c => !(c == ' ' || c == '_' || c == '-')
  let s := String.ofList (cs.map Char.toLower)
  match s.toList with
  | 'i' :: 's' :: rest => if rest.isEmpty || s == "isc" then s else String.ofList rest
  | _ => s

/-- The class of a named property. -/
def property? (name : String) : Option CharClass :=
  let name := simplifyName name
  let binary := if name == "cf" || name == "sc" || name == "lc" then Option.none else binary? name
  (binary.or (category? name)).or (script? name)

/-- The class of a property with this value. -/
def valueOf? (name value : String) : Option CharClass :=
  match simplifyName name with
  | "gc" | "generalcategory" => category? (simplifyName value)
  | "sc" | "script" | "scx" | "scriptextensions" => script? (simplifyName value)
  | _ => Option.none

end CharClass

end SourceAtlas
