import RegexText.Unicode.Blank
import RegexText.Unicode.CaseOrbit
import RegexText.Unicode.Category
import RegexText.Unicode.Word

/-!
# Character classes

What one step of a regular expression reads is one character of a class. A class is kept as the
expression that was written and asked about one character at a time (`CharClass.contains`), so that
set operations and case folding need no arithmetic on ranges.
-/

namespace RegexText.Regex

/-- A set of characters. -/
inductive CharClass where
  /-- The characters from `first` to `last`. -/
  | range (first last : Char)
  /-- Decimal digits of every script. -/
  | digit
  /-- White space. -/
  | space
  /-- Word characters. -/
  | word
  /-- The characters of a general category. -/
  | category (k : Unicode.Category)
  | empty
  | union (a b : CharClass)
  | inter (a b : CharClass)
  | compl (a : CharClass)
  /-- All characters equal up to case to a member of `a`. -/
  | fold (a : CharClass)
  /-- The members of `a`, and of the ASCII letters among them both cases. -/
  | foldAscii (a : CharClass)

namespace CharClass

/-- Whether `c` belongs to the class. -/
def contains : CharClass → Char → Bool
  | range first last, c => first ≤ c && c ≤ last
  | digit, c => Unicode.isDecimal c
  | space, c => Unicode.isWhiteSpace c
  | word, c => Unicode.isWordChar c
  | category k, c => Unicode.category c == k
  | empty, _ => false
  | union a b, c => a.contains c || b.contains c
  | inter a b, c => a.contains c && b.contains c
  | compl a, c => !a.contains c
  | fold a, c => (Unicode.caseOrbit c).any a.contains
  | foldAscii a, c => a.contains c || a.contains c.toLower || a.contains c.toUpper

/-- The class of the one character `c`. -/
def single (c : Char) : CharClass := range c c

/-- All characters. -/
def any : CharClass := compl empty

/-- The members of `a` that are not in `b`. -/
def diff (a b : CharClass) : CharClass := inter a (compl b)

/-- The members of exactly one of `a` and `b`. -/
def symmDiff (a b : CharClass) : CharClass := union (diff a b) (diff b a)

/-- The class of the characters of `cs`. -/
def ofChars (cs : List Char) : CharClass :=
  cs.foldr (fun c s => union (single c) s) empty

/-- The complement of `a` if `negated`, else `a` itself. -/
def negateIf (negated : Bool) (a : CharClass) : CharClass :=
  if negated then compl a else a

/-- ASCII letters. -/
def asciiLetter : CharClass := union (range 'A' 'Z') (range 'a' 'z')

/-- ASCII digits. -/
def asciiDigit : CharClass := range '0' '9'

/-- ASCII white space. -/
def asciiSpace : CharClass := union (range '\t' '\r') (single ' ')

/-- The characters of ASCII words. -/
def asciiWord : CharClass := union (union asciiLetter asciiDigit) (single '_')

/-- The class that a bracket expression calls `name`, all of whose members are ASCII. -/
def named? (name : List Char) : Option CharClass :=
  (table.find? (·.1 == name)).map (·.2)
where
  graph := range '!' '~'
  table : List (List Char × CharClass) := [
    ("alnum".toList, union asciiLetter asciiDigit),
    ("alpha".toList, asciiLetter),
    ("ascii".toList, range '\x00' '\x7f'),
    ("blank".toList, union (single '\t') (single ' ')),
    ("cntrl".toList, union (range '\x00' '\x1f') (single '\x7f')),
    ("digit".toList, asciiDigit),
    ("graph".toList, graph),
    ("lower".toList, range 'a' 'z'),
    ("print".toList, range ' ' '~'),
    ("punct".toList, diff graph (union asciiLetter asciiDigit)),
    ("space".toList, asciiSpace),
    ("upper".toList, range 'A' 'Z'),
    ("word".toList, asciiWord),
    ("xdigit".toList, union asciiDigit (union (range 'A' 'F') (range 'a' 'f')))]

end CharClass

end RegexText.Regex
