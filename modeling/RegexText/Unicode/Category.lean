import RegexText.Unicode.Blank
import RegexText.Unicode.Letter
import RegexText.Unicode.Mark
import RegexText.Unicode.Number
import RegexText.Unicode.Printable
import RegexText.Unicode.Punctuation

/-!
# General categories

Every character has one Unicode general category. `category` tells its major class, which the first
letter of the category's abbreviation stands for, and `Category.ofName?` knows the names of these
classes.
-/

namespace RegexText.Unicode

/-- The major classes of the general categories. -/
inductive Category where
  | letter
  | mark
  | number
  | punctuation
  | symbol
  | separator
  /-- Controls, format characters, private-use characters and code points without a character. -/
  | other
  deriving DecidableEq

/-- Whether `c` is a space or ends a line or a paragraph without being a control character. -/
def isSeparator (c : Char) : Bool :=
  isWhiteSpace c && !isControl c

/-- The category of `c`. Symbols are the printable characters of no other category. -/
def category (c : Char) : Category :=
  if isLetter c then .letter
  else if isMark c then .mark
  else if isNumber c then .number
  else if isPunctuation c then .punctuation
  else if isSeparator c then .separator
  else if isPrintable c then .symbol
  else .other

namespace Category

/-- The names of the categories, in lower case and without separators. -/
def names : List (List Char × Category) := [
  ("l".toList, .letter), ("letter".toList, .letter),
  ("m".toList, .mark), ("mark".toList, .mark), ("combiningmark".toList, .mark),
  ("n".toList, .number), ("number".toList, .number),
  ("p".toList, .punctuation), ("punct".toList, .punctuation),
  ("punctuation".toList, .punctuation),
  ("s".toList, .symbol), ("symbol".toList, .symbol),
  ("z".toList, .separator), ("separator".toList, .separator),
  ("c".toList, .other), ("other".toList, .other)]

/-- What counts in a name: not the case of its letters, nor blanks, dashes, low lines and characters
outside ASCII. -/
def plainName (name : List Char) : List Char :=
  (name.filter fun c => c.val < 0x80 && c != ' ' && c != '-' && c != '_').map Char.toLower

/-- What counts in a name that may begin with `is`. That beginning does not count, but `isc` is a
name of its own and no category. -/
def looseName : List Char → List Char
  | i :: s :: name =>
    if i.toLower == 'i' && s.toLower == 's' then
      if plainName name == ['c'] then "isc".toList else plainName name
    else plainName (i :: s :: name)
  | name => plainName name

/-- The category that goes by a name. -/
def ofName? (name : List Char) : Option Category :=
  (names.find? (·.1 == looseName name)).map (·.2)

end Category

end RegexText.Unicode
