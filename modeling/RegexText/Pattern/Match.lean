import RegexText.Regex.Search
import RegexText.Template
import RegexText.Text.Quoted

/-!
# Matches

What a match reports: the texts of its groups, and the indices of its first and its last character.
-/

namespace RegexText

/-- A match. Of a single match, `values` holds the whole text and then the groups, absent those that
took no part; of a global match it holds the text of every occurrence. -/
structure Match where
  values : List (Option Text)
  /-- The index of the first character. -/
  index : Nat
  /-- The index of the last character, absent if the match is empty. -/
  lastIndex : Option Nat

namespace Match

/-- The value with number `i`, if it exists and took part. -/
def value? (m : Match) (i : Nat) : Option Text := m.values[i]?.join

/-- The whole text of the match, or of its first occurrence. -/
def text (m : Match) : Text := (m.value? 0).getD []

/-- The index just after the match. -/
def stop (m : Match) : Nat :=
  match m.lastIndex with
  | none => m.index
  | some last => last + 1

/-- A template with the values of the match put in, absent ones as nothing. -/
def expand (m : Match) (template : Text) : Text :=
  Template.expand (m.values.map (·.getD [])) template

/-- The match as it is shown, with `-1` for an absent last index and `nil` for an absent value. -/
def display (m : Match) : Text :=
  "<Re.Result index: ".toList ++ Text.decimal m.index ++ ", lastIndex: ".toList ++
    (m.lastIndex.map Text.decimal).getD ['-', '1'] ++ ", values: [".toList ++
    Text.commaSeparated (m.values.map displayValue) ++ "]>".toList
where
  displayValue (v : Option Text) : Text := (v.map Text.quoted).getD "nil".toList

/-- The last index of the characters of the spans that hold any, which are counted from `offset`. -/
def lastIndexOf? (offset : Nat) (spans : List Span) : Option Nat :=
  ((spans.filter (!·.isEmpty)).map fun s => offset + s.stop - 1).max?

/-- The match found in `t`, whose first character has index `offset`. -/
def ofCaptures (t : Text) (offset : Nat) (c : Regex.Captures) : Match where
  values := some (c.whole.text t) :: c.groups.map (·.map (·.text t))
  index := offset + c.whole.start
  lastIndex := lastIndexOf? offset (c.whole :: c.groups.filterMap id)

/-- The global match whose occurrences are `first` and `more`, found in `t`, whose first character
has index `offset`. -/
def ofOccurrences (t : Text) (offset : Nat) (first : Span) (more : List Span) : Match where
  values := (first :: more).map fun s => some (s.text t)
  index := offset + first.start
  lastIndex := lastIndexOf? offset (first :: more)

end Match

end RegexText
