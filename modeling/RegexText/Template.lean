import RegexText.Text.Basic

/-!
# Replacement templates

In a template, `$` and a number stand for the text of a group, and a backslash makes the next
character stand for itself. A number takes in further digits only while it stays the number of a
group, so with two groups beside the whole match `$12` is group 1 and a `2`. A number that names no
group stands for nothing; a `$` without a digit and a backslash at the end stand for themselves.

`expand` reads a template from left to right. What has been read but not settled is a
`Template.Mode`.
-/

namespace RegexText.Template

/-- The value of an ASCII digit. -/
def digitValue? (c : Char) : Option Nat :=
  if c.isDigit then some (c.toNat - '0'.toNat) else none

/-- What the characters before the current place leave open. -/
inductive Mode where
  | plain
  /-- After a backslash. -/
  | escaped
  /-- After a `$`. -/
  | dollar
  /-- After a `$` and digits that give the number `n`. -/
  | group (n : Nat)

/-- The text of group `n`, if there is such a group. -/
def groupText (groups : List Text) (n : Nat) : Text := groups.getD n []

/-- What `c` adds where nothing is open, and what it leaves open. -/
def readPlain (c : Char) : Text × Mode :=
  if c == '\\' then ([], .escaped)
  else if c == '$' then ([], .dollar)
  else ([c], .plain)

/-- What `c` adds after `settled` has been settled by it. -/
def settle (settled : Text) (c : Char) : Text × Mode :=
  let (added, mode) := readPlain c
  (settled ++ added, mode)

/-- What the character `c` adds to the result, and what it leaves open. -/
def Mode.read (groups : List Text) (c : Char) : Mode → Text × Mode
  | plain => readPlain c
  | escaped => ([c], plain)
  | dollar =>
    match digitValue? c with
    | some d => ([], group d)
    | none => settle ['$'] c
  | group n =>
    match digitValue? c with
    | some d =>
      if n * 10 + d < groups.length then ([], group (n * 10 + d))
      else settle (groupText groups n) c
    | none => settle (groupText groups n) c

/-- What the end of the template adds to the result. -/
def Mode.finish (groups : List Text) : Mode → Text
  | plain => []
  | escaped => ['\\']
  | dollar => ['$']
  | group n => groupText groups n

/-- Expands the rest of a template. -/
def expandFrom (groups : List Text) : Mode → Text → Text
  | mode, [] => mode.finish groups
  | mode, c :: cs =>
    let (added, mode) := mode.read groups c
    added ++ expandFrom groups mode cs

/-- The template `t` with the texts of `groups`, the whole match first, put in. -/
def expand (groups : List Text) (t : Text) : Text :=
  expandFrom groups .plain t

end RegexText.Template
