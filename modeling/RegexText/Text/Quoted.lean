import RegexText.Text.Basic
import RegexText.Unicode.Mark
import RegexText.Unicode.Printable

/-!
# Quoted texts

A quoted text stands between two quote marks. Inside, the quote mark and the backslash carry a
backslash, NUL, tab, carriage return and line feed are written `\0`, `\t`, `\r` and `\n`, and every
other character that would not show as itself is written as its code point, `\u` and the hexadecimal
digits in braces.
-/

namespace RegexText.Text

/-- The code point of `c` in lower-case hexadecimal, between braces after `\u`. -/
def codePointEscape (c : Char) : Text :=
  '\\' :: 'u' :: '{' :: Nat.toDigits 16 c.toNat ++ ['}']

/-- How `c` is written between two `quote` marks. -/
def escapeChar (quote c : Char) : Text :=
  if c == '\x00' then ['\\', '0']
  else if c == '\t' then ['\\', 't']
  else if c == '\r' then ['\\', 'r']
  else if c == '\n' then ['\\', 'n']
  else if c == quote || c == '\\' then ['\\', c]
  else if Unicode.isGraphemeExtend c || !Unicode.isPrintable c then codePointEscape c
  else [c]

/-- `t` between double quotes. -/
def quoted (t : Text) : Text :=
  '"' :: t.flatMap (escapeChar '"') ++ ['"']

/-- `c` between single quotes. -/
def quotedChar (c : Char) : Text :=
  '\'' :: escapeChar '\'' c ++ ['\'']

/-- The decimal digits of `n`. -/
def decimal (n : Nat) : Text := Nat.toDigits 10 n

/-- The texts `ts` with a comma and a space between each two. -/
def commaSeparated (ts : List Text) : Text :=
  [',', ' '].intercalate ts

end RegexText.Text
