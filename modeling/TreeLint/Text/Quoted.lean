import TreeLint.Text.Basic
import TreeLint.Text.Printable

/-!
# Quoted texts

How a text is shown inside a message. It stands between single quotes, or between double quotes
if it holds a single quote and no double quote. A backslash and the quote in use are written with
a backslash, line feed, carriage return and tab by their letters, and any other character without
a printed form by its code point in two, four or eight hexadecimal digits.
-/

namespace TreeLint

/-- A number in hexadecimal, lower case, filled with zeros up to a width. -/
def hexDigits (width n : Nat) : List Char :=
  let ds := Nat.toDigits 16 n
  List.replicate (width - ds.length) '0' ++ ds

namespace Text

/-- The quote a text is shown in. -/
def quoteFor (t : Text) : Char :=
  if t.elem '\x27' && !t.elem '"' then '"' else '\x27'

/-- A character inside quotes. -/
def showChar (quote c : Char) : List Char :=
  if c = '\\' ∨ c = quote then ['\\', c]
  else if c = '\n' then ['\\', 'n']
  else if c = '\r' then ['\\', 'r']
  else if c = '\t' then ['\\', 't']
  else if isPrintable c then [c]
  else if c.toNat < 0x100 then '\\' :: 'x' :: hexDigits 2 c.toNat
  else if c.toNat < 0x10000 then '\\' :: 'u' :: hexDigits 4 c.toNat
  else '\\' :: 'U' :: hexDigits 8 c.toNat

/-- A text between quotes. -/
def quoted (t : Text) : Text :=
  let q := quoteFor t
  q :: (t.flatMap (showChar q) ++ [q])

end Text

/-- A string between quotes. -/
def quoted (s : String) : String := String.ofList (Text.quoted s.toList)

end TreeLint
