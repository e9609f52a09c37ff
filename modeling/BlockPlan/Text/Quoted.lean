import BlockPlan.Text.Printable

/-!
# Quoted texts

The quoted form of a text stands between two equal marks and holds printable characters only.  The
mark is a single one, unless the text holds single marks and no double ones.  Inside, a backslash
stands in front of the mark and of a backslash; line feed, carriage return and tab become a
backslash and a letter, and other characters that are not printable a backslash, a letter that says
how many digits follow, and their hexadecimal digits.
-/

namespace BlockPlan.Text

/-- The single quotation mark. -/
def singleMark : Char := '\x27'

/-- The double quotation mark. -/
def doubleMark : Char := '\x22'

/-- The mark around a text. -/
def quotationMark (cs : List Char) : Char :=
  if cs.contains singleMark && !cs.contains doubleMark then doubleMark else singleMark

/-- The character that stands for another one behind a backslash, inside a given mark. -/
def letter? (mark c : Char) : Option Char :=
  if c = mark ∨ c = '\\' then some c
  else if c = '\n' then some 'n'
  else if c = '\x0D' then some 'r'
  else if c = '\t' then some 't'
  else none

/-- The hexadecimal digits of a number, brought to a width with zeros. -/
def hexadecimal (width n : Nat) : List Char :=
  let digits := Nat.toDigits 16 n
  List.replicate (width - digits.length) '0' ++ digits

/-- The code point of a character in the shortest of three widths. -/
def numeric (c : Char) : List Char :=
  if c.toNat < 0x100 then 'x' :: hexadecimal 2 c.toNat
  else if c.toNat < 0x10000 then 'u' :: hexadecimal 4 c.toNat
  else 'U' :: hexadecimal 8 c.toNat

/-- A character inside a given mark. -/
def encodeChar (mark c : Char) : List Char :=
  match letter? mark c with
  | some l => ['\\', l]
  | none => if isPrintable c then [c] else '\\' :: numeric c

/-- The quoted form of a text. -/
def quoted (s : String) : String :=
  let mark := quotationMark s.toList
  String.ofList (mark :: s.toList.flatMap (encodeChar mark) ++ [mark])

end BlockPlan.Text
