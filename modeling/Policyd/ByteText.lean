import Mathlib

namespace Policyd

/-!
# Byte strings

A C++ `std::string` is a finite sequence of bytes, represented by a list of
characters, one for each byte, so that lengths and positions are those of
bytes.  Searching and trimming follow the standard library; splitting is
`List.splitOn`.
-/

/-- A byte string. -/
abbrev Str := List Char

namespace Str

/-- Position of the first occurrence of one byte. -/
def findChar (char : Char) (text : Str) : Option Nat :=
  text.findIdx? (· == char)

/-- Position of the first byte that belongs to a given set. -/
def findFirstOf (chars : Str) (text : Str) : Option Nat :=
  text.findIdx? (chars.contains ·)

/-- Position of the first occurrence of a whole text. -/
def findText (needle : Str) : Str → Option Nat
  | [] => if needle = [] then some 0 else none
  | char :: rest =>
    if needle.isPrefixOf (char :: rest) then
      some 0
    else
      (findText needle rest).map (· + 1)

/-- Drop the leading bytes that belong to a set. -/
def trimLeft (blanks : Str) (text : Str) : Str :=
  text.dropWhile (blanks.contains ·)

/-- Drop the trailing bytes that belong to a set. -/
def trimRight (blanks : Str) (text : Str) : Str :=
  text.rdropWhile (blanks.contains ·)

/-- ASCII upper case, as `std::toupper` in the default locale. -/
def toUpper (text : Str) : Str :=
  text.map Char.toUpper

/-- ASCII lower case, as `std::tolower` in the default locale. -/
def toLower (text : Str) : Str :=
  text.map Char.toLower

/-- Equality up to ASCII case. -/
def iequals (first second : Str) : Bool :=
  toLower first == toLower second

/-- The bytes a C function sees through `c_str()`: up to the first NUL. -/
def cString (text : Str) : Str :=
  text.takeWhile (· != '\x00')

/-- The first occurrence after a text without the byte is right behind it. -/
theorem findChar_append_cons
    {char : Char} {first : Str} (absent : char ∉ first) (rest : Str) :
    findChar char (first ++ char :: rest) = some first.length := by
  induction first with
  | nil => simp [findChar, List.findIdx?_cons]
  | cons head later inductionHypothesis =>
    simp only [List.mem_cons, not_or] at absent
    have laterFound := inductionHypothesis absent.2
    have headDifferent : (head == char) = false := by
      simpa using Ne.symm absent.1
    simp only [findChar] at laterFound
    simp [findChar, List.findIdx?_cons, headDifferent, laterFound]

end Str

end Policyd
