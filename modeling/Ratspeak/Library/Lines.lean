import Mathlib.Data.List.Basic
import Mathlib.Data.List.Infix
import Ratspeak.Library.Text

/-!
# Lines and fields

The lines of a text, its first part before a separator, a fixed prefix or
suffix taken off, and the decimal form of a number read back.  All of them
follow the program's standard library.
-/

namespace Ratspeak.Library

/-! ## Lines -/

/-- A line that is being read, last character first, without the carriage
return before its line feed. -/
def dropCarriage : List Char → List Char
  | [] => []
  | char :: rest => if char = '\r' then rest else char :: rest

/-- The lines of a list of characters, given the line being read, last
character first. -/
def linesFrom (line : List Char) : List Char → List String
  | [] => if line.isEmpty then [] else [String.ofList line.reverse]
  | char :: rest =>
      if char = '\n' then
        String.ofList (dropCarriage line).reverse :: linesFrom [] rest
      else linesFrom (char :: line) rest

/-- The lines of a text.  A line feed at its end starts no further line. -/
def lines (text : String) : List String :=
  linesFrom [] text.toList

/-! ## Fields -/

/-- What stands before and after the first occurrence of a separator. -/
def splitOnceChars (separator : List Char) :
    List Char → Option (List Char × List Char)
  | [] => if separator.isEmpty then some ([], []) else none
  | char :: rest =>
      if separator.isPrefixOf (char :: rest) then
        some ([], (char :: rest).drop separator.length)
      else
        (splitOnceChars separator rest).map fun parts =>
          (char :: parts.1, parts.2)

def splitOnce (separator text : String) : Option (String × String) :=
  (splitOnceChars separator.toList text.toList).map fun parts =>
    (String.ofList parts.1, String.ofList parts.2)

/-- The text after a fixed beginning, if it has that beginning. -/
def stripPrefix (lead text : String) : Option String :=
  if lead.toList.isPrefixOf text.toList then
    some (String.ofList (text.toList.drop lead.toList.length))
  else none

/-- The text before a fixed ending, if it has that ending. -/
def stripSuffix (ending text : String) : Option String :=
  if ending.toList.isSuffixOf text.toList then
    some (String.ofList (text.toList.take (text.toList.length - ending.toList.length)))
  else none

/-! ## Numbers -/

/-- A decimal number below a limit, which may have a plus sign. -/
def parseUnsigned (limit : Nat) (text : String) : Option Nat :=
  let digits := (stripPrefix "+" text).getD text
  if digits.isEmpty || !digits.toList.all Char.isDigit then none
  else
    let value := Nat.ofDigitChars 10 digits.toList 0
    if value < limit then some value else none

end Ratspeak.Library
