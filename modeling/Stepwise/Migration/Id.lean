import Stepwise.SortedMap
import Stepwise.Text.Digit
import Stepwise.Text.Parts

/-!
# Identifiers of migrations

An identifier is a timestamp of 8 to 14 decimal digits, a hyphen or an underscore, and a name of
ASCII letters, digits, underscores, dots and hyphens that begins with a letter or a digit. The name
of a new migration is made from any text by `slug`: its words of ASCII letters and digits in lower
case, joined by underscores.
-/

namespace Stepwise

namespace MigrationId

/-- Whether a character may separate the timestamp from the name. -/
def isSeparator (c : Char) : Bool :=
  c = '-' || c = '_'

/-- Whether a character may stand in a name after its first. -/
def isNameChar (c : Char) : Bool :=
  c.isAlphanum || c = '_' || c = '.' || c = '-'

/-- Whether the text is an identifier. -/
def isValid (id : String) : Bool :=
  let stamp := id.toList.takeWhile Text.isDecimalDigit
  8 ≤ stamp.length && stamp.length ≤ 14 &&
    match id.toList.dropWhile Text.isDecimalDigit with
    | separator :: first :: rest =>
      isSeparator separator && first.isAlphanum && rest.all isNameChar
    | _ => false

/-- The words of ASCII letters and digits in lower case, joined by underscores. -/
def slug (name : String) : String :=
  let words := Text.words (!·.isAlphanum) name.toList
  "_".intercalate (words.map fun word => String.ofList (word.map Char.toLower))

end MigrationId

/-- A set of identifiers, listed in ascending order. -/
abbrev IdSet := SortedMap Unit

def IdSet.ofList (ids : List String) : IdSet :=
  SortedMap.ofList (ids.map (·, ()))

end Stepwise
