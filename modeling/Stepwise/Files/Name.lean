import Stepwise.Text.Parts
import Stepwise.Text.Utf8

/-!
# Names of files

Names and paths of files are octets, which need not be text. The parts of a path stand between
slashes; a name ends with an extension when a dot that is not its first octet stands in it.
-/

namespace Stepwise

/-- The octets of the name of a file or of a path. -/
abbrev FileName := List UInt8

namespace FileName

def ofString (s : String) : FileName :=
  Text.Utf8.encode s

def slash : UInt8 := 0x2F

def dot : UInt8 := 0x2E

/-- The text that shows a path. -/
def shown (path : FileName) : String :=
  Text.Utf8.decodeLossy path

/-- The path of a file in a directory. -/
def join (directory file : FileName) : FileName :=
  if file.head? = some slash then file
  else if directory.isEmpty ∨ directory.getLast? = some slash then directory ++ file
  else directory ++ slash :: file

/-- The parts of a path that move to another place; a single dot does not. -/
def components (path : FileName) : List FileName :=
  (Text.words (· = slash) path).filter (· ≠ [dot])

/-- Whether a path can only be one of a directory: it ends with a slash or a dot of its own. -/
def namesDirectory (path : FileName) : Bool :=
  path.getLast? = some slash || path.reverse.take 2 = [dot, slash] || path = [dot]

/-- The name of the file of a path, unless the path ends with the parent of a directory. -/
def base? (path : FileName) : Option FileName :=
  (components path).getLast?.bind fun name => if name = [dot, dot] then none else some name

/-- A name split at its last dot: the stem, and the extension if there is one. -/
def split (name : FileName) : FileName × Option FileName :=
  let extension := (name.reverse.takeWhile (· ≠ dot)).reverse
  let stem := name.take (name.length - extension.length - 1)
  if extension.length = name.length ∨ stem.isEmpty then (name, none) else (stem, some extension)

def stem? (path : FileName) : Option FileName :=
  path.base?.map fun name => name.split.1

def extension? (path : FileName) : Option FileName :=
  path.base?.bind fun name => name.split.2

end FileName

end Stepwise
