/-!
Paths as they are spelled. Components are what stands between slashes; empty ones say nothing, and
neither does a single dot, except as the first component. Two spellings are alike when they have the
same components. Replacing an extension keeps the spelling up to the end of the file name's stem.
-/

namespace Brainfuck.Path

/-- What stands between slashes, empty pieces included. -/
def pieces (path : String) : List (List Char) :=
  path.toList.splitOn '/'

/-- Whether a path starts from the root. -/
def isAbsolute (path : String) : Bool :=
  path.toList.head? == some '/'

/-- The components of a path. A leading slash counts as a component of its own, and a leading dot
is kept, so `./a` and `a` differ. -/
def components (path : String) : List (List Char) :=
  match pieces path with
  | [] => []
  | first :: rest =>
      let rest := rest.filter fun piece => piece != [] && piece != ['.']
      if isAbsolute path then ['/'] :: rest
      else if first = [] then rest
      else first :: rest

/-- Whether two spellings have the same components. -/
def alike (a b : String) : Bool :=
  components a == components b

/-! ### File names -/

/-- A reversed path without the slashes and single dots that say nothing at its end. -/
def dropIdleEnd : List Char → List Char
  | '/' :: rest => dropIdleEnd rest
  | '.' :: '/' :: rest => dropIdleEnd ('/' :: rest)
  | path => path

/-- A path cut around its file name. -/
structure Split where
  before : List Char
  name : List Char
  idleEnd : List Char
deriving DecidableEq, Repr

/-- Cuts a path around its last component, unless that names no file: the root and the dots do
not. -/
def split? (path : String) : Option Split :=
  let reversed := path.toList.reverse
  let kept := dropIdleEnd reversed
  let name := (kept.takeWhile (· != '/')).reverse
  if name = [] || name = ['.'] || name = ['.', '.'] then none
  else some {
    before := (kept.dropWhile (· != '/')).reverse
    name
    idleEnd := (reversed.take (reversed.length - kept.length)).reverse }

/-- The stem and the extension of a file name. The extension follows the last dot; a dot that only
starts the name makes none. -/
def stemAndExtension (name : List Char) : List Char × Option (List Char) :=
  let reversed := name.reverse
  match reversed.dropWhile (· != '.') with
  | [] | ['.'] => (name, none)
  | _ :: stem => (stem.reverse, some (reversed.takeWhile (· != '.')).reverse)

/-- A path with another extension, or with none if the new one is empty. What follows the stem is
dropped. A name such as `..a`, cut after its last dot, is that of the parent directory; it is cut
there and gets no new extension. -/
def withExtension (path extension : String) : String :=
  match split? path with
  | none => path
  | some ⟨before, name, idleEnd⟩ =>
      let (stem, old) := stemAndExtension name
      let ending :=
        if stem = ['.'] && old.isSome && idleEnd = [] then ['.']
        else if extension.isEmpty then []
        else '.' :: extension.toList
      String.ofList (before ++ stem ++ ending)

end Brainfuck.Path
