/-!
# Home directories

A path that starts with `~/` or `~\` is meant to be below the home directory.
-/

namespace SigV4.Home

/-- What follows the sign for the home directory, if a path starts with it. -/
def below? : List Char → Option (List Char)
  | '~' :: '/' :: rest => some rest
  | '~' :: '\\' :: rest => some rest
  | _ => none

/-- A path seen from a directory: an absolute one stands for itself, and any other follows the
directory and one separator. -/
def join (directory path : List Char) : List Char :=
  if path.head? = some '/' then path
  else if directory.isEmpty || directory.getLast? = some '/' then directory ++ path
  else directory ++ '/' :: path

/-- Nothing when the path needs a home directory and there is none. -/
def expand (home : Option String) (path : String) : Option String :=
  match below? path.toList with
  | none => some path
  | some rest => home.map fun h => String.ofList (join h.toList rest)

end SigV4.Home
