/-
Paths of values in a descriptor, as error messages write them: keys joined by points, and the
position of an item in brackets.

* `Path.child`: the path of the value under a key of a body;
* `Path.field`: the path of the value under a key of a payload;
* `Path.item`: the path of an item of a list.
-/

namespace Stylesheet.Path

/-- The path of the value under a key of a body; at the top there is no path to go on from. -/
def child (path key : String) : String :=
  if path.isEmpty then key else path ++ "." ++ key

/-- The path of the value under a key of a payload. -/
def field (path key : String) : String :=
  path ++ "." ++ key

/-- The path of an item. Absent items count. -/
def item (path : String) (i : Nat) : String :=
  path ++ "[" ++ toString i ++ "]"

end Stylesheet.Path
