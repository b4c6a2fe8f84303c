/-!
# Short names of types

A type is known by a path of segments separated by double colons, and may carry arguments in angle
brackets. `shortTypeName` drops the path and keeps the arguments as they are.
-/

namespace Membrane

/-- The characters up to the first double colon. -/
def untilColons : List Char → List Char
  | [] => []
  | ':' :: ':' :: _ => []
  | c :: rest => c :: untilColons rest

/-- The characters after the last double colon, or all of them where there is none. -/
def lastSegment (path : List Char) : List Char := (untilColons path.reverse).reverse

/-- The last segment of the path of a type, followed by the arguments from the first `<` on. -/
def shortTypeName (full : String) : String :=
  String.ofList (lastSegment (full.toList.takeWhile (· != '<')) ++ full.toList.dropWhile (· != '<'))

end Membrane
