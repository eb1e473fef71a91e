import Switchboard.Text.Percent
import Switchboard.Text.Pieces

set_option autoImplicit false

/-! # Query strings

A query is a list of fields between ampersands, each a name and a value around the first equals
sign. Names and values are percent-encoded, with a plus sign for a space.
-/

namespace Switchboard.Query

/-- The text that a name or a value stands for. -/
def decode (cs : List Char) : String :=
  Text.Percent.decode (String.ofList (cs.map fun c => if c = '+' then ' ' else c))

/-- The name and the value of a field; a field without an equals sign has an empty value. -/
def field (cs : List Char) : String × String :=
  let name := cs.takeWhile (· ≠ '=')
  (decode name, decode (cs.drop (name.length + 1)))

/-- The fields of a query, in order. -/
def fields (query : String) : List (String × String) :=
  ((Text.splitOn '&' query.toList).filter (!·.isEmpty)).map field

/-- The value of the first field of that name. -/
def value? (query name : String) : Option String := List.lookup name (fields query)

end Switchboard.Query
