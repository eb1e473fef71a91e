set_option autoImplicit false

/-! # Request methods

A method is a case-sensitive name. Nine of them are standard (`Method.standard`); any other name is
an extension method and is treated alike.
-/

namespace Switchboard

/-- The method of a request. -/
structure Method where
  name : String
deriving DecidableEq, Repr

namespace Method

/-- Whether the character may occur in a method: a letter, a digit or one of ten signs. -/
def isNameChar (c : Char) : Bool :=
  c.isAlphanum || c ∈ ['!', '*', '+', '-', '.', '^', '_', '\x60', '|', '~']

/-- The method of that name, if the text is one: not empty and of name characters only. -/
def ofName? (name : String) : Option Method :=
  if !name.isEmpty && name.toList.all isNameChar then some ⟨name⟩ else none

def connect : Method := ⟨"CONNECT"⟩
def head : Method := ⟨"HEAD"⟩
def options : Method := ⟨"OPTIONS"⟩
def trace : Method := ⟨"TRACE"⟩
def get : Method := ⟨"GET"⟩
def post : Method := ⟨"POST"⟩
def put : Method := ⟨"PUT"⟩
def delete : Method := ⟨"DELETE"⟩
def patch : Method := ⟨"PATCH"⟩

/-- The standard methods, in the order in which a route for all of them is registered. -/
def standard : List Method := [connect, head, options, trace, get, post, put, delete, patch]

/-- Methods in ascending order of their names. -/
def sortByName (methods : List Method) : List Method :=
  methods.mergeSort fun a b => decide (a.name ≤ b.name)

end Method

end Switchboard
