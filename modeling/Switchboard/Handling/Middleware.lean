import Switchboard.Handling.Action

set_option autoImplicit false

/-! # Middlewares

A middleware makes a handler out of a handler. In a list of middlewares the first is the outermost
one: the request passes it first and the reply passes it last.
-/

namespace Switchboard

/-- A transformation of handlers. -/
structure Middleware where
  /-- Puts the middleware around a handler. -/
  wrap : Handler → Handler
  /-- The lines noted each time the middleware is put around a handler. -/
  wrapNotes : List String := []

/-- Puts middlewares around a handler. -/
def Handler.compose (h : Handler) (middlewares : List Middleware) : Handler :=
  middlewares.foldr (fun m h => m.wrap h) h

/-- The lines noted when the middlewares are put around a handler, innermost first. -/
def Middleware.notesOf (middlewares : List Middleware) : List String :=
  middlewares.reverse.flatMap (·.wrapNotes)

section Lemmas

variable (h : Handler) (m : Middleware) (ms ns : List Middleware)

@[simp] theorem Handler.compose_nil : h.compose [] = h := rfl

@[simp] theorem Handler.compose_cons : h.compose (m :: ms) = m.wrap (h.compose ms) := rfl

theorem Handler.compose_append : h.compose (ms ++ ns) = (h.compose ns).compose ms := by
  simp [Handler.compose]

end Lemmas

end Switchboard
