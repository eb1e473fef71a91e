import Switchboard.Http.Headers
import Switchboard.Http.Status
import Switchboard.Http.Uri
import Switchboard.Text.Utf8

set_option autoImplicit false

/-! # Requests and responses -/

namespace Switchboard

open Text (Bytes utf8)

/-- A request. -/
structure Request where
  method : Method := .get
  uri : Uri
  headers : Headers := []
  body : Bytes := []
deriving DecidableEq, Repr

/-- A response. -/
structure Response where
  status : Status := .ok
  headers : Headers := []
  body : Bytes := []
deriving DecidableEq, Repr

namespace Response

/-- The content type of plain text. -/
def plainText : String × String := ("content-type", "text/plain; charset=utf-8")

/-- The content type of a page. -/
def page : String × String := ("content-type", "text/html; charset=utf-8")

/-- Keeps a browser from guessing another content type. -/
def noSniff : String × String := ("x-content-type-options", "nosniff")

/-- A plain-text response. -/
def text (status : Status) (body : String) : Response :=
  { status, headers := [plainText], body := utf8 body }

/-- A response without fields and body. -/
def empty (status : Status) : Response := { status }

end Response

end Switchboard
