import Switchboard.Digest.Md5
import Switchboard.Handling.Stock
import Switchboard.Static.FileSystem
import Switchboard.Text.Hex
import Switchboard.Text.Html

set_option autoImplicit false

/-! # Static files

Handlers that answer with files. `serveFile` answers with one file, `describeFile` with the length
and the digest of one file, and `serveTree` with the entry of a file system that the wildcard
names. A directory is answered with its `index.html`, or else with a list of its entries. What is
missing is handed over to the not-found handler.
-/

namespace Switchboard.Static

open Text (Bytes utf8)

/-- The reply when the disk has no answer. -/
def failed (e : DiskError) : Reply := .error (.status .internalServerError e.message)

/-- The length of a body as a header. -/
def lengthOf (body : Bytes) : String × String := ("content-length", toString body.length)

/-- Answers with a body, or to `HEAD` with its headers alone. -/
def answer (ctx : Context) (headers : Headers) (body : Bytes) : Response where
  headers := headers ++ [lengthOf body]
  body := if ctx.request.method = .head then [] else body

/-- Answers with a file. -/
def serveFile (path : DiskPath) : Handler := fun ctx =>
  .inspect path fun
    | .ok (.file content) => .done (.ok (answer ctx [] content))
    | .ok .directory => Handler.handOver ctx
    | .error .notFound => Handler.handOver ctx
    | .error e => .done (failed e)

/-- Answers with the length and the digest of a file. -/
def describeFile (path : DiskPath) : Handler := fun ctx =>
  .inspect path fun
    | .ok (.file content) =>
      .done (.ok { headers := [("etag", Text.hexBytes (Md5.digest content)), lengthOf content] })
    | .ok .directory => Handler.handOver ctx
    | .error e => .done (failed e)

/-- The line for an entry in the list of a directory. -/
def listingLine (name : String) : String :=
  let name := Text.Html.escape name
  "<a href=\"" ++ name ++ "\">" ++ name ++ "</a>\n"

/-- The list of a directory. -/
def listing (names : List String) : String :=
  "<pre>\n" ++ String.join (names.map listingLine) ++ "</pre>\n"

/-- The file that stands for its directory. -/
def indexName : String := "index.html"

/-- Answers with a directory at `path`, which `fs` knows as `name`. -/
def serveDirectory (fs : FileSystem) (name : String) (path : DiskPath) : Handler := fun ctx =>
  let index := path.join [indexName]
  .inspect index fun
    | .ok (.file _) => serveFile index ctx
    -- no index file, or one that cannot be looked at
    | _ => do
      match ← fs.names name with
      | .ok names => return .ok (answer ctx [Response.page] (utf8 (listing names)))
      | .error e => return failed e

/-- Answers with the entry that the wildcard names. -/
def serveTree (fs : FileSystem) : Handler := fun ctx => do
  match ← fs.place ctx.wildcard with
  | .error _ => Handler.handOver ctx
  | .ok path =>
    .inspect path fun
      | .ok .directory => serveDirectory fs ctx.wildcard path ctx
      | .ok (.file _) => serveFile path ctx
      | .error e => .done (failed e)

end Switchboard.Static
