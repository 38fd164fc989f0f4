import Formwork.Config.Settings
import Formwork.Http.Message
import Formwork.Message.Bundle
import Formwork.Text.Blank

/-!
# Serving actions over HTTP

The pairs of the query and of a submitted form are the parameters of a request. A page is not
rendered here: a forward and a redisplay are answered with the data that the page shows.

* `HttpRequest.toRequest`: the request for an action.
* `Server.present`: the response to a result.
* `Server.answer`: the response to a request.
-/

namespace Formwork

namespace HttpRequest

/-- The media type of a submitted form. -/
def formType : String := "application/x-www-form-urlencoded"

/-- The greatest number of bytes of a form that is read. -/
def maxFormBytes : Nat := 2 * 1024 * 1024

/-- Whether the body is a form. -/
def isForm (r : HttpRequest) : Bool :=
  r.method != "GET" && r.method != "HEAD" &&
    (r.headerText? "content-type").any (fun v => formType.toList.isPrefixOf v.toList) &&
    decide (r.body.utf8ByteSize ≤ maxFormBytes)

/-- The submitted pairs: those of the query, then those of a form. -/
def pairs (r : HttpRequest) : List (String × String) :=
  let read (text : String) := Text.formPairs (Text.utf8 text.toList)
  read r.target.query ++ if r.isForm then read r.body else []

/-- The locale of the language that is named first. -/
def locale? (r : HttpRequest) : Option Locale :=
  (r.headerText? "accept-language").bind fun v =>
    let tag := Text.trimChars (v.toList.takeWhile fun c => c != ',' && c != ';')
    if tag.isEmpty || tag == ['*'] then none else some (.ofTag (String.ofList tag))

/-- The request for an action. -/
def toRequest (r : HttpRequest) : Request :=
  { Request.ofPairs r.target.path (r.pairs.map fun p => (p.1, [p.2])) with locale := r.locale? }

end HttpRequest

/-- Serves requests that arrive over HTTP. -/
structure Server where
  dispatcher : Dispatcher
  settings : ServerSettings := {}
  messages : MessageBundles := .empty

/-- Parameters as an object. -/
def NameMap.toJson (m : NameMap (List String)) : Json :=
  .object (m.entries.map fun e => (e.1, .texts e.2))

namespace HttpResponse

/-- The response to a request that failed. -/
def failure (status : HttpStatus) (now path message : String) : HttpResponse :=
  let fields : List (String × Json) :=
    [("timestamp", .text now), ("status", .integer status.code), ("error", .text status.reason),
      ("message", .text message), ("path", .text path)]
  ofJson (.object fields) status

/-- Goes on to another address, which must be the value of a header. -/
def redirect (now path url : String) : HttpResponse :=
  if isHeaderValue url then { status := .found, location := some url }
  else failure .serverError now path ("Invalid redirect target: " ++ url)

/-- How content is to be saved under a name, from which quotation marks are left out. -/
def attachment (filename : String) : String :=
  "attachment; filename=\"" ++ String.ofList (filename.toList.filter (· ≠ '"')) ++ "\""

/-- Sends content; a header whose value cannot be sent is left out. -/
def stream (s : StreamContent) : HttpResponse :=
  { contentType := (some s.contentType).filter isHeaderValue
    disposition := (s.filename.map attachment).filter isHeaderValue
    body := .text s.body }

/-- The response to a request that nobody served. -/
def ofError (now path : String) (e : DispatchError) : HttpResponse :=
  failure (if e.isNotFound then .notFound else .serverError) now path e.root.message

end HttpResponse

namespace Server

/-- The response to a result. -/
def present (s : Server) (now path : String) (locale : Locale) (r : DispatchResult) :
    HttpResponse :=
  let event := Json.ofText? r.event
  match r.outcome with
  | .redirect target => .redirect now path target.url
  | .stream content => .stream content
  | .forward target => .ofJson <| .object
    [("view", .text target.url), ("event", event),
      ("bean", (r.bean.map Value.snapshot).getD .null)]
  | .redisplay page => .ofJson <| .object
    [("view", .ofText? page.sourcePage), ("event", event),
      ("errors", (page.errors.render s.messages locale (s.dispatcher.router.pattern? path)).toJson),
      ("values", page.values.toJson)]

/-- The response to a request at a time. -/
def answer (s : Server) (now : String) (r : HttpRequest) : HttpResponse :=
  let request := r.toRequest
  let locale := request.locale.getD s.dispatcher.settings.defaultLocale
  match (s.dispatcher.dispatch request).result with
  | .ok result => s.present now request.path locale result
  | .error e => .ofError now request.path e

end Server

end Formwork
