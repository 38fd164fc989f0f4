import Formwork.Json

/-!
# HTTP messages

What arrives at a server and what it sends back. A header name is the same in upper and lower case,
and of headers of one name the first counts.

* `RequestTarget.ofText`: the path and the query of a target.
* `HttpRequest.headerText?`: the value of a header, if it is plain text.
* `isHeaderValue`: which texts can be sent as the value of a header.
-/

namespace Formwork

/-- The parts of a request target that an action depends on. -/
structure RequestTarget where
  path : String
  query : String := ""
  deriving DecidableEq

namespace RequestTarget

/-- Cuts a target before its first question mark; an empty path stands for the root. -/
def ofPath (l : List Char) : RequestTarget :=
  let path := l.takeWhile (· ≠ '?')
  { path := if path.isEmpty then "/" else String.ofList path
    query := String.ofList ((l.dropWhile (· ≠ '?')).drop 1) }

/-- What follows the scheme of an address, if it has one. -/
def afterScheme? : List Char → Option (List Char)
  | ':' :: '/' :: '/' :: rest => some rest
  | _ :: rest => afterScheme? rest
  | [] => none

/-- Reads a target without its fragment: a path with a query, an asterisk, a whole address whose
scheme and host are left out, or a host alone, which has no path. -/
def ofText (text : String) : RequestTarget :=
  match text.toList.takeWhile (· ≠ '#') with
  | '/' :: rest => ofPath ('/' :: rest)
  | ['*'] => ofPath ['*']
  | l =>
    match afterScheme? l with
    | some rest => ofPath (rest.dropWhile fun c => c ≠ '/' && c ≠ '?')
    | none => { path := "" }

end RequestTarget

/-- A request as it arrives. -/
structure HttpRequest where
  method : String := "GET"
  target : RequestTarget
  headers : List (String × String) := []
  body : String := ""

/-- A text in lower case, as far as its letters are ASCII. -/
def lowerName (name : String) : List Char := name.toList.map Char.toLower

/-- A tab, or a character of ASCII that is no control character. -/
def isPlainHeaderChar (c : Char) : Bool := c == '\t' || (32 ≤ c.toNat && c.toNat < 127)

/-- The value of a header, unless it has other characters than plain ones. -/
def HttpRequest.headerText? (r : HttpRequest) (name : String) : Option String :=
  ((r.headers.find? fun h => lowerName h.1 == lowerName name).map (·.2)).filter
    fun v => v.toList.all isPlainHeaderChar

/-- Whether a text can be the value of a header that is sent: it has no control characters but
tabs. -/
def isHeaderValue (text : String) : Bool :=
  text.toList.all fun c => c == '\t' || (32 ≤ c.toNat && c.toNat ≠ 127)

/-- How a request ended. -/
inductive HttpStatus where
  | ok
  | found
  | notFound
  | serverError
  deriving DecidableEq

namespace HttpStatus

/-- The number of a status. -/
def code : HttpStatus → Nat
  | ok => 200
  | found => 302
  | notFound => 404
  | serverError => 500

/-- The phrase of a status. -/
def reason : HttpStatus → String
  | ok => "OK"
  | found => "Found"
  | notFound => "Not Found"
  | serverError => "Internal Server Error"

end HttpStatus

/-- The body of a response. -/
inductive HttpBody where
  | json (value : Json)
  | text (content : String)

/-- A response. -/
structure HttpResponse where
  status : HttpStatus := .ok
  /-- The address to go on to. -/
  location : Option String := none
  contentType : Option String := none
  /-- How the content is to be saved. -/
  disposition : Option String := none
  body : HttpBody := .text ""

namespace HttpResponse

/-- The media type of JSON. -/
def jsonType : String := "application/json"

/-- A response with JSON. -/
def ofJson (value : Json) (status : HttpStatus := .ok) : HttpResponse :=
  { status, contentType := some jsonType, body := .json value }

end HttpResponse

end Formwork
