import Formwork.Config.Environment
import Formwork.Dispatch.Dispatcher

/-!
# Settings from the configuration

The settings of the dispatcher and of the server. A key without a value, or with one of another
type or out of bounds, leaves a setting as it is by default.
-/

namespace Formwork

/-- Where a server listens, and whether it records requests. -/
structure ServerSettings where
  host : String := "0.0.0.0"
  port : Nat := 8080
  recordsRequests : Bool := true

/-- The address that a server listens on. -/
def ServerSettings.address (s : ServerSettings) : String := s.host ++ ":" ++ toString s.port

namespace Environment

/-- The value of a key as a number of an integer type. -/
def bounded? (e : Environment) (key : String) (k : Numeric.IntegerType) : Option Nat :=
  ((e.integer? key).filter k.holds).map Int.toNat

/-- The settings of the server. -/
def serverSettings (e : Environment) : ServerSettings :=
  let d : ServerSettings := {}
  { host := e.textOr "server.host" d.host
    port := (e.bounded? "server.port" .nat16).getD d.port
    recordsRequests := e.boolOr "server.enable-request-logging" d.recordsRequests }

/-- The settings of the dispatcher. -/
def dispatcherSettings (e : Environment) : DispatcherSettings :=
  let d : DispatcherSettings := {}
  { eventParameter := e.textOr "tessera.web.event-parameter" d.eventParameter
    sourcePageParameter := e.textOr "tessera.web.source-page-parameter" d.sourcePageParameter
    fieldsPresentParameter :=
      e.textOr "tessera.web.fields-present-parameter" d.fieldsPresentParameter
    defaultLocale := .ofTag (e.textOr "tessera.web.default-locale" d.defaultLocale.tag)
    maxIndex := (e.bounded? "tessera.web.max-index" .size).getD d.maxIndex }

end Environment

end Formwork
