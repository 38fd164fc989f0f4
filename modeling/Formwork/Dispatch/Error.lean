import Formwork.Routing.Router

/-!
# Dispatch errors

A request that cannot be served fails with a `DispatchError`. Its chain of causes starts with the
error itself and goes on to what a handler failed with, or to what is behind a routing error.
-/

namespace Formwork

/-- The chain from an error of a rule to what the engine for patterns said. -/
def RuleError.causes (e : RuleError) : List Cause :=
  { kind := "RuleError", text := e.message } ::
    match e with
    | .invalidPattern _ _ fault => [{ kind := "PatternError", text := fault }]
    | .invalidLengths _ _ _ => []

/-- The causes behind a routing error: the error of the rule that could not be used. -/
def RouterError.innerCauses : RouterError → List Cause
  | invalidValidation _ cause => cause.causes
  | _ => []

/-- Why a request could not be served. -/
inductive DispatchError where
  | noBinding (path : String)
  | routing (e : RouterError)
  | handlerFailed (type event : String) (failure : Failure)
  /-- No exception handler took the error. -/
  | unhandled (path : String) (source : DispatchError)

namespace DispatchError

/-- The text of the error. -/
def message : DispatchError → String
  | noBinding path => "No action bean is bound to '" ++ path ++ "'"
  | routing e => e.message
  | handlerFailed type event failure =>
    "Event '" ++ event ++ "' of " ++ type ++ " failed: " ++ failure.outermost.text
  | unhandled path source =>
    "Unhandled error while dispatching '" ++ path ++ "': " ++ source.message

/-- The error that no handler took. -/
def root : DispatchError → DispatchError
  | unhandled _ source => source.root
  | e => e

/-- Whether no action or no event was found. -/
def isNotFound (e : DispatchError) : Bool :=
  match e.root with
  | noBinding _ | routing (.handlerNotFound _ _) | routing (.defaultHandlerNotFound _) => true
  | _ => false

/-- The type name of dispatch errors. -/
def kind : String := "DispatchError"

/-- The causes behind the error. A routing error is no cause itself, only what is behind it is; an
error that was not handled counts as a cause without a type of its own. -/
def innerCauses : DispatchError → List Cause
  | noBinding _ => []
  | routing e => e.innerCauses
  | handlerFailed _ _ failure => failure.causes
  | unhandled _ source => { text := source.message } :: source.innerCauses

/-- The chain from the error itself to its first cause. -/
def causes (e : DispatchError) : List Cause := { kind, text := e.message } :: e.innerCauses

end DispatchError

end Formwork
