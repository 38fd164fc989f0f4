import Formwork.Dispatch.Error

/-!
# Exception handlers

An error is shown to the exception handlers, cause by cause from the first cause outward, and for
each cause handler by handler. The first outcome counts. The fallback is asked last, about the error
itself.
-/

namespace Formwork

/-- Where an error arose. -/
structure ExceptionContext where
  path : String
  event : Option String := none
  handlerType : Option String := none

/-- A handler of errors. -/
structure ExceptionHandler where
  name : String
  /-- Handlers with smaller numbers are asked first. -/
  priority : Int := 100
  canHandle : Cause → Bool
  /-- The outcome, unless the handler declines. -/
  handle : Cause → ExceptionContext → Option Outcome

namespace ExceptionHandler

/-- The handler of errors of one type; it declines all others. -/
def typed (name kind : String) (handle : Cause → ExceptionContext → Option Outcome)
    (priority : Int) : ExceptionHandler :=
  { name, priority, canHandle := fun c => c.kind == kind
    handle := fun c cx => if c.kind == kind then handle c cx else none }

/-- The name of a handler of all errors. -/
def catchAllName : String := "CatchAllExceptionHandler"

/-- The handler of all errors, which is asked last. -/
def catchAll (handle : Cause → ExceptionContext → Option Outcome) : ExceptionHandler :=
  { name := catchAllName, priority := 0x7fffffff, canHandle := fun _ => true, handle }

/-- The outcome for a cause that the handler can handle. -/
def offer (h : ExceptionHandler) (cx : ExceptionContext) (c : Cause) : Option Outcome :=
  if h.canHandle c then h.handle c cx else none

end ExceptionHandler

/-- Exception handlers by priority, and a fallback. -/
structure ExceptionRegistry where
  handlers : List ExceptionHandler := []
  fallback : Option ExceptionHandler := none

namespace ExceptionRegistry

/-- Puts a handler behind those that are asked before it or have its priority. -/
def place (h : ExceptionHandler) : List ExceptionHandler → List ExceptionHandler
  | [] => [h]
  | g :: rest => if h.priority < g.priority then h :: g :: rest else g :: place h rest

/-- Registers a handler. -/
def register (r : ExceptionRegistry) (h : ExceptionHandler) : ExceptionRegistry :=
  { r with handlers := place h r.handlers }

/-- Sets the fallback, in place of an earlier one. -/
def setFallback (r : ExceptionRegistry) (h : ExceptionHandler) : ExceptionRegistry :=
  { r with fallback := some h }

/-- The number of handlers without the fallback. -/
def size (r : ExceptionRegistry) : Nat := r.handlers.length

/-- Whether there is neither a handler nor a fallback. -/
def isEmpty (r : ExceptionRegistry) : Bool := r.handlers.isEmpty && r.fallback.isNone

/-- The outcome for an error, unless all handlers decline. -/
def handle (r : ExceptionRegistry) (e : DispatchError) (cx : ExceptionContext) :
    Option Outcome :=
  let found := e.causes.reverse.findSome? fun c => r.handlers.findSome? fun h => h.offer cx c
  found.or (r.fallback.bind fun h => h.handle { kind := DispatchError.kind, text := e.message } cx)

end ExceptionRegistry

/-- A handler that an application contributes under a name. -/
structure ContributedHandler where
  name : String
  /-- The handler is to be the fallback. -/
  asFallback : Bool := false
  handler : ExceptionHandler

namespace ExceptionRegistry

/-- Registers one contributed handler. -/
def contribute (r : ExceptionRegistry) (c : ContributedHandler) : ExceptionRegistry :=
  if c.asFallback then r.setFallback c.handler else r.register c.handler

/-- Registers contributed handlers in the order of their names. -/
def contributeAll (r : ExceptionRegistry) (l : List ContributedHandler) : ExceptionRegistry :=
  (l.mergeSort fun a b => decide (a.name ≤ b.name)).foldl contribute r

end ExceptionRegistry

end Formwork
