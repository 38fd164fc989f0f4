import Formwork.Bean
import Formwork.Outcome
import Formwork.Validation.Custom

/-!
# Actions

An action is a bean type with an address, events and validators. An event handler gets the bean and
the context of the request, and gives an outcome or fails with a chain of causes.
-/

namespace Formwork

/-- One error of a chain of causes. -/
structure Cause where
  /-- The name of the error's type; a plain message has none. -/
  kind : String := ""
  text : String
  /-- The number of the record that the error is about. -/
  record : Option Nat := none
  deriving DecidableEq, Inhabited

/-- Why a handler failed: the error that it gave, and the errors that caused it. -/
structure Failure where
  outermost : Cause
  inner : List Cause := []
  deriving DecidableEq, Inhabited

namespace Failure

/-- A failure with a plain message. -/
def message (text : String) : Failure := { outermost := { text } }

/-- The chain from the outermost error to the first cause. -/
def causes (f : Failure) : List Cause := f.outermost :: f.inner

/-- A failure with a message around another one. -/
def wrapped (text : String) (f : Failure) : Failure := { outermost := { text }, inner := f.causes }

end Failure

/-- What a handler sees of a request. -/
structure ActionContext where
  path : String
  /-- The pattern of the action's address. -/
  urlBinding : String
  event : String
  parameters : NameMap (List String)
  locale : Locale
  sourcePage : Option String
  errors : FieldErrors

namespace ActionContext

/-- The first value of a parameter. -/
def first? (cx : ActionContext) (name : String) : Option String :=
  (cx.parameters.get? name).bind List.head?

/-- Shows the page that the request came from, with the errors and all submitted values. -/
def redisplay (cx : ActionContext) : Outcome :=
  .redisplay ⟨cx.sourcePage, cx.errors, cx.parameters⟩

end ActionContext

/-- The answer of a handler: the outcome, and the bean and the context afterwards. -/
abbrev HandlerAnswer := Except Failure (Outcome × Value × ActionContext)

/-- A handler of an event. -/
structure EventHandler where
  event : String
  isDefault : Bool := false
  /-- The handler also runs if there are errors. -/
  ignoresErrors : Bool := false
  /-- Nothing is validated before the handler runs. -/
  skipsValidation : Bool := false
  run : Value → ActionContext → HandlerAnswer
  deriving Inhabited

/-- An action. -/
structure Action where
  bean : BeanType
  urlBinding : String
  /-- The bean is filled in by several pages. -/
  wizard : Bool := false
  handlers : List EventHandler := []
  validators : List (CustomValidator Value) := []

namespace Action

/-- The identity of the bean type. -/
def id (a : Action) : BeanId := a.bean.id

/-- The name of the bean type. -/
def name (a : Action) : String := a.bean.name

/-- A new bean of the action. -/
def freshBean (a : Action) : Value := a.bean.fresh?.getD (.bean a.bean.descriptor [])

/-- The handler of an event. -/
def handler? (a : Action) (event : String) : Option EventHandler :=
  a.handlers.find? (·.event == event)

/-- The handler that is marked as the default, or else the only one. -/
def defaultHandler? (a : Action) : Option EventHandler :=
  (a.handlers.find? (·.isDefault)).or (match a.handlers with
    | [only] => some only
    | _ => none)

/-- Runs a handler of the action on a bean, which must be of the action's type. -/
def invoke (a : Action) (h : EventHandler) (bean : Value) (cx : ActionContext) : HandlerAnswer :=
  if bean.schema = .bean a.id then h.run bean cx
  else .error (.message ("event '" ++ h.event ++ "' expects a " ++ a.id.fullName ++ " bean"))

end Action

end Formwork
