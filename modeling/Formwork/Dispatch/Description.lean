import Formwork.Config.Environment
import Formwork.Dispatch.Exceptions
import Formwork.Text.Quoted

/-!
# Descriptions

What an application is made of, as text for those who look after it: records with their fields in
braces, and quoted names.
-/

namespace Formwork

namespace Text

/-- A record with its fields. -/
def described (type : String) (fields : List (String × String)) : String :=
  let shown := fields.map fun f => f.1 ++ ": " ++ f.2
  type ++ " \x7b " ++ String.intercalate ", " shown ++ " \x7d"

/-- A list of texts in brackets. -/
def bracketed (items : List String) : String := "[" ++ String.intercalate ", " items ++ "]"

/-- A truth value. -/
def boolWord (b : Bool) : String := if b then "true" else "false"

end Text

open Text

/-- The scope as text. -/
def EventScope.describe : EventScope → String
  | all => "All"
  | only events => "Only(" ++ quotedList events ++ ")"
  | except events => "Except(" ++ quotedList events ++ ")"

/-- The name of a trigger. -/
def ValidatorTrigger.name : ValidatorTrigger → String
  | always => "Always"
  | noErrors => "NoErrors"

/-- The validator as text. -/
def CustomValidator.describe {β : Type} (v : CustomValidator β) : String :=
  described "CustomValidator"
    [("name", quoted v.name), ("scope", v.scope.describe), ("when", v.trigger.name)]

/-- A handler of a bean type as text. -/
def EventHandler.describe (h : EventHandler) (type : String) : String :=
  described "HandlerMethod"
    [("handler", quoted type), ("event", quoted h.event), ("is_default", boolWord h.isDefault),
      ("ignore_validation_errors", boolWord h.ignoresErrors),
      ("skip_validation", boolWord h.skipsValidation)]

/-- The action as text. -/
def Action.describe (a : Action) : String :=
  described "ActionBeanDefinition"
    [("type_name", quoted a.name), ("url_binding", quoted a.urlBinding),
      ("wizard", boolWord a.wizard),
      ("handlers", bracketed (a.handlers.map (·.describe a.name))),
      ("validators", bracketed (a.validators.map CustomValidator.describe))]

/-- The exception handlers as text, in the order in which they are asked. -/
def ExceptionRegistry.describe (r : ExceptionRegistry) : String :=
  described "ExceptionHandlerRegistry"
    [("handlers", quotedList (r.handlers.map (·.name))),
      ("fallback", match r.fallback with
        | some h => "Some(" ++ quoted h.name ++ ")"
        | none => "None")]

/-- The number of converters as text. -/
def ConverterRegistry.describe (r : ConverterRegistry) : String :=
  described "TypeConverterRegistry" [("converters", toString r.size)]

/-- The bean type as text. -/
def BeanDescriptor.describe (d : BeanDescriptor) : String :=
  described "BeanDescriptor"
    [("type_name", quoted d.typeName), ("properties", quotedList d.names)]

/-- The number of configuration sources as text. -/
def Environment.describe (e : Environment) : String :=
  described "Environment" [("sources_count", toString e.size)]

end Formwork
