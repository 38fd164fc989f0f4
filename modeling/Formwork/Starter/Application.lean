import Formwork.Http.Server
import Formwork.Starter.Bugs
import Formwork.Starter.Calculator
import Formwork.Starter.Signup

/-!
# The starter application

A calculator, bugs and a form to sign up, served over HTTP as the configuration says.
-/

namespace Formwork.Starter

/-- The beans of the application. -/
def beans : BeanCatalogue := [calculator, attachment, bug, signup]

/-- The actions of the application. -/
def actions : List Action := [calculatorAction, bugAction, signupAction]

/-- The page for all errors that nobody else handles. -/
def errorPageHandler : ContributedHandler where
  name := "errorPage"
  asFallback := true
  handler := .catchAll fun _ _ => some (.toPath "/error.jsp")

/-- Where the configuration file may be; the first place that has one counts. -/
def configurationPaths : List String := ["demos/quickstart/application.toml", "application.toml"]

/-- The start of the names of the variables that belong to the configuration. -/
def variableStart : String := "QUICKSTART_"

/-- The configuration from a file, if there is one, and from variables. -/
def configuration (files getVar : String → Option String) : Except ConfigError Environment :=
  let fromVariables := PropertySource.ofVariables variableStart getVar
  match configurationPaths.find? fun p => (files p).isSome with
  | none => .ok (Environment.add {} fromVariables)
  | some path => do
    return (Environment.add {} (← PropertySource.readToml files path)).add fromVariables

/-- The server of the application. -/
def server (e : Environment) : Except RouterError Server := do
  let dispatcher : Dispatcher :=
    { router := ← Router.build actions
      exceptions := .contributeAll {} [missingBugHandler, errorPageHandler]
      settings := e.dispatcherSettings, freshBean := beans.fresh? }
  return { dispatcher, settings := e.serverSettings }

end Formwork.Starter
