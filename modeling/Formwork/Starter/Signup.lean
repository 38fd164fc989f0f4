import Formwork.Action
import Formwork.Bean.Fields

/-!
# Signing up

A form of two pages: who somebody is, and whether the terms are accepted.
-/

namespace Formwork.Starter

open Fields

/-- Somebody who signs up. -/
def signup : BeanType :=
  (BeanType.ofFields "SignupWizardActionBean"
    [("username", optional text), ("email", optional text), ("password", optional text),
      ("acceptedTerms", initial (.scalar .bool))]).withRules
    [{ field := "username", required := true },
      { field := "email", required := true, pattern := some "^[^@\\s]+@[^@\\s]+$" },
      { field := "password", required := true, minLength := some 6 }] []

/-- Asks for the terms, once all else is right. -/
def termsAccepted : CustomValidator Value where
  name := "termsAccepted"
  scope := .ofEvents ["finish"]
  trigger := .noErrors
  check bean errors :=
    if bean.holdsIn "acceptedTerms" then errors
    else errors.add "acceptedTerms" (.simple "Please accept the terms")

/-- Goes on to the second page. -/
def secondPage (bean : Value) (cx : ActionContext) : HandlerAnswer :=
  .ok (.toPath "/signup/step2.jsp", bean, cx)

/-- Welcomes somebody who signed up. -/
def welcome (bean : Value) (cx : ActionContext) : HandlerAnswer :=
  let user := ((bean.scalarIn? "username").map Scalar.display).toList
  .ok ((Outcome.redirect { path := "/welcome.jsp" }).addParameter "user" user, bean, cx)

/-- Signing up as an action. -/
def signupAction : Action where
  bean := signup
  urlBinding := "/Signup.action"
  wizard := true
  handlers := [{ event := "gotoStep2", run := secondPage }, { event := "finish", run := welcome }]
  validators := [termsAccepted]

end Formwork.Starter
