import Formwork.Bean.Fields
import Formwork.Dispatch.Exceptions

/-!
# Bugs

Reports of what does not work: they are shown, saved and exported. There is no bug with a number
above a thousand.
-/

namespace Formwork.Starter

open Fields

/-- How urgent a bug is. -/
def priority : Enumeration := ⟨"Priority", ["Blocker", "Critical", "Major", "Minor"]⟩

/-- A file that belongs to a bug. -/
def attachment : BeanType :=
  (BeanType.ofFields "Attachment"
    [("name", optional text), ("size", optional (integer .nat64))]).withRules
    [{ field := "name", required := true }] []

/-- A bug. -/
def bug : BeanType :=
  (BeanType.ofFields "BugActionBean"
    [("id", optional (integer .nat32)), ("description", optional text),
      ("priority", optional (.scalar (.enumeration priority))),
      ("attachments", initial (.sequence (bean attachment)))]).withRules
    [{ field := "description", required := true, minLength := some 10, maxLength := some 2000 }]
    [("attachments", attachment)]

/-! ## Missing bugs -/

/-- The greatest number of a bug. -/
def lastBug : Nat := 1000

/-- The type of the error that a bug is missing. -/
def bugNotFound : String := "BugNotFound"

/-- There is no bug with a number. -/
def missingBug (number : Nat) : Failure :=
  { outermost :=
      { kind := bugNotFound, text := "bug " ++ toString number ++ " does not exist"
        record := some number } }

/-- The page for a bug that is missing. -/
def missingBugPage (c : Cause) (_ : ExceptionContext) : Option Outcome :=
  c.record.map fun number =>
    (Outcome.toPath "/bugs/missing.jsp").addParameter "id" [toString number]

/-- Shows the page for a missing bug. -/
def missingBugHandler : ContributedHandler where
  name := "bugNotFound"
  handler := .typed "bugNotFound" bugNotFound missingBugPage 100

/-! ## Events -/

/-- Shows a bug. -/
def viewBug (bean : Value) (cx : ActionContext) : HandlerAnswer :=
  let number := ((bean.integerIn? "id").getD 0).toNat
  if lastBug < number then .error (missingBug number)
  else .ok (.toPath "/bugs/view.jsp", bean, cx)

/-- Saves a bug and goes back to its address. -/
def saveBug (bean : Value) (cx : ActionContext) : HandlerAnswer :=
  .ok ((Outcome.redirect { path := cx.urlBinding }).addParameter "saved" ["true"], bean, cx)

/-- A bug as a table with one row. -/
def bugTable (bean : Value) : String :=
  let shown (property : String) := ((bean.scalarIn? property).map Scalar.display).getD ""
  "id,priority,description\n" ++ toString ((bean.integerIn? "id").getD 0) ++ "," ++
    shown "priority" ++ "," ++ shown "description" ++ "\n"

/-- Sends a bug as a table. -/
def exportBug (bean : Value) (cx : ActionContext) : HandlerAnswer :=
  .ok ((Outcome.stream { contentType := "text/csv", body := bugTable bean }).setFilename "bug.csv",
    bean, cx)

/-- Bugs as an action. -/
def bugAction : Action where
  bean := bug
  urlBinding := "/bugs/\x7bid\x7d"
  handlers :=
    [{ event := "view", isDefault := true, run := viewBug }, { event := "save", run := saveBug },
      { event := "export", skipsValidation := true, run := exportBug }]

end Formwork.Starter
