import Formwork.Sample.Script

/-!
# The actions and exception handlers that the sample application brings along
-/

namespace Formwork.Sample

/-- Adds or divides the numbers of a calculator and forwards to its page. -/
def calculation (adds : Bool) : Value → ActionContext → HandlerAnswer :=
  runScript [arithmeticStep adds "numberOne" "numberTwo" "result"]
    (conclude (.toPath "/calculator.jsp"))

/-- The validator that refuses to divide by zero. -/
def divideByZero : CustomValidator Value where
  name := "divideByZero"
  scope := .ofEvents ["division"]
  check := conditional (.number "numberTwo" 0) (some "numberTwo")
    (.simple "Dividing by zero is not allowed.")

/-- The calculator. -/
def calculatorAction : Action where
  bean := calculator
  urlBinding := "/Calculator.action"
  handlers :=
    [{ event := "addition", isDefault := true, run := calculation true },
      { event := "division", run := calculation false }]
  validators := [divideByZero]

/-- The address of a bug. -/
def bugAddress : String := "/bugs/\x7bid\x7d"

/-- The page of a bug. -/
def bugAction : Action where
  bean := bug
  urlBinding := bugAddress
  handlers :=
    [{ event := "view", isDefault := true, skipsValidation := true
       run := runScript [] (fail (storeFailure 5)) },
      { event := "save"
        run := runScript []
          (conclude ((Outcome.redirect { path := bugAddress }).addParameter "saved" ["true"])) }]

/-- The actions. -/
def inventory : List Action := [calculatorAction, bugAction]

/-- The exception handlers: one for missing records, and two of which the last stays the
fallback. -/
def inventoryHandlers : List ContributedHandler :=
  [⟨"missingRecord", false, .typed "missingRecord" "RecordNotFound" (errorPage "/missing.jsp") 50⟩,
    ⟨"a", true, .catchAll (errorPage "/fallback-a.jsp")⟩,
    ⟨"b", true, .catchAll (errorPage "/fallback-b.jsp")⟩]

end Formwork.Sample
