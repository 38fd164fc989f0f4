import Formwork.Action
import Formwork.Bean.Fields

/-!
# The calculator

Two numbers, and events that add and divide them.
-/

namespace Formwork.Starter

open Fields

/-- Two numbers and the result. -/
def calculator : BeanType :=
  (BeanType.ofFields "CalculatorActionBean"
    [("numberOne", optional double), ("numberTwo", optional double),
      ("result", optional double)]).withRules
    [{ field := "numberOne", required := true }, { field := "numberTwo", required := true }] []

/-- Puts the result of two numbers into the bean and shows it. -/
def calculate (f : Option Float → Option Float → Float) (bean : Value) (cx : ActionContext) :
    HandlerAnswer :=
  let result := f (bean.numberIn? "numberOne") (bean.numberIn? "numberTwo")
  .ok (.toPath "/calculator.jsp", bean.putIn "result" (.present (.scalar (.double result))), cx)

/-- The sum, where a missing number is zero. -/
def sum (a b : Option Float) : Float := a.getD 0 + b.getD 0

/-- The quotient, where a missing dividend is zero and a missing divisor one. -/
def quotient (a b : Option Float) : Float := a.getD 0 / b.getD 1

/-- Refuses to divide by zero. -/
def divideByZero : CustomValidator Value where
  name := "divideByZero"
  scope := .ofEvents ["division"]
  check bean errors :=
    if (bean.numberIn? "numberTwo").any (· == 0) then
      errors.add "numberTwo" (.simple "Dividing by zero is not allowed.")
    else errors

/-- The calculator as an action. -/
def calculatorAction : Action where
  bean := calculator
  urlBinding := "/Calculator.action"
  handlers :=
    [{ event := "addition", isDefault := true, run := calculate sum },
      { event := "division", run := calculate quotient }]
  validators := [divideByZero]

end Formwork.Starter
