/-
  ExprText.Main
  ─────────────
  **THE COMMAND LINE.**

  Hands the arguments and the setting of the log to the command, prints what it
  says, and ends with its exit code.
-/
import ExprText.Command

/-- The environment variable with the setting of the log. -/
def ExprText.Command.logVariable : String :=
  "EXPRPARSE_LOG"

/-- Entry point. -/
def main (args : List String) : IO UInt32 := do
  let outcome := ExprText.Command.run args (← IO.getEnv ExprText.Command.logVariable)
  IO.eprint outcome.errors
  IO.print outcome.output
  return UInt32.ofNat outcome.code
