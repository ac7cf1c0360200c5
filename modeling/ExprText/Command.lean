/-
  ExprText.Command
  ────────────────
  **THE COMMAND.**

  The command reads its first argument as an expression, or a sample if it has
  none, and shows it again: as source text, as an outline, and with the names of
  its variables.  What a run prints is a function of the arguments and of the
  setting of the log.
-/
import ExprText.Log
import ExprText.Reading

namespace ExprText.Command

/-- What a run leaves behind. -/
structure Outcome where
  /-- The exit code. -/
  code : Nat
  /-- The text on standard output. -/
  output : String
  /-- The text on standard error. -/
  errors : String
  deriving DecidableEq, Repr

/-- The expression that is shown when no argument is given. -/
def sample : String :=
  "(price + tax) * quantity >= budget - 2 ** 3 ** 2 % 7"

/-- What reading a text writes to the log: the text, what was left of it, and the result if the
text was an expression. -/
def records (source : String) : List Log.Record :=
  [⟨.debug, "parsing expression " ++ Text.quoted source⟩,
   ⟨.trace, "unconsumed input: " ++
      Text.quoted (String.ofList (Grammar.padded.run source.toList).rest)⟩] ++
  match read source with
  | .ok e => [⟨.debug, "parsed " ++ e.text⟩]
  | .error _ => []

/-- What is shown of an expression. -/
def report (e : Expr) : String :=
  e.text ++ "\n" ++ (outline e).pretty ++ "\n" ++
    if e.variableNames.isEmpty then ""
    else "variables: " ++ ", ".intercalate e.variableNames ++ "\n"

/-- What is shown of a text that is not an expression. -/
def complaint (source : String) (cause : ReadError) : String :=
  "Error: failed to parse `" ++ source ++ "`\n\nCaused by:\n    " ++ cause.message ++ "\n"

/-- A run of the command. -/
def run (args : List String) (logSetting : Option String) : Outcome :=
  let source := args.headD sample
  let log := Log.lines (Log.Threshold.ofSetting logSetting) (records source)
  match read source with
  | .ok e => { code := 0, output := report e, errors := log }
  | .error cause => { code := 1, output := "", errors := log ++ complaint source cause }

end ExprText.Command
