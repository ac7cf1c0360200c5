/-
  ExprText.Log
  ────────────
  **THE LOG.**

  Records have a level.  A threshold says which of them are shown: those that are
  at least as urgent as the threshold, or none at all.

      error  <  warn  <  info  <  debug  <  trace        (from urgent to verbose)

  The threshold comes from a setting, which is a name in any case between blanks.
-/
import ExprText.Text.CharSet

namespace ExprText.Log

/-! ## §1. Levels and records. -/

/-- How urgent a record is. -/
inductive Level where
  | error
  | warn
  | info
  | debug
  | trace
  deriving DecidableEq, Repr

/-- The levels, the most urgent first. -/
def Level.all : List Level :=
  [error, warn, info, debug, trace]

/-- The verbosity of a level: the most urgent has the least. -/
def Level.verbosity : Level → Nat
  | error => 1
  | warn => 2
  | info => 3
  | debug => 4
  | trace => 5

/-- The name in log lines. -/
def Level.name : Level → String
  | error => "ERROR"
  | warn => "WARN"
  | info => "INFO"
  | debug => "DEBUG"
  | trace => "TRACE"

/-- One message of the log. -/
structure Record where
  /-- How urgent it is. -/
  level : Level
  /-- What it says. -/
  message : String
  deriving DecidableEq, Repr

/-! ## §2. Thresholds. -/

/-- The least urgent level that is shown, or `none` to show nothing. -/
abbrev Threshold := Option Level

namespace Threshold

/-- The name of a threshold. -/
def name : Threshold → String
  | none => "OFF"
  | some level => level.name

/-- All thresholds. -/
def all : List Threshold :=
  none :: Level.all.map some

/-- The threshold where the setting names none. -/
def default : Threshold :=
  some .warn

/-- The threshold with the given name, in upper or lower case and between blanks. -/
def ofName? (s : String) : Option Threshold :=
  all.find? fun threshold => threshold.name.toList == (Text.trim s.toList).map Char.toUpper

/-- The threshold that a setting asks for. -/
def ofSetting (setting : Option String) : Threshold :=
  (setting.bind ofName?).getD default

/-- Is a record of the level shown? -/
def shows : Threshold → Level → Bool
  | none, _ => false
  | some threshold, level => decide (level.verbosity ≤ threshold.verbosity)

end Threshold

/-! ## §3. Log lines. -/

/-- The line of a record. -/
def Record.line (record : Record) : String :=
  "[" ++ record.level.name ++ " exprparse] " ++ record.message ++ "\n"

/-- The lines of the records that the threshold shows, in order. -/
def lines (threshold : Threshold) (records : List Record) : String :=
  String.join ((records.filter fun record => threshold.shows record.level).map Record.line)

end ExprText.Log
