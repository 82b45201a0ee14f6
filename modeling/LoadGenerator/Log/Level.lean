import LoadGenerator.Text.Integer

/-!
# Levels of a log

Every event has a level, and a filter shows the events up to one.
-/

namespace LoadGenerator.Log

inductive Level where
  | error
  | warn
  | info
  | debug
  | trace
  deriving DecidableEq

namespace Level

def name : Level → String
  | error => "ERROR"
  | warn => "WARN"
  | info => "INFO"
  | debug => "DEBUG"
  | trace => "TRACE"

/-- How much a log shows that ends at this level. -/
def rank : Level → Nat
  | error => 1
  | warn => 2
  | info => 3
  | debug => 4
  | trace => 5

end Level

/-- Up to which level events are shown. -/
inductive Verbosity where
  | off
  | upTo (level : Level)
  deriving DecidableEq

namespace Verbosity

def admits : Verbosity → Level → Bool
  | off, _ => false
  | upTo last, level => decide (level.rank ≤ last.rank)

def all : List (String × Verbosity) := [
  ("off", off), ("error", upTo .error), ("warn", upTo .warn), ("info", upTo .info), ("debug", upTo .debug),
  ("trace", upTo .trace)]

/-- Reads a name in any letter case, or a number from zero to five. -/
def ofText? (text : String) : Option Verbosity :=
  match Text.unsigned64? text with
  | some n => (all[n.toNat]?).map (·.2)
  | none => all.lookup (String.ofList (text.toList.map Char.toLower))

end Verbosity

end LoadGenerator.Log
