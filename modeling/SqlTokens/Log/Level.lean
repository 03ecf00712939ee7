/-!
# Levels of log records

A record has one of five levels, from errors to the finest detail. A threshold is a level or "off";
it lets a record pass if the record's level is not finer.
-/

namespace SqlTokens.Log

/-- The level of a record, the gravest first. -/
inductive Level where
  | error
  | warn
  | info
  | debug
  | trace
  deriving DecidableEq, Repr

namespace Level

/-- Every level, once. -/
def all : List Level :=
  [error, warn, info, debug, trace]

/-- The name of a level, as it is printed. -/
def name : Level → String
  | error => "ERROR"
  | warn => "WARN"
  | info => "INFO"
  | debug => "DEBUG"
  | trace => "TRACE"

/-- The place of a level among all levels; a finer level has a higher rank. -/
def rank : Level → Nat
  | error => 1
  | warn => 2
  | info => 3
  | debug => 4
  | trace => 5

end Level

/-- The finest level that passes, if any does. -/
inductive Threshold where
  | off
  | upTo (level : Level)
  deriving DecidableEq, Repr

namespace Threshold

/-- The threshold that lets everything pass. -/
def max : Threshold :=
  upTo .trace

/-- Every threshold, once. -/
def all : List Threshold :=
  off :: Level.all.map upTo

/-- The name of a threshold. -/
def name : Threshold → String
  | off => "OFF"
  | upTo level => level.name

/-- The threshold with a given name. The case of ASCII letters does not matter. -/
def ofName? (name : String) : Option Threshold :=
  all.find? (·.name.toList = name.toList.map Char.toUpper)

/-- Whether a record of a given level passes. -/
def allows : Threshold → Level → Bool
  | off, _ => false
  | upTo finest, level => level.rank ≤ finest.rank

end Threshold

end SqlTokens.Log
