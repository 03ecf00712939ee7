import SqlTokens.Log.Record
import SqlTokens.Pattern.Reader
import SqlTokens.Settings.Environment
import SqlTokens.Text.Pieces

/-!
# Filters for log records

A filter is written as a list of directives with commas between them. A directive is a threshold for
all records, a target, or a target and a threshold; it is for the records whose target begins with
the target that it names, and of several such directives the one with the longest target decides. A
directive that cannot be read is left out. If no directive is left, errors pass and nothing else.

Behind a slash can stand a pattern that must occur in messages. One that cannot be read is left out,
and all messages will do.
-/

namespace SqlTokens.Log

/-- The threshold for the records from some part of the program. -/
structure Directive where
  target? : Option (List Char)
  threshold : Threshold
  deriving DecidableEq, Repr

namespace Directive

/-- A directive that is written as a word, or as two words with an equals sign between them. -/
def ofText? (text : List Char) : Option Directive :=
  match Text.pieces '=' text with
  | [word] =>
    match Threshold.ofName? (String.ofList word) with
    | some threshold => some ⟨none, threshold⟩
    | none => some ⟨some word, .max⟩
  | [target, word] =>
    if (Text.trim word).isEmpty then some ⟨some target, .max⟩
    else (Threshold.ofName? (String.ofList (Text.trim word))).map (⟨some target, ·⟩)
  | _ => none

/-- Whether a directive is for the records from a target. -/
def covers (directive : Directive) (target : List Char) : Bool :=
  (directive.target?.getD []).isPrefixOf target

/-- Add a directive. It takes the place of an earlier one for the same target. -/
def insert (directive : Directive) : List Directive → List Directive
  | [] => [directive]
  | other :: others =>
    if other.target? = directive.target? then directive :: others
    else other :: directive.insert others

/-- The directive that decides about the records from a target: the longest, and of two that are
equally long the later one. -/
def deciding? (target : List Char) (directives : List Directive) : Option Directive :=
  directives.foldl (fun best? directive =>
    if directive.covers target &&
        best?.all (fun best => (best.target?.getD []).length ≤ (directive.target?.getD []).length)
    then some directive else best?) none

end Directive

/-- A filter: directives, and a pattern that must occur in messages. -/
structure Filter where
  directives : List Directive
  pattern? : Option Pattern
  deriving DecidableEq, Repr

namespace Filter

/-- The environment variable that holds a filter. -/
def variableName : String := "RUST_LOG"

/-- The directives in a list. -/
def readDirectives (text : List Char) : List Directive :=
  let texts := ((Text.pieces ',' text).map Text.trim).filter (!·.isEmpty)
  (texts.filterMap Directive.ofText?).foldl
    (fun directives directive => directive.insert directives)
    []

/-- The filter that a text says. -/
def ofText (text : List Char) : Filter :=
  let (directives, pattern?) :=
    match Text.pieces '/' text with
    | [list] => (readDirectives list, none)
    | [list, pattern] => (readDirectives list, Pattern.ofText? pattern)
    | _ => ([], none)
  ⟨if directives.isEmpty then [⟨none, .upTo .error⟩] else directives, pattern?⟩

/-- The filter that is in effect: the one in the environment, or the level of the settings. -/
def effective (environment : Environment) (settings : Settings) : Filter :=
  ofText ((environment.value? variableName).getD settings.level).toList

/-- Whether a record passes. -/
def passes (filter : Filter) (record : Record) : Bool :=
  match Directive.deciding? record.target.toList filter.directives with
  | none => false
  | some directive =>
    directive.threshold.allows record.level && filter.pattern?.all (·.occursIn record.message)

end Filter

end SqlTokens.Log
