import ExactCalc.CommandLine.Batch
import ExactCalc.Text.Terminal

/-! The program as a whole: a text that was asked for, a batch of expressions, or the window. -/

set_option autoImplicit false

namespace ExactCalc.CommandLine

def programTarget : String := "calculatrice_decimale"

def versionText : String := "calculatrice_decimale 0.1.0"

def helpLines : List String := [
  "Calculatrice décimale exacte : + - * / et parenthèses",
  "",
  "Usage: calculatrice_decimale [OPTIONS] [EXPRESSIONS]...",
  "",
  "Arguments:",
  "  [EXPRESSIONS]...  Expressions à évaluer (aucune : lance l’interface graphique)",
  "",
  "Options:",
  "      --profondeur-max <PROFONDEUR_MAX>",
  "          Profondeur maximale d’imbrication des parenthèses [default: 256]",
  "      --longueur-max <LONGUEUR_MAX>",
  "          Longueur maximale d’une expression (octets) [default: 100000]",
  "  -d, --demarche",
  "          Affiche la démarche (jetons, substitutions, réductions)",
  "  -h, --help",
  "          Print help",
  "  -V, --version",
  "          Print version"]

def helpText : String := "\n".intercalate helpLines

inductive Outcome where
  | finished (exitCode : Nat) (outputs : List Output)
  | refused (refusal : Refusal)
  | window (limits : Limits) (records : List Record)

def run (filter : LogFilter) (arguments : List Argument) : Outcome :=
  match Settings.ofArguments arguments with
  | .error .help => .finished 0 [.standard helpText]
  | .error .version => .finished 0 [.standard versionText]
  | .error refusal => .refused refusal
  | .ok settings =>
    if settings.expressions.isEmpty then
      let limits := settings.limits
      let journal := ({ filter } : Journal).log .info programTarget fun _ =>
        s!"interface graphique (profondeur max {limits.maxDepth}, " ++
          s!"longueur max {limits.maxLength})"
      .window limits journal.written.toList
    else
      let batch := Batch.run settings filter
      .finished batch.exitCode batch.outputs.toList

/-- The columns that the lines of a record after the first are set in by. -/
def recordIndent : Nat := 4

def hang (text : List Char) : List Char :=
  text.flatMap fun c => if c = '\n' then c :: List.replicate recordIndent ' ' else [c]

/-- A record as a line: its level in five columns, its origin, its message. -/
def recordLine (record : Record) : String :=
  let level := record.level.name
  let padding := String.ofList (List.replicate (5 - level.length) ' ')
  s!"[{level}{padding} {record.target}] {String.ofList (hang record.message.toList)}"

def recordText (record : Record) : String :=
  String.ofList (plain (recordLine record ++ "\n").toList)

def standardText (outputs : List Output) : String :=
  String.join (outputs.filterMap fun
    | .standard line => some (line ++ "\n")
    | _ => none)

def errorText (outputs : List Output) : String :=
  String.join (outputs.filterMap fun
    | .standard _ => none
    | .error line => some (line ++ "\n")
    | .logged record => some (recordText record))

end ExactCalc.CommandLine
