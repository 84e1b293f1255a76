import ExactCalc.Text.Blank

/-! The journal of a run, and which records are kept.

A filter is a list of directives, each for the parts of the program whose name begins in a given
way. The most specific directive decides, of two on the same name the later one. A filter may test
the messages too: of the records that its directives admit, it then lets those be written whose
message passes.
-/

set_option autoImplicit false

namespace ExactCalc

inductive Level where
  | error
  | warn
  | info
  | debug
  | trace
  deriving DecidableEq

namespace Level

def rank : Level → Nat
  | .error => 1
  | .warn => 2
  | .info => 3
  | .debug => 4
  | .trace => 5

def name : Level → String
  | .error => "ERROR"
  | .warn => "WARN"
  | .info => "INFO"
  | .debug => "DEBUG"
  | .trace => "TRACE"

def all : List Level := [.error, .warn, .info, .debug, .trace]

end Level

/-- Records up to `level` are kept of the parts whose names begin with `target`; without a level
none of them are. -/
structure Directive where
  target : List Char
  level : Option Level

def Directive.concerns (directive : Directive) (target : List Char) : Bool :=
  directive.target.isPrefixOf target

def Directive.admits (directive : Directive) (level : Level) : Bool :=
  match directive.level with
  | some threshold => level.rank ≤ threshold.rank
  | none => false

def Directive.preferred (best : Option Directive) (directive : Directive) : Option Directive :=
  match best with
  | some other => if other.target.length ≤ directive.target.length then directive else other
  | none => directive

structure LogFilter where
  directives : List Directive
  accepts : String → Bool := fun _ => true

namespace LogFilter

def off : LogFilter := { directives := [] }

def upTo (level : Level) : LogFilter := { directives := [⟨[], some level⟩] }

def decisive (filter : LogFilter) (target : List Char) : Option Directive :=
  (filter.directives.filter (·.concerns target)).foldl Directive.preferred none

def admits (filter : LogFilter) (level : Level) (target : List Char) : Bool :=
  match filter.decisive target with
  | some directive => directive.admits level
  | none => false

/-- The level a word names in either case; the inner `none` is the word for no level at all. -/
def readLevel? (word : List Char) : Option (Option Level) :=
  let upper := String.ofList (word.map Char.toUpper)
  if upper = "OFF" then some none
  else (Level.all.find? (·.name = upper)).map some

/-- One directive: a level, a name, or a name with its level. A name alone admits everything. What
is refused is the part that cannot be read: the level, or all of it. -/
def readDirective (text : List Char) : Except (List Char) Directive :=
  match text.splitOn '=' with
  | [word] =>
    match readLevel? word with
    | some level => .ok ⟨[], level⟩
    | none => .ok ⟨word, some .trace⟩
  | [target, level] =>
    let level := trimBlanks level
    if level.isEmpty then .ok ⟨target, some .trace⟩
    else
      match readLevel? level with
      | some threshold => .ok ⟨target, threshold⟩
      | none => .error level
  | _ => .error text

/-- A filter, and a warning for each part of its text that was passed over. -/
structure Reading where
  filter : LogFilter
  warnings : List String

/-- Directives with commas between them. Where none can be read, errors are kept. -/
def readDirectives (text : List Char) : Reading :=
  let pieces := ((text.splitOn ',').map trimBlanks).filter (!·.isEmpty)
  let results := pieces.map readDirective
  let warnings := results.filterMap fun
    | .ok _ => none
    | .error part => some s!"invalid logging spec '{String.ofList part}'"
  match results.filterMap Except.toOption with
  | [] => ⟨upTo .error, warnings⟩
  | directives => ⟨{ directives }, warnings⟩

/-- Directives, and after a slash a pattern for the messages, which `compile` turns into a test. -/
def readWith (compile : List Char → Except String (String → Bool)) (text : List Char) : Reading :=
  match text.splitOn '/' with
  | [directives] => readDirectives directives
  | [directives, pattern] =>
    let ⟨filter, warnings⟩ := readDirectives directives
    match compile pattern with
    | .ok accepts => ⟨{ filter with accepts }, warnings⟩
    | .error reason => ⟨filter, warnings ++ [s!"invalid regex filter - {reason}"]⟩
  -- Which of several slashes begins the pattern is not guessed: no part of the text counts.
  | _ => ⟨upTo .error, [s!"invalid logging spec '{String.ofList text}' (too many '/'s)"]⟩

def patternSigns : List Char :=
  ['\\', '.', '+', '*', '?', '(', ')', '|', '[', ']', '\x7b', '\x7d', '^', '$']

def occursIn (pattern : List Char) : List Char → Bool
  | [] => pattern.isEmpty
  | c :: rest => pattern.isPrefixOf (c :: rest) || occursIn pattern rest

theorem occursIn_iff {pattern text : List Char} : occursIn pattern text ↔ pattern <:+: text := by
  induction text with
  | nil => rw [occursIn, List.isEmpty_iff, List.infix_nil]
  | cons c rest ih =>
    rw [occursIn, Bool.or_eq_true, List.isPrefixOf_iff_prefix, ih, List.infix_cons_iff]

/-- A pattern in which every character stands for itself: a message passes that contains it. -/
def compilePlain (pattern : List Char) : Except String (String → Bool) :=
  if pattern.any patternSigns.contains then .error "only plain text is searched for"
  else .ok fun message => occursIn pattern message.toList

def read (text : List Char) : LogFilter := (readWith compilePlain text).filter

end LogFilter

structure Record where
  level : Level
  target : String
  message : String

/-- The records that the filter's directives admitted so far. Of these, `written` are the ones whose
message passes as well. -/
structure Journal where
  filter : LogFilter
  records : Array Record := #[]

namespace Journal

def log (journal : Journal) (level : Level) (target : String) (message : Unit → String) :
    Journal :=
  if journal.filter.admits level target.toList then
    { journal with records := journal.records.push ⟨level, target, message ()⟩ }
  else journal

def written (journal : Journal) : Array Record :=
  journal.records.filter (journal.filter.accepts ·.message)

end Journal

end ExactCalc
