import LoadGenerator.Log.Level
import LoadGenerator.Text.Blank

/-!
# Filters of a log

A filter is a list of directives with commas between them: `verbosity`, `target`, `target=verbosity`, and with a span or a field in brackets after the target. A directive fits the events of all targets or of those that start with its own, and of the directives that fit an event the most specific one decides about it. What is about all targets alike is fixed: it is shown up to the level of information, whatever the list says.
-/

namespace LoadGenerator.Log

inductive DirectiveFault where
  | shape
  | verbosity
  deriving DecidableEq

def DirectiveFault.message : DirectiveFault → String
  | shape => "invalid filter directive"
  | verbosity =>
    "error parsing level filter: expected one of \"off\", \"error\", \"warn\", \"info\", \"debug\", \"trace\", or a number 0-5"

structure FieldPattern where
  name : String
  /-- Whether a value is asked for, too. -/
  valued : Bool
  deriving DecidableEq

structure Directive where
  target : Option String := none
  span : Option String := none
  field : Option FieldPattern := none
  verbosity : Verbosity := .upTo .trace
  deriving DecidableEq

namespace Directive

/-- The directive with the verbosity at its end. Nothing after the equals sign shows everything. -/
def withVerbosity (directive : Directive) (text : String) : Except DirectiveFault Directive :=
  if text.isEmpty then .ok directive
  else
    match Verbosity.ofText? text with
    | some verbosity => .ok { directive with verbosity }
    | none => .error .verbosity

/-- A text alone is a verbosity if it can be one, and else a target of which everything is shown. -/
def ofWord (text : String) : Directive :=
  match Verbosity.ofText? text with
  | some verbosity => { verbosity }
  | none => { target := some text }

def startsTarget (c : Char) : Bool := c.isAlphanum || c == '-' || c == ':' || c == '_' || decide ('\x7f' < c)

/-- What follows the bracket at the end of a span. The pieces are found in the trimmed text and taken from the text itself. -/
def readEnd (directive : Directive) (text trimmed : List Char) : Except DirectiveFault Directive :=
  match trimmed with
  | [] => .ok directive
  | '=' :: _ => directive.withVerbosity (String.ofList (text.drop 1))
  | _ => .error .shape

/-- A field from the brace before it on. -/
def readField (directive : Directive) (text trimmed : List Char) : Except DirectiveFault Directive :=
  let size := (trimmed.takeWhile (· != '\x7d')).length
  let field := text.take size
  match trimmed.drop size with
  | _ :: ']' :: rest =>
    if field.isEmpty then .error .shape
    else
      let pattern : FieldPattern := ⟨String.ofList (field.takeWhile (· != '=')), field.contains '='⟩
      readEnd { directive with field := some pattern } (text.drop (size + 2)) rest
  | _ => .error .shape

/-- A span from the bracket before it on. An empty span before a field is none. -/
def readSpan (directive : Directive) (text trimmed : List Char) : Except DirectiveFault Directive :=
  let size := (trimmed.takeWhile fun c => c != ']' && c != '\x7b').length
  let span := String.ofList (text.take size)
  match trimmed.drop size with
  | ']' :: rest => readEnd { directive with span := some span } (text.drop (size + 1)) rest
  | _ :: rest =>
    readField { directive with span := if span.isEmpty then none else some span } (text.drop (size + 1)) rest
  | [] => .error .shape

def read (directive : String) : Except DirectiveFault Directive :=
  let text := directive.toList
  let trimmed := (Text.trim directive).toList
  let size := (trimmed.takeWhile fun c => c != '=' && c != '[').length
  let target := String.ofList (text.take size)
  match trimmed, trimmed.drop size with
  | '[' :: rest, _ => readSpan {} (text.drop 1) rest
  | c :: _, after =>
    if !startsTarget c then .error .shape
    else
      match after with
      | [] => .ok (ofWord directive)
      | '[' :: rest => readSpan { target := some target } (text.drop (size + 1)) rest
      | _ => withVerbosity { target := some target } (String.ofList (text.drop (size + 1)))
  | [], _ => .error .shape

/-- Whether a directive is about an event of this target with fields of these names. Spans and the values of fields are never met by an event alone. -/
def fits (directive : Directive) (target : String) (fields : List String) : Bool :=
  directive.span.isNone
    && directive.target.all (fun start => target.startsWith start)
    && directive.field.all fun pattern => !pattern.valued && fields.contains pattern.name

/-- The length of the target of a directive, with none below every target. -/
def reach (directive : Directive) : Nat := directive.target.elim 0 fun start => start.utf8ByteSize + 1

/-- Whether a directive that comes later goes before another one: the target counts first, then the field. -/
def outranks (later directive : Directive) : Bool :=
  if later.reach = directive.reach then
    match later.field, directive.field with
    | none, some _ => false
    | some pattern, some other => !decide (pattern.name < other.name)
    | _, none => true
  else decide (directive.reach < later.reach)

end Directive

structure Filter where
  directives : List Directive

namespace Filter

/-- The parts between the commas that are not empty. -/
def pieces (text : String) : List String := (text.splitOn ",").filter fun piece => !piece.isEmpty

/-- The filter of a text, from which faulty directives are left out. -/
def ofText (text : String) : Filter where
  directives := (pieces text).filterMap (fun piece => (Directive.read piece).toOption) ++ [{ verbosity := .upTo .info }]

/-- One line for every faulty directive of a text. -/
def complaints (text : String) : List String :=
  (pieces text).filterMap fun piece =>
    match Directive.read piece with
    | .ok _ => none
    | .error fault => some s!"ignoring `{piece}`: {fault.message}"

def deciding? (filter : Filter) (target : String) (fields : List String) : Option Directive :=
  (filter.directives.filter fun directive => directive.fits target fields).foldl
    (fun best directive => if best.all fun known => directive.outranks known then some directive else best) none

def shows (filter : Filter) (target : String) (level : Level) (fields : List String) : Bool :=
  (filter.deciding? target fields).any fun directive => directive.verbosity.admits level

end Filter

end LoadGenerator.Log
