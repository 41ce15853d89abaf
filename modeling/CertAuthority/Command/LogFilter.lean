import CertAuthority.Event
import CertAuthority.Host
import CertAuthority.Text.Decimal

/-!
# Log filters

Which events of the log operators get to see. A filter is a list of
directives with commas between them. A directive names a level, the
beginning of the part of the program that an event comes from, or both:
`info`, `scm_pki::codec`, `scm_pki=debug`. A part without a level stands
for all levels.

An event is shown if its level is within the one of the most specific
directive for it, which is the one with the longest name. Directives for
spans, in square brackets, are accepted; there are no spans, so the only
effect of most of them is that the filter counts as given. A filter that
says nothing shows errors only.
-/

namespace CertAuthority

/-- **A directive of a log filter.** -/
structure LogDirective where
  /-- How the part of the program begins that it is for, if not for all. -/
  origin : Option String
  /-- Whether it is for spans. -/
  spans : Bool
  /-- The fields that an event has to have. -/
  fields : List String
  /-- How many levels it shows. -/
  verbosity : Nat
  deriving DecidableEq, Repr

/-- Why a directive cannot be used. -/
inductive LogDirectiveFault where
  /-- It is not written like one. -/
  | malformed
  /-- Its level is none. -/
  | level
  deriving DecidableEq, Repr

/-- The wording of a fault. -/
def LogDirectiveFault.message : LogDirectiveFault → String
  | malformed => "invalid filter directive"
  | level => "error parsing level filter: expected one of \"off\", \"error\", \"warn\", " ++
    "\"info\", \"debug\", \"trace\", or a number 0-5"

namespace LogDirective

/-- The verbosity of a directive that names no level. -/
def fullVerbosity : Nat := Level.trace.verbosity

/-- How many levels the name of a level stands for, in letters of either
case. A number stands for itself. -/
def verbosity? (name : List Char) : Option Nat :=
  let names : List (String × Nat) :=
    ("off", 0) :: Level.all.map fun l => (l.name, l.verbosity)
  let lower := name.map Key.Algorithm.lowerAscii
  match names.find? fun (n, _) => n.toList.map Key.Algorithm.lowerAscii == lower with
  | some (_, n) => some n
  | none => (Text.plusDecimal? name).filter (· ≤ fullVerbosity)

/-- The level at the end of a directive. -/
def readLevel (name : List Char) : Except LogDirectiveFault Nat :=
  if name = [] then .ok fullVerbosity
  else
    match verbosity? name with
    | some n => .ok n
    | none => .error .level

/-- Whether a directive may begin with a character. -/
def mayBegin (c : Char) : Bool :=
  c.isAlphanum || 0x80 ≤ c.toNat || c == '-' || c == ':' || c == '_'

/-- The pieces of a text between commas. -/
def commaPieces : List Char → List (List Char)
  | [] => [[]]
  | ',' :: rest => [] :: commaPieces rest
  | c :: rest =>
    match commaPieces rest with
    | [] => [[c]]
    | piece :: others => (c :: piece) :: others

/-- Reads what follows the closing bracket of a span. -/
def ofSpanEnd (origin : Option String) (spans : Bool) (fields : List String) :
    List Char → Except LogDirectiveFault LogDirective
  | [] => .ok ⟨origin, spans, fields, fullVerbosity⟩
  | '=' :: level => (readLevel level).map fun n => ⟨origin, spans, fields, n⟩
  | _ => .error .malformed

/-- Reads what follows the opening bracket of a span: its name, and the
fields it has to have. A field with a value, as a directive with a name, is
for spans only. -/
def ofSpan (origin : Option String) (s : List Char) : Except LogDirectiveFault LogDirective :=
  let name := s.takeWhile fun c => c ≠ ']' ∧ c ≠ '\x7b'
  match s.dropWhile fun c => c ≠ ']' ∧ c ≠ '\x7b' with
  | ']' :: rest => ofSpanEnd origin true [] rest
  | _ :: rest =>
    let inside := rest.takeWhile (· ≠ '\x7d')
    let fields := commaPieces inside
    match rest.dropWhile (· ≠ '\x7d') with
    | _ :: ']' :: rest =>
      if [] ∈ fields then .error .malformed
      else
        ofSpanEnd origin (name ≠ [] ∨ fields.any (·.contains '='))
          (fields.map String.ofList) rest
    | _ => .error .malformed
  | [] => .error .malformed

/-- **Reads a directive.** -/
def parse (s : List Char) : Except LogDirectiveFault LogDirective :=
  match s with
  | [] => .error .malformed
  | '[' :: rest => ofSpan none rest
  | c :: _ =>
    if !mayBegin c then .error .malformed
    else
      let name := s.takeWhile fun c => c ≠ '=' ∧ c ≠ '['
      match s.dropWhile fun c => c ≠ '=' ∧ c ≠ '[' with
      | [] =>
        match verbosity? name with
        | some n => .ok ⟨none, false, [], n⟩
        | none => .ok ⟨some (String.ofList name), false, [], fullVerbosity⟩
      | '=' :: level =>
        (readLevel level).map fun n => ⟨some (String.ofList name), false, [], n⟩
      | _ :: rest => ofSpan (some (String.ofList name)) rest

/-- Whether a directive is for an event. -/
def covers (d : LogDirective) (e : Event) : Bool :=
  !d.spans
    && (match d.origin with
      | none => true
      | some start => start.toList.isPrefixOf e.origin.toList)
    && d.fields.all fun name => name == "message" || e.fields.any fun f => f.1 == name

/-- How specific a directive is: the length of the name, which is more than
none, and the number of fields. -/
def specificity (d : LogDirective) : Nat × Nat :=
  (match d.origin with
    | none => 0
    | some start => start.utf8ByteSize + 1,
   d.fields.length)

/-- Whether a directive goes before another that is for the same event. Of
two that are as specific, the later one goes first. -/
def precedes (a b : LogDirective) : Bool :=
  let (na, fa) := a.specificity
  let (nb, fb) := b.specificity
  na > nb || (na == nb && fa ≥ fb)

end LogDirective

/-- **A log filter.** -/
structure LogFilter where
  /-- The directives, in the order they were given. -/
  directives : List LogDirective
  deriving DecidableEq, Repr

namespace LogFilter

/-- The directives of a filter's text, each with its own text. -/
def readDirectives (text : String) :
    List (String × Except LogDirectiveFault LogDirective) :=
  ((LogDirective.commaPieces text.toList).filter (· ≠ [])).map fun piece =>
    (String.ofList piece, LogDirective.parse piece)

/-- The directives of a filter's text that can be used. -/
def usable (text : String) : List LogDirective :=
  (readDirectives text).filterMap fun (_, d) => d.toOption

/-- The filter that shows errors. -/
def errorsOnly : LogFilter := ⟨[⟨none, false, [], Level.error.verbosity⟩]⟩

/-- **The filter that a text describes.** -/
def ofText (text : String) : LogFilter :=
  if usable text = [] then errorsOnly else ⟨usable text⟩

/-- What operators are told about the directives that cannot be used. -/
def complaints (text : String) : List String :=
  (readDirectives text).filterMap fun (piece, d) =>
    match d with
    | .ok _ => none
    | .error fault => some ("ignoring `" ++ piece ++ "`: " ++ fault.message ++ "\n")

/-- The directive that decides about an event. -/
def deciding? (f : LogFilter) (e : Event) : Option LogDirective :=
  (f.directives.filter (·.covers e)).foldl (fun best d =>
    match best with
    | none => some d
    | some b => if d.precedes b then some d else some b) none

/-- **Whether an event is shown.** -/
def admits (f : LogFilter) (e : Event) : Bool :=
  match f.deciding? e with
  | none => false
  | some d => e.level.verbosity ≤ d.verbosity

/-- The name of a level, filled up to the longest one. -/
def alignedName (l : Level) : String :=
  String.ofList (List.replicate (5 - l.name.length) ' ') ++ l.name

/-- The line of an event with the time before it. -/
def stampedLine (time : String) (e : Event) : String :=
  time ++ " " ++ alignedName e.level ++ " " ++ e.tail ++ "\n"

/-- **What operators see of what a program leaves**: the events that the
filter admits, every one at the given time, and all complaints. -/
def errorText (f : LogFilter) (time : String) (traces : List Trace) : String :=
  String.join (traces.map fun trace =>
    match trace with
    | .event e => if f.admits e then stampedLine time e else ""
    | .complaint text => text)

end LogFilter

end CertAuthority
