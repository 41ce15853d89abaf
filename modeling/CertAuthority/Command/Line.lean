/-!
# Command lines

A command line is a list of words. Words that begin with a dash are
switches, which may be followed by a value; the first other word is a
subcommand, and what follows it is read by the rules of that subcommand.
`scan` reads the words of one level.

A value may be part of its switch's word (`--out=x`, `-ox`) or be the next
word. In the second case it is only looked at when the next switch or the
end of the line is reached, so that a later word that means nothing is
reported before an earlier value that is no good. The word `--` says that
no more switches follow.
-/

namespace CertAuthority.Command

/-- **What is wrong with a command line**, or what it asks for instead of a
command. -/
inductive UsageFault where
  /-- It asks for help. -/
  | help
  /-- It asks for the version. -/
  | version
  /-- There is nothing on it. -/
  | nothingGiven
  /-- There is no subcommand on it. -/
  | noSubcommand
  /-- A word is no subcommand. -/
  | unknownSubcommand
  /-- A word means nothing. -/
  | unknownArgument
  /-- A switch that has to be there is not. -/
  | missingArgument
  /-- A switch occurs twice. -/
  | repeatedArgument
  /-- A value is missing, or is none of the possible ones. -/
  | invalidValue
  /-- A value cannot be read. -/
  | unreadableValue
  /-- A switch without a value has one. -/
  | unwantedValue
  deriving DecidableEq, Repr

/-- The exit code of a program that stops because of its command line. Help
and version were asked for. -/
def UsageFault.exitCode : UsageFault → Nat
  | help | version => 0
  | _ => 2

/-- What a switch is followed by. -/
inductive Operand where
  /-- Nothing; to give the switch is all there is to it. -/
  | none
  /-- Nothing, and it asks for something else than a command. -/
  | instead (fault : UsageFault)
  /-- A value, with what is wrong with it. -/
  | value (check : String → Option UsageFault)

/-- **A switch.** -/
structure Switch where
  /-- Its name after two dashes. -/
  long : String
  /-- Its letter after one dash. -/
  short : Option Char := Option.none
  /-- What it is followed by. -/
  operand : Operand
  /-- Whether it may be given more than once. -/
  repeatable : Bool := false

/-- **What may stand on a level of a command line.** -/
structure Level where
  /-- The switches. -/
  switches : List Switch
  /-- The subcommands. -/
  subcommands : List String

/-- The subcommand that asks for help. -/
def helpWord : String := "help"

namespace Level

/-- Whether a word is a subcommand. -/
def isSubcommand (l : Level) (word : String) : Bool :=
  l.subcommands ≠ [] && (word == helpWord || l.subcommands.contains word)

/-- The switch with a name. -/
def long? (l : Level) (name : List Char) : Option Switch :=
  l.switches.find? fun s => s.long.toList == name

/-- The switch with a letter. -/
def short? (l : Level) (letter : Char) : Option Switch :=
  l.switches.find? fun s => s.short == some letter

end Level

/-- **What has been read of a level.** -/
structure Scan where
  /-- The switches that were given, with their values, the first one
  first. -/
  given : List (String × String) := []
  /-- A switch whose value has not been looked at, with the value if it has
  come. -/
  pending : Option (Switch × Option String) := none
  /-- Whether no more switches follow. -/
  closed : Bool := false

namespace Scan

/-- The values that a switch was given. -/
def values (s : Scan) (name : String) : List String :=
  s.given.filterMap fun (n, value) => if n == name then some value else none

/-- The value that a switch was given first. -/
def value? (s : Scan) (name : String) : Option String := (s.values name).head?

/-- Whether a switch was given. -/
def has (s : Scan) (name : String) : Bool := (s.values name) ≠ []

/-- Takes a switch with its value. -/
def take (s : Scan) (switch : Switch) (value : String) : Except UsageFault Scan :=
  if s.has switch.long ∧ switch.repeatable = false then .error .repeatedArgument
  else
    match switch.operand with
    | .none => .ok { s with given := s.given ++ [(switch.long, value)] }
    | .instead fault => .error fault
    | .value check =>
      match check value with
      | some fault => .error fault
      | none => .ok { s with given := s.given ++ [(switch.long, value)] }

/-- **Looks at the value that has been put off**, if there is one. -/
def settle (s : Scan) : Except UsageFault Scan :=
  match s.pending with
  | none => .ok s
  | some (_, none) => .error .invalidValue
  | some (switch, some value) => { s with pending := none }.take switch value

/-- Whether the next word is the value of a switch. -/
def isWaiting (s : Scan) : Bool :=
  match s.pending with
  | some (_, none) => true
  | _ => false

/-- Takes the next word as the value of the switch that waits for it. -/
def giveValue (s : Scan) (word : String) : Scan :=
  { s with pending := s.pending.map fun (switch, _) => (switch, some word) }

/-- A switch that has been read, with a value in the same word if there is
one. -/
def meet (s : Scan) (switch : Switch) (value : Option String) : Except UsageFault Scan := do
  let s ← s.settle
  match switch.operand, value with
  | .value _, none => return { s with pending := some (switch, none) }
  | _, _ => s.take switch (value.getD "")

/-- Reads a word of one dash and letters. A letter that takes a value takes
the rest of the word, without an equals sign at its beginning. -/
def letters (l : Level) : Scan → List Char → Except UsageFault Scan
  | s, [] => .ok s
  | s, c :: rest =>
    match l.short? c with
    | none => .error .unknownArgument
    | some switch =>
      match switch.operand with
      | .value _ =>
        match rest with
        | [] => s.meet switch none
        | '=' :: value => s.meet switch (some (String.ofList value))
        | value => s.meet switch (some (String.ofList value))
      | _ => do letters l (← s.meet switch none) rest

/-- Reads a word of two dashes and a name, perhaps with a value. -/
def named (l : Level) (s : Scan) (word : List Char) : Except UsageFault Scan :=
  let name := word.takeWhile (· ≠ '=')
  let value := match word.dropWhile (· ≠ '=') with
    | [] => none
    | _ :: value => some (String.ofList value)
  match l.long? name with
  | none => .error .unknownArgument
  | some switch =>
    match switch.operand, value with
    | .none, some _ | .instead _, some _ => .error .unwantedValue
    | _, _ => s.meet switch value

/-- The fault of a word that is neither a switch nor a value. -/
def strayFault (l : Level) (s : Scan) (word : String) : UsageFault :=
  if l.subcommands = [] ∨ (s.closed ∧ l.isSubcommand word) then .unknownArgument
  else .unknownSubcommand

end Scan

/-- What the words after the one that asks for help ask about: a
subcommand, or everything. -/
def helpFault (l : Level) : List String → UsageFault
  | [] => .help
  | [word] => if l.isSubcommand word then .help else .unknownSubcommand
  | _ => .unknownSubcommand

/-- Reads a word that is no subcommand. -/
def readWord (l : Level) (s : Scan) (word : String) : Except UsageFault Scan :=
  if s.closed then .error (s.strayFault l word)
  else
    match word.toList with
    | ['-', '-'] => .ok { s with closed := true }
    | '-' :: '-' :: rest => s.named l rest
    | '-' :: c :: rest => s.letters l (c :: rest)
    | _ => if s.isWaiting then .ok (s.giveValue word) else .error (s.strayFault l word)

/-- **Reads the words of a level** up to a subcommand or the end: what was
read, and the subcommand with the words after it. -/
def scan (l : Level) : Scan → List String → Except UsageFault (Scan × Option (String × List String))
  | s, [] => .ok (s, none)
  | s, word :: rest =>
    if l.isSubcommand word ∧ s.closed = false ∧ s.isWaiting = false then
      if word = helpWord then .error (helpFault l rest) else .ok (s, some (word, rest))
    else
      match readWord l s word with
      | .ok s => scan l s rest
      | .error fault => .error fault

end CertAuthority.Command
