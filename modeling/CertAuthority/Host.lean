import CertAuthority.Files.Tree
import CertAuthority.Program

/-!
# Hosts

A host is a value that stands for a machine: a file tree, a calendar, a
source of random bytes, a source of keys and what has been noted and
printed so far. `Host.answer` says how it answers each request and what it
is afterwards, and `Program.runOn` runs a program on it. What holds for
every host holds for every machine that answers requests the way a host
does.

A host may be short of room for what is printed, and it may refuse
requests about files for reasons of its own, whatever its tree says:
`refuses` tells which of them it refuses, and with which fault.
-/

namespace CertAuthority

/-- What a program leaves for operators to read. -/
inductive Trace where
  /-- An event of the log. -/
  | event (e : Event)
  /-- A text that was printed where complaints go. -/
  | complaint (text : String)
  deriving DecidableEq

/-- The event in a trace, if it is one. -/
def Trace.event? : Trace → Option Event
  | event e => some e
  | complaint _ => none

/-- **A machine to run programs on.** -/
structure Host where
  /-- The files. -/
  tree : Files.Tree
  /-- The current day. -/
  today : Calendar.Date
  /-- The random bytes of each draw, by its number and how many are asked
  for. -/
  entropy : (draw count : Nat) → Bytes
  /-- How many draws there have been. -/
  draws : Nat := 0
  /-- The keys of the outside source, by the number of the call. -/
  externalKeys : (call : Nat) → Except Error KeyPair :=
    fun _ => .error (.keyGeneration "no key source")
  /-- How many calls to the outside source there have been. -/
  externalCalls : Nat := 0
  /-- Which requests about files the host refuses, by how many there were
  before. -/
  refuses : (asked : Nat) → Request → Option Files.Fault := fun _ _ => none
  /-- How many requests about files there have been. -/
  asked : Nat := 0
  /-- What has been left for operators, in order. -/
  traces : List Trace := []
  /-- What has been printed. -/
  printed : Bytes := []
  /-- For how many more bytes there is room where things are printed, if
  that is limited. -/
  room : Option Nat := none

namespace Host

/-- **The events that have been noted**, in order. -/
def log (h : Host) : List Event := h.traces.filterMap Trace.event?

/-- The fault of a place to print to that is full. -/
def noRoom : Files.Fault := .stated "no room"

/-- The fault with which the host refuses a request about files, if it
does, and the host after the request. -/
def refusal (h : Host) (r : Request) : Option Files.Fault × Host :=
  (h.refuses h.asked r, { h with asked := h.asked + 1 })

/-- Answers a request to look at files. -/
def look {α : Type} (h : Host) (r : Request) (f : Files.Tree → Except Files.Fault α) :
    Except Files.Fault α × Host :=
  match h.refusal r with
  | (some fault, h) => (.error fault, h)
  | (none, h) => (f h.tree, h)

/-- Answers what a path leads to. A host that refuses to look has seen
nothing. -/
def lookFor (h : Host) (path : Path) : Option Files.Kind × Host :=
  match h.refusal (.kind path) with
  | (some _, h) => (none, h)
  | (none, h) => (h.tree.kind? path, h)

/-- Answers a request to change files. -/
def change {α : Type} (h : Host) (r : Request)
    (f : Files.Tree → Except Files.Fault (α × Files.Tree)) : Except Files.Fault α × Host :=
  match h.refusal r with
  | (some fault, h) => (.error fault, h)
  | (none, h) =>
    match f h.tree with
    | .ok (a, tree) => (.ok a, { h with tree := tree })
    | .error fault => (.error fault, h)

/-- Answers a request to change files that has no further answer. -/
def changeOnly (h : Host) (r : Request) (f : Files.Tree → Except Files.Fault Files.Tree) :
    Except Files.Fault Unit × Host :=
  h.change r fun t => (f t).map ((), ·)

/-- Prints as much of a text as there is room for. -/
def printText (h : Host) (text : String) : Except Files.Fault Unit × Host :=
  let bytes := Text.Utf8.encode text.toList
  match h.room with
  | none => (.ok (), { h with printed := h.printed ++ bytes })
  | some room =>
    let h := { h with printed := h.printed ++ bytes.take room, room := some (room - bytes.length) }
    (if bytes.length ≤ room then .ok () else .error noRoom, h)

/-- **How a host answers a request**, and what it is afterwards. -/
def answer (h : Host) : (r : Request) → r.Answer × Host
  | .note event => ((), { h with traces := h.traces ++ [.event event] })
  | .random count => (h.entropy h.draws count, { h with draws := h.draws + 1 })
  | .today => (h.today, h)
  | .externalKey => (h.externalKeys h.externalCalls, { h with externalCalls := h.externalCalls + 1 })
  | .kind path => h.lookFor path
  | r@(.makeDirectory path mode) => h.changeOnly r (·.makeDirectory path mode)
  | r@(.createTemporary dir target) => h.change r (·.createTemporary dir target)
  | r@(.fill path content) => h.changeOnly r (·.fill path content)
  | r@(.restrict path mode) => h.changeOnly r (·.restrict path mode)
  | r@(.replace source target) => h.changeOnly r (·.replace source target)
  | r@(.moveNew source target) => h.changeOnly r (·.moveNew source target)
  | r@(.remove path) => h.changeOnly r (·.remove path)
  | r@(.read path) => h.look r (·.read path)
  | .print text => h.printText text
  | .complain text => ((), { h with traces := h.traces ++ [.complaint text] })

end Host

namespace Program

/-- **Runs a program on a host**: its result, and the host afterwards. -/
def runOn {α : Type} : Program α → Host → α × Host
  | done a, h => (a, h)
  | ask r next, h =>
    let (x, h) := h.answer r
    (next x).runOn h

@[simp] theorem runOn_pure {α : Type} (a : α) (h : Host) :
    (pure a : Program α).runOn h = (a, h) := rfl

theorem runOn_bind {α β : Type} (p : Program α) (f : α → Program β) (h : Host) :
    (p >>= f).runOn h = (f (p.runOn h).1).runOn (p.runOn h).2 := by
  induction p generalizing h with
  | done a => rfl
  | ask r next ih => exact ih (h.answer r).1 (h.answer r).2

@[simp] theorem runOn_request (r : Request) (h : Host) :
    (request r).runOn h = h.answer r := rfl

end Program

/-- **Runs a program that may fail on a host.** -/
def Action.runOn {α : Type} (p : Action α) (h : Host) : Except Error α × Host :=
  Program.runOn (ExceptT.run p) h

end CertAuthority
