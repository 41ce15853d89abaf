import CertAuthority.Event
import CertAuthority.Files.Kind
import CertAuthority.Key.Pair

/-!
# Programs

What the authority does to its surroundings is written down before it is
done. A program is a dialogue: it either is done, with a result, or asks
its surroundings for something and says how it goes on with each answer.
The surroundings may be a machine with a disk and a clock, or a value that
stands for one, so that the same program that runs can be reasoned about.

`Request` lists all that a program may ask for; there is no other way out
of a program. `Program.run` holds the dialogue with any surroundings.
-/

namespace CertAuthority

/-- **What a program may ask its surroundings for.** -/
inductive Request where
  /-- To take note of an event. -/
  | note (event : Event)
  /-- That many random bytes. -/
  | random (count : Nat)
  /-- The current day. -/
  | today
  /-- A key pair from a source outside the program. -/
  | externalKey
  /-- What a path leads to. -/
  | kind (path : Path)
  /-- To make a directory with the given permissions. -/
  | makeDirectory (path : Path) (mode : Nat)
  /-- To make an empty file in a directory, under a name that no entry has
  and that is not the target's. -/
  | createTemporary (dir target : Path)
  /-- To fill a file. -/
  | fill (path : Path) (content : Bytes)
  /-- To set the permissions of a file. -/
  | restrict (path : Path) (mode : Nat)
  /-- To give a file another name, in place of any entry that has it. -/
  | replace (source target : Path)
  /-- To give a file another name, unless there is an entry that has it. -/
  | moveNew (source target : Path)
  /-- To remove a file. -/
  | remove (path : Path)
  /-- The content of a file. -/
  | read (path : Path)
  /-- To print a text. -/
  | print (text : String)
  /-- To print a text where complaints go. -/
  | complain (text : String)

/-- **What the answer to a request is.** -/
@[reducible] def Request.Answer : Request → Type
  | note _ => Unit
  | random _ => Bytes
  | today => Calendar.Date
  | externalKey => Except Error KeyPair
  | kind _ => Option Files.Kind
  | createTemporary .. => Except Files.Fault Path
  | read _ => Except Files.Fault Bytes
  | makeDirectory .. | fill .. | restrict .. | replace .. | moveNew .. | remove _ | print _ =>
    Except Files.Fault Unit
  | complain _ => Unit

/-- **A program with a result.** -/
inductive Program (α : Type) where
  /-- It is done. -/
  | done (a : α)
  /-- It asks for something and goes on with the answer. -/
  | ask (r : Request) (next : r.Answer → Program α)

namespace Program

/-- The program that asks for one thing and returns the answer. -/
def request (r : Request) : Program r.Answer := ask r done

/-- One program after another. -/
def bind {α β : Type} : Program α → (α → Program β) → Program β
  | done a, f => f a
  | ask r next, f => ask r fun x => (next x).bind f

instance : Monad Program where
  pure := done
  bind := bind

theorem bind_done {α : Type} (p : Program α) : p.bind done = p := by
  induction p with
  | done a => rfl
  | ask r next ih => simp [bind, ih]

theorem bind_assoc {α β γ : Type} (p : Program α) (f : α → Program β) (g : β → Program γ) :
    (p.bind f).bind g = p.bind fun a => (f a).bind g := by
  induction p with
  | done a => rfl
  | ask r next ih => simp [bind, ih]

instance : LawfulMonad Program := LawfulMonad.mk' Program
  (fun p => bind_done p)
  (fun _ _ => rfl)
  (fun p f g => bind_assoc p f g)

/-- **Holds the dialogue of a program** with surroundings that answer each
request. -/
def run {m : Type → Type} [Monad m] (answer : (r : Request) → m r.Answer) {α : Type} :
    Program α → m α
  | done a => pure a
  | ask r next => do
    let x ← answer r
    (next x).run answer

end Program

/-! ## Programs that may fail -/

/-- **A program that may fail.** -/
abbrev Action := ExceptT Error Program

namespace Action

/-- Takes note of an event. -/
def note (e : Event) : Action Unit := Program.request (.note e)

/-- Returns a result that is there already, or its error. -/
def ofExcept {α : Type} (r : Except Error α) : Action α := ExceptT.mk (.done r)

/-- Asks for something that the file system may refuse; a refusal is an
error about the given path. -/
def orFault {α : Type} (path : Path) (p : Program (Except Files.Fault α)) : Action α :=
  ExceptT.mk do
    match ← p with
    | .ok a => return .ok a
    | .error fault => return .error (.ofFault path fault)

/-- Takes note of a certificate that was parsed. -/
def noteParsed (c : Certificate) : Action Unit :=
  note (.certificateParsed c.serialNumber c.subject)

/-- **Parses a certificate**, and takes note of it. -/
def parsed (r : Except Error Certificate) : Action Certificate := do
  let c ← ofExcept r
  noteParsed c
  return c

end Action

end CertAuthority
