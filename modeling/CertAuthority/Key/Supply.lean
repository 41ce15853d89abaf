import CertAuthority.Program

/-!
# Where keys come from

A certificate is signed with a key pair that is there already, with one
that is made for the purpose, or with one from outside: some device or
service that gives out a key pair when it is asked. Only the last two are
*sources*; a source may fail, and asking it is a step of the program.
-/

namespace CertAuthority

namespace KeyPair

/-- **Makes a key pair** from random bytes. -/
def generate (a : Key.Algorithm) : Action KeyPair := do
  let entropy ← Program.request (.random entropySize)
  match ofEntropy? a entropy with
  | some k => return k
  | none => throw (.keyGeneration ("failed to generate " ++ a.name ++ " key pair"))

end KeyPair

namespace Key

/-- **Where a key pair comes from.** -/
inductive Supply where
  /-- It is there. -/
  | pair (k : KeyPair)
  /-- It is made when it is needed. -/
  | generator (algorithm : Algorithm)
  /-- It comes from outside when it is needed. -/
  | outside
  deriving DecidableEq

namespace Supply

/-- **Obtains the key pair.** -/
def obtain : Supply → Action KeyPair
  | pair k => return k
  | generator algorithm => do
    let k ← KeyPair.generate algorithm
    Action.note (.keyGenerated algorithm)
    return k
  | outside => ExceptT.mk (Program.request .externalKey)

/-- How a supply shows in diagnostic texts. -/
def diagnostic : Supply → String
  | pair k => "Pair(" ++ k.diagnostic ++ ")"
  | generator _ | outside => "Source"

/-- How the generator of an algorithm's keys shows in diagnostic texts. -/
def generatorDiagnostic (algorithm : Algorithm) : String :=
  "KeyGenerator \x7b algorithm: " ++ algorithm.diagnosticName ++ " \x7d"

end Supply

end Key

end CertAuthority
