import CertAuthority.Program
import CertAuthority.SecurityConfig

/-!
# Configuration files
-/

namespace CertAuthority.SecurityConfig

/-- **Reads the configuration in a file.** -/
def load (path : Path) : Action SecurityConfig := do
  let content ← Action.orFault path (Program.request (.read path))
  match Text.Utf8.decode? content with
  | none => throw (.files path .notText)
  | some text =>
    let c ← Action.ofExcept (ofJson text)
    Action.note (.configurationLoaded path)
    return c

end CertAuthority.SecurityConfig
