/-
  GridBench.Identity

  The identity of one client process.  It stands in map names and storage
  keys, so that clients running side by side never address the same key.
-/
import GridBench.Journal
import GridBench.Text.White

namespace GridBench

/-- The identity of a client. -/
structure ClientIdentity where
  text : String
deriving DecidableEq, Repr

namespace ClientIdentity

/-- The identity for a configured value: the value without white characters around it, or the
    fresh identity, with a warning, if nothing is left. -/
def ofConfigured (fresh value : String) : ClientIdentity × List Record :=
  let trimmed := Text.trim value
  if trimmed.isEmpty then
    (⟨fresh⟩, [⟨.warn, .identity, "Configured client identity is blank, generating one instead"⟩])
  else (⟨trimmed⟩, [])

end ClientIdentity

end GridBench
