/-
  GridBench.Proofs.Settings.RoundTrip

  A configuration file that is made of written settings by taking settings out,
  putting entries under unknown keys in and changing the order is read as the
  settings that are left, with the defaults for the others.  The statements
  start from the tree that the file's text stands for.
-/
import Mathlib
import GridBench.Proofs.Settings.Blend
import GridBench.Settings.Search

namespace GridBench

open GridBench.Form GridBench.Yaml

namespace Settings

/-- What may be put into a table at a path: anything, except that the entries of the load runner's
    section are typed before it is known what they are for, and have to be trees of scalars. -/
def admits (path : List String) (n : Node) : Prop :=
  ["map-tests", "load"] <+: path → Buffer.fits (depthLimit - (path.length + 1)) n

end Settings

end GridBench
