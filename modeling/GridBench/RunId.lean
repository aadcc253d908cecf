/-
  GridBench.RunId

  Identifiers of runs: 128-bit numbers written as five groups of hexadecimal digits.
-/
import GridBench.Text.Quoted

namespace GridBench

/-- The identifier of one run. -/
structure RunId where
  number : Nat
deriving DecidableEq, Repr

namespace RunId

/-- The identifier in groups of eight, four, four, four and twelve digits. -/
def render (id : RunId) : String :=
  let ds := (Text.hexPadded 32 id.number).toList
  let group (start size : Nat) : String := String.ofList ((ds.drop start).take size)
  "-".intercalate [group 0 8, group 8 4, group 12 4, group 16 4, group 20 12]

/-- The identifier made of a random number: the version is set to four and the variant to
    the standard one. -/
def ofRandom (n : Nat) : RunId :=
  let low := n % Nat.pow 2 62
  let mid := n / Nat.pow 2 62 % Nat.pow 2 12
  let high := n / Nat.pow 2 74 % Nat.pow 2 48
  ⟨((high * Nat.pow 2 16 + 0x4000 + mid) * Nat.pow 2 64) + Nat.pow 2 63 + low⟩

end RunId

end GridBench
