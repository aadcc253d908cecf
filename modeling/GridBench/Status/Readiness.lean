/-
  GridBench.Status.Readiness

  Readiness for work, over all runners: up once some runner has raised
  readiness and every signal of not being ready has been matched by one of
  being ready.
-/
import GridBench.Journal

namespace GridBench

/-- A signal from a runner. -/
inductive ReadinessSignal where
  | notReady
  | ready
deriving DecidableEq, Repr

/-- How many signals of not being ready are unmatched, and whether readiness was ever raised. -/
structure Readiness where
  pending : Nat := 0
  raised : Bool := false
deriving DecidableEq, Repr, Inhabited

namespace Readiness

def isUp (r : Readiness) : Bool := r.raised && r.pending = 0

/-- The warning about a signal of being ready that matches no other. -/
def unmatched : Record :=
  ⟨.warn, .readiness, "Readiness raised without preceding not-ready signal"⟩

/-- Takes one signal. -/
def signal (r : Readiness) : ReadinessSignal → Readiness × List Record
  | .notReady => ({ r with pending := r.pending + 1 }, [])
  | .ready =>
    (⟨r.pending - 1, true⟩, if r.pending = 0 then [unmatched] else [])

/-- Takes one signal after the other. -/
def signals : Readiness → List ReadinessSignal → Readiness × List Record
  | r, [] => (r, [])
  | r, s :: ss =>
    let (r, logs) := r.signal s
    let (r, more) := signals r ss
    (r, logs ++ more)

end Readiness

end GridBench
