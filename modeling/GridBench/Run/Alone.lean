/-
  GridBench.Run.Alone

  A program carried out from start to end while nothing else happens: the
  clock passes exactly as long as the program waits, and whatever it publishes
  is gathered at once.
-/
import GridBench.Run.Worker
import GridBench.Status.Gatherer

namespace GridBench

namespace Request

variable {σ : Type}

/-- Sends a request and waits for its answer. -/
def exchange (g : Grid σ) (w : World σ) (r : Request) (withinMs : Option Nat) :
    Except Fault r.Answer × World σ :=
  if w.cancelled && r.isCancellable then (.error .cancelled, w)
  else
    let (delay, ticket, grid) := g.start w.grid r
    let f : Flight := ⟨ticket, w.clock, w.clock + delay, withinMs⟩
    f.land g ({ w with grid := grid }.passUntil f.wakeTime) r

end Request

namespace Gatherer

variable {σ : Type}

/-- Queues an update and gathers everything that is queued. -/
def gather (g : Gatherer) (w : World σ) (u : StatusUpdate) : Gatherer × World σ :=
  let (g, late) := g.post u
  let (g, logs) := g.settle
  (g, w.log (late ++ logs))

end Gatherer

namespace Proc

variable {σ α : Type}

/-- The result of a program that is carried out alone, and what it leaves behind. -/
def alone (g : Grid σ) : Proc α → World σ → Gatherer → α × World σ × Gatherer
  | .done a, w, t => (a, w, t)
  | .op (.ask r withinMs) k, w, t =>
    let (a, w) := r.exchange g w withinMs
    alone g (k a) w t
  | .op (.pause ms) k, w, t => alone g (k ()) (w.passUntil (w.clock + ms)) t
  | .op .clock k, w, t => alone g (k w.clock) w t
  | .op (.pick p) k, w, t =>
    let (n, draws) := p.take w.draws
    alone g (k n) { w with draws := draws } t
  | .op (.log r) k, w, t => alone g (k ()) (w.log [r]) t
  | .op (.publish u) k, w, t =>
    let (t, w) := t.gather w u
    alone g (k ()) w t

end Proc

end GridBench
