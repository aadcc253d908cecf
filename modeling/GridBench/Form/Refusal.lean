/-
  GridBench.Form.Refusal

  Why a YAML document is refused, and the place where it happened.
-/
import GridBench.Form.Misfit

namespace GridBench.Form

/-- One step from a value to a part of it. -/
inductive Step where
  | key (name : String)
  | index (i : Nat)
  /-- A part under a key that has no text of its own. -/
  | unnamed
deriving DecidableEq, Repr

/-- The way from the root to a value, the last step first. -/
abbrev Place := List Step

namespace Place

/-- The place in words; the root is a point. -/
def render : Place → String
  | [] => "."
  | [.key name] => name
  | [.unnamed] => "?"
  | .key name :: parent => render parent ++ "." ++ name
  | .unnamed :: parent => render parent ++ ".?"
  | .index i :: parent => render parent ++ "[" ++ toString i ++ "]"

end Place

/-- Why a document is refused. -/
inductive Refusal where
  /-- The text is no single well-formed document, or is nested too deeply. -/
  | malformed
  /-- The text holds a character that no document may hold, at this byte. -/
  | control (position : Nat)
  /-- Aliases repeat far more than the document holds. -/
  | repetition
  /-- A value does not fit its form.  The place is filled in by the innermost enclosing value
      that knows its own. -/
  | misfit (place : Option Place) (cause : Misfit)
deriving DecidableEq, Repr

namespace Refusal

/-- Fills in the place of a misfit that has none yet. -/
def locate (place : Place) : Refusal → Refusal
  | .misfit none cause => .misfit (some place) cause
  | r => r

/-- The text of a refusal. -/
def message : Refusal → String
  | .malformed => "<yaml syntax>"
  | .control position =>
    "control characters are not allowed"
      ++ (if position = 0 then "" else " at position " ++ toString position)
  | .repetition => "repetition limit exceeded"
  | .misfit none cause => cause.message .yaml
  | .misfit (some []) cause => cause.message .yaml
  | .misfit (some place) cause => place.render ++ ": " ++ cause.message .yaml

end Refusal

end GridBench.Form
