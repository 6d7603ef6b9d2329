import Wildcard.Error
import Wildcard.Regex.Limits
import Wildcard.Regex.Marked
import Wildcard.Regex.Source
import Wildcard.Render.Expression

/-! Matchers: regular expressions that are ready to be searched for in texts. -/

namespace Wildcard

/-- An expression, and the text that spells it. -/
structure Matcher where
  source : List Char
  expression : Regex

namespace Matcher

/-- The source is refused if it spells no expression or one beyond the limits. -/
def ofSource? (source : List Char) : Except Error Matcher :=
  match Regex.ofSource? source with
  | none => .error .invalidExpression
  | some r =>
      if r.withinLimits then .ok ⟨source, r⟩
      else .error .invalidExpression

/-- Whether the expression is found in a text. -/
def test (m : Matcher) (text : List Char) : Bool := m.expression.isFoundIn text

/-- Writes a pattern as an expression and makes a matcher of it. -/
def renderer : Renderer Expression.State Error Matcher where
  initial := Expression.renderer.initial
  handle := Expression.renderer.handle
  finish := do
    match ofSource? (← Expression.renderer.finish) with
    | .ok m => return m
    | .error fault => throw fault

end Matcher

namespace Pattern

def matcher? (p : Pattern) : Except Error Matcher := p.render Matcher.renderer

/-- Whether a pattern matches the whole of a text. -/
def test? (p : Pattern) (text : List Char) : Except Error Bool := do
  return (← p.matcher?).test text

end Pattern

end Wildcard
