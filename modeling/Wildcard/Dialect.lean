import Wildcard.Render.Expression
import Wildcard.Render.Fixed
import Wildcard.Sql92
import Wildcard.Unix

/-! The dialects in which the command reads and writes patterns. -/

namespace Wildcard

inductive Dialect where
  | unix
  | sql92
  | regex
  | simple
  deriving DecidableEq

namespace Dialect

def name : Dialect → String
  | .unix => "unix"
  | .sql92 => "sql92"
  | .regex => "regex"
  | .simple => "simple"

def all : List Dialect := [.unix, .sql92, .regex, .simple]

def ofName? (name : String) : Except Error Dialect :=
  match all.find? fun dialect => dialect.name == name with
  | some dialect => .ok dialect
  | none => .error (.usage (.unknownDialect name))

/-- The pattern that a text spells. Only the wildcard languages can be read. -/
def read? (dialect : Dialect) (escape : Option Char) (text : List Char) : Except Error Pattern :=
  match dialect with
  | .unix => .ok (Unix.parse (Unix.alphabet escape) text)
  | .sql92 => Sql92.parse escape text
  | .regex | .simple => .error (.usage .unreadableDialect)

/-- The text of a pattern. The wildcard languages cannot be written without an escape character,
and regular expressions have one of their own. -/
def write? (dialect : Dialect) (escape : Option Char) (p : Pattern) : Except Error (List Char) :=
  match dialect, escape with
  | .unix, some escape => p.render (Unix.spelling.renderer escape [])
  | .sql92, some escape => p.render (Sql92.spelling.renderer escape [])
  | .unix, none | .sql92, none => .error (.usage .escapeRequired)
  | .regex, _ => p.render Expression.renderer
  | .simple, escape => p.render (Fixed.renderer escape [])

end Dialect

end Wildcard
