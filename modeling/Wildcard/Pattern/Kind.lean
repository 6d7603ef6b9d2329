/-! The kinds of pattern and their names. -/

namespace Wildcard

inductive Kind where
  | empty
  | anyChar
  | literal
  | oneOf
  | group
  | atLeast
  deriving DecidableEq

namespace Kind

def name : Kind → String
  | .empty => "empty"
  | .anyChar => "any char"
  | .literal => "char sequence"
  | .oneOf => "one of"
  | .group => "group"
  | .atLeast => "at least"

def all : List Kind := [.empty, .anyChar, .literal, .oneOf, .group, .atLeast]

def ofName? (name : String) : Option Kind := all.find? fun kind => kind.name == name

end Kind

end Wildcard
