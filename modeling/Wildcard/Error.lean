import Wildcard.Pattern.Kind
import Wildcard.Text.Quoted

/-! What can go wrong, by cause, and the message for each cause. -/

namespace Wildcard

/-- Faults in the arguments of the command. -/
inductive UsageError where
  | missingEscape
  | escapeNotSingle (value : String)
  | missingTarget
  | unknownDialect (name : String)
  | unexpectedArgument (argument : String)
  | noPattern
  | unreadableDialect
  | escapeRequired

inductive Error where
  /-- A repetition count that is negative or too large. -/
  | countOutOfRange (count : Int)
  /-- So many bytes, repeated so many times, are too long for a text. -/
  | repetitionTooLong (bytes count : Nat)
  /-- The lower bound of a pattern is too long for a text. -/
  | boundTooLong
  | unknownOperator (op : Char)
  /-- A pattern of this kind does not stand for one fixed text. -/
  | notSimple (kind : Kind)
  | missingCount
  | unopenedScope
  /-- A regular expression that is malformed or too large. -/
  | invalidExpression
  | usage (fault : UsageError)
  | inputNotText

/-- The usage text of the command. -/
def usageText : String :=
  "usage: wildcard [-s|--sql92] [-e|--escape C | --no-escape] "
    ++ "[-t|--to unix|sql92|regex|simple] <PATTERN>\n\n"
    ++ "--no-escape can not be combined with --to unix or --to sql92"

namespace UsageError

def quoted (value : String) : String := String.ofList (Text.quoted value.toList)

/-- The fault in words, without the usage text. -/
def reason : UsageError → String
  | .missingEscape => "missing escape character"
  | .escapeNotSingle value => "escape must be a single character, got " ++ quoted value
  | .missingTarget => "missing target dialect"
  | .unknownDialect name =>
      "unknown dialect " ++ quoted name ++ ", use any of unix, sql92, regex, simple"
  | .unexpectedArgument argument => "unexpected argument " ++ quoted argument
  | .noPattern => "no pattern provided"
  | .unreadableDialect => "patterns can only be read as unix or sql92"
  | .escapeRequired => "--no-escape can not be combined with --to unix or --to sql92"

/-- The fault in words; the usage text follows unless the words already list the choices. -/
def message : UsageError → String
  | .unknownDialect name => reason (.unknownDialect name)
  | fault => fault.reason ++ "\n" ++ usageText

end UsageError

namespace Error

/-- The fault in words. A malformed or too large expression is described by the engine that refuses
it, and a bound that is too long is not described anywhere; the words for these two are stand-ins. -/
def message : Error → String
  | .countOutOfRange count =>
      s!"invalid argument: repetition count must be non-negative, got {count}"
  | .repetitionTooLong bytes count =>
      s!"invalid argument: repeating {bytes} bytes {count} times overflows"
  | .boundTooLong => "the lower bound is too long"
  | .unknownOperator op => "unknown operator " ++ String.ofList (Text.quoted [op])
  | .notSimple kind => kind.name ++ " cannot be rendered as a simple pattern"
  | .missingCount => "malformed attributes: at least pattern without count"
  | .unopenedScope => "malformed attributes: scope closed before it was opened"
  | .invalidExpression => "wrong regular expression: malformed or too large"
  | .usage fault => fault.message
  | .inputNotText => "stream did not contain valid UTF-8"

end Error

end Wildcard
