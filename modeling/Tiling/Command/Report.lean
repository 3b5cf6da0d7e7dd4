import Tiling.Command.Outcome
import Tiling.Text.Message

/-!
What is said of a program that did not end well, and the code with which it exits.
-/

namespace Tiling.Command

namespace UsageError

def message : UsageError → String
  | help => "options are given as --name, --name value, --name=value or by their letters"
  | version => "1.0"
  | missingOption => "an option that must be given is missing"
  | missingValue => "an option lacks its value"
  | invalidValue => "the value of an option is not of the right kind"
  | unknownArgument => "an argument is not known"
  | repeatedOption => "an option is given twice"
  | needlessValue => "an option that takes no value has one"

/-- Asking for help or the version is no mistake. -/
def code : UsageError → UInt32
  | help | version => 0
  | _ => 2

end UsageError

namespace Failing

variable {σ : Type} [Label σ]

def message : Failing σ → String
  | usage reason => reason.message
  | load path reason =>
    let cause := match reason with
      | .notText => "the file is not text"
      | .invalid reason => reason.message.getD "the text is not a catalog"
    reason.context path ++ ": " ++ cause
  | turn reason => reason.message
  | catalog reason => reason.message
  | problem reason => reason.message
  | search reason => reason.message
  | overrun => "the search did not end within its bound"
  | fault reason => reason.message

def code : Failing σ → UInt32
  | usage reason => reason.code
  | _ => 1

end Failing

end Tiling.Command
