/-
What the machine reports about itself while it runs: notices of five
severities, of which the user chooses to see some.
-/
import AmstradCpc.Text.Terminal

namespace AmstradCpc

/-- From the gravest to the most detailed. -/
inductive Severity where
  | error
  | warn
  | info
  | debug
  | trace
  deriving DecidableEq, Repr, Inhabited

namespace Severity

def rank : Severity → Nat
  | .error => 1
  | .warn => 2
  | .info => 3
  | .debug => 4
  | .trace => 5

def name : Severity → String
  | .error => "ERROR"
  | .warn => "WARN"
  | .info => "INFO"
  | .debug => "DEBUG"
  | .trace => "TRACE"

end Severity

/-- The part of the program that a notice is about. -/
inductive Topic where
  | program
  | config
  | machine
  | bus
  | pager
  | frame
  | drives
  | timer
  deriving DecidableEq, Repr, Inhabited

/-- The name that filters know a topic by. All begin with that of the program. -/
def Topic.path : Topic → String
  | .program => "emu_cpc"
  | .config => "emu_cpc::config"
  | .machine => "emu_cpc::cpc"
  | .bus => "emu_cpc::bus"
  | .pager => "emu_cpc::pager"
  | .frame => "emu_cpc::frame"
  | .drives => "emu_cpc::fdc"
  | .timer => "emu_cpc::timer"

structure Notice where
  severity : Severity
  topic : Topic
  text : String
  deriving DecidableEq, Repr, Inhabited

/-- Notices in the order in which they were made. -/
abbrev Journal := Array Notice

namespace Notice

/-- The notice is at least as grave as the limit; without a limit none is shown. -/
def shown (limit : Option Severity) (n : Notice) : Bool :=
  match limit with
  | some most => n.severity.rank ≤ most.rank
  | none => false

/-- The text as it is shown. Its lines but the first are moved to the right, so
that none can be taken for another notice. -/
def shownText (n : Notice) : String := Text.withoutControls (Text.indented 4 n.text)

end Notice

end AmstradCpc
