import ProxyKeeper.Text.Blank
import ProxyKeeper.Text.Utf8

/-!
# The outcome of a command

What a command that ran to its end left: how it ended, and what it wrote. nginx writes its
diagnostics to the error output, so that is what a report quotes.

## Main Definitions

* `Output`: the outcomes; `Output.ofStatus` reads the status word of a process.
* `Output.diagnostic`: what a report quotes.
-/

namespace ProxyKeeper.Nginx

/-- The outcome of a command. -/
structure Output where
  success : Bool := false
  /-- Absent when a signal ended the command. -/
  exitCode : Option Int := none
  stdout : String := ""
  stderr : String := ""
deriving DecidableEq, Inhabited

namespace Output

/-- The exit code in the status word of a process: its second byte, when the low seven bits name
no signal. -/
def exitCodeOf? (status : Int) : Option Int :=
  if status % 128 = 0 then some (status / 256 % 256) else none

/-- The outcome of a process with the given status word and output. -/
def ofStatus (status : Int) (stdout stderr : ByteArray) : Output where
  success := status = 0
  exitCode := exitCodeOf? status
  stdout := Text.Utf8.lossy stdout
  stderr := Text.Utf8.lossy stderr

/-- The error output, or the standard output when that is blank, without white space at its
end. -/
def diagnostic (output : Output) : String :=
  Text.trimEndString (if Text.isBlankString output.stderr then output.stdout else output.stderr)

end Output

end ProxyKeeper.Nginx
