/-!
# Phases

What the controller is doing, as it tells those who watch it.
-/

namespace ProxyKeeper

/-- What the controller is doing. -/
inductive Phase where
  /-- No operation is under way. -/
  | idle
  /-- Rule files are written or removed. -/
  | writing
  /-- nginx checks the configuration. -/
  | testing
  /-- nginx takes up the configuration. -/
  | applying
  /-- Rule files are put back. -/
  | rollingBack
deriving DecidableEq, Inhabited

namespace Phase

/-- The phases in the order of an operation. -/
def all : List Phase :=
  [.idle, .writing, .testing, .applying, .rollingBack]

/-- The name of a phase. -/
def name : Phase → String
  | .idle => "idle"
  | .writing => "writing"
  | .testing => "testing"
  | .applying => "applying"
  | .rollingBack => "rolling_back"

end Phase

end ProxyKeeper
