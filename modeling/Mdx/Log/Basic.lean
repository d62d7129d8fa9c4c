
import Mdx.Fault.Failure

/-!
# Logs

A log keeps the records whose level is at least its threshold. Levels are ordered by rank, and the
threshold may be any number, so that it can lie between two levels.

The threshold may be asked for by rank or by the name of a level. Rank zero asks for none in
particular, and then the log keeps warnings and what is more serious.
-/

namespace Mdx

/-- The level of a record. -/
inductive Level where
  | debug
  | info
  | success
  | warning
  | error
deriving DecidableEq, Repr, Inhabited

namespace Level

/-- The rank of a level. -/
def rank : Level → Int
  | .debug => 10
  | .info => 20
  | .success => 25
  | .warning => 30
  | .error => 40

/-- The name of a level. -/
def name : Level → String
  | .debug => "DEBUG"
  | .info => "INFO"
  | .success => "SUCCESS"
  | .warning => "WARNING"
  | .error => "ERROR"

end Level

/-- A line of a log. -/
structure LogRecord where
  level : Level
  text : String
deriving DecidableEq, Repr, Inhabited

/-- The records so far, and the rank that a record needs to be kept. -/
structure Log where
  threshold : Int := Level.info.rank
  records : List LogRecord := []
deriving Inhabited

namespace Log

/-- Whether records of a level are kept. -/
def admits (log : Log) (level : Level) : Bool :=
  log.threshold ≤ level.rank

/-- Adds a record if its level is admitted. -/
def add (log : Log) (level : Level) (text : String) : Log :=
  if log.admits level then { log with records := log.records ++ [⟨level, text⟩] } else log

end Log

namespace Log

/-- The ranks of the levels that a threshold can be named by. -/
def namedRanks : List (String × Int) :=
  [("CRITICAL", 50), ("FATAL", 50), ("ERROR", Level.error.rank), ("WARN", Level.warning.rank),
    ("WARNING", Level.warning.rank), ("SUCCESS", Level.success.rank), ("INFO", Level.info.rank),
    ("DEBUG", Level.debug.rank), ("NOTSET", 0)]

/-- The threshold that a rank asks for. -/
def thresholdOfRank (rank : Int) : Int :=
  if rank = 0 then Level.warning.rank else rank

/-- The threshold that a value asks for. -/
def thresholdOf : Json → Except Failure Int
  | .int rank => .ok (thresholdOfRank rank)
  | .bool b => .ok (thresholdOfRank (if b then 1 else 0))
  | .str name =>
      match namedRanks.lookup name with
      | some rank => .ok (thresholdOfRank rank)
      | none => .error (.badValue ("Unknown level: " ++ Text.quotedString name))
  | v => .error (.badKind ("Level not an integer or a valid string: " ++ v.display))

end Log

end Mdx
