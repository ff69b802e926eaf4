/-!
# Logs

A log is the list of its records, oldest first.  A record keeps the text of its cause apart from the message; `inlined`
is the form for a sink that only takes messages.
-/

namespace Metamodel

inductive LogLevel where
  | debug | info | warn | error
deriving DecidableEq

def LogLevel.name : LogLevel → String
  | debug => "Debug"
  | info => "Info"
  | warn => "Warn"
  | error => "Error"

def LogLevel.all : List LogLevel :=
  [debug, info, warn, error]

structure LogRecord where
  level : LogLevel
  message : String
  cause : Option String := none
deriving DecidableEq

/-- The record with its cause at the end of the message. -/
def LogRecord.inlined (r : LogRecord) : LogRecord :=
  match r.cause with
  | none => r
  | some cause => { r with message := r.message ++ ": " ++ cause, cause := none }

abbrev Log := List LogRecord

/-- The messages of one level. -/
def Log.messages (log : Log) (level : LogLevel) : List String :=
  (log.filter (·.level == level)).map (·.message)

end Metamodel
