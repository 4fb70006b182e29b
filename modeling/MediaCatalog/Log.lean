/-!
The log: what a program reports while it works.
-/

namespace MediaCatalog

inductive LogLevel where
  | info
  | warning
  | error
deriving DecidableEq

namespace LogLevel

def name : LogLevel → String
  | info => "INFO"
  | warning => "WARNING"
  | error => "ERROR"

end LogLevel

structure LogEntry where
  level : LogLevel
  message : String
deriving DecidableEq

namespace LogEntry

def info (message : String) : LogEntry :=
  ⟨.info, message⟩

def warning (message : String) : LogEntry :=
  ⟨.warning, message⟩

def error (message : String) : LogEntry :=
  ⟨.error, message⟩

def written (entry : LogEntry) : String :=
  "[" ++ entry.level.name ++ "] " ++ entry.message

end LogEntry

end MediaCatalog
