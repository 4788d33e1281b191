import Dipp.Library.BoundedBuffer

/-!
# The logger

Entries are formatted into a static buffer, which all loggers share, and written to the
file of a logger when it is flushed. A null logger, or one without a file, is passed over
by every function. Nothing compares the count of entries with the size of the buffer.
-/

namespace Dipp

open BoundedBuffer

/-- The levels of the logger. -/
inductive LogLevel where
  | debug
  | info
  | warning
  | error
  | critical
  deriving DecidableEq, Repr

/-- The name of a level in an entry. -/
def levelToString : LogLevel → String
  | .debug => "DEBUG"
  | .info => "INFO"
  | .warning => "WARNING"
  | .error => "ERROR"
  | .critical => "CRITICAL"

/-- `MAX_LOG_LENGTH`, the size of a slot. -/
def maxLogLength : ℕ := 1024

/-- `BUFFER_SIZE`, the number of slots. -/
def bufferSize : ℕ := 10000

/-- The characters of an entry before its terminating zero. -/
abbrev LogLine := List Char

/-- Format an entry; what does not fit into its slot is cut off. -/
def formatEntry (timestamp : String) (level : LogLevel) (message : String) : LogLine :=
  ("[" ++ timestamp ++ "] " ++ levelToString level ++ ": " ++ message ++ "\n").toList.take
    (maxLogLength - 1)

/-- The buffer with what the flushes wrote, the console, and how often the clock was read. -/
structure LogState where
  log : Log LogLine bufferSize
  console : List LogLine
  ticks : ℕ

/-- The empty buffer of a new process. -/
def LogState.boot : LogState := ⟨⟨⟨fun _ => [], 0, Nat.zero_le _⟩, []⟩, [], 0⟩

variable (clock : ℕ → String)

/-- Log a message. It is an error to write behind the last slot. -/
def loggerLog (isOpen : Bool) (level : LogLevel) (message : String) (s : LogState) :
    Except Unit LogState :=
  if isOpen then
    match s.log.buffer.push (formatEntry (clock s.ticks) level message) with
    | none => .error ()
    | some buffer => .ok { s with log := { s.log with buffer := buffer }, ticks := s.ticks + 1 }
  else .ok s

/-- Log a message and print its entry. -/
def loggerLogPrint (isOpen : Bool) (level : LogLevel) (message : String) (s : LogState) :
    Except Unit LogState :=
  match loggerLog clock isOpen level message s with
  | .error e => .error e
  | .ok logged =>
    if isOpen then
      .ok { logged with
        console := logged.console ++ [formatEntry (clock s.ticks) level message] }
    else .ok logged

/-- Write the entries to the file and empty the buffer. -/
def loggerFlush (isOpen : Bool) (s : LogState) : LogState :=
  if isOpen then
    { s with log := ⟨s.log.buffer.clear, s.log.written ++ [s.log.buffer.contents]⟩ }
  else s

/-- A call of the logger. -/
inductive LogCall where
  | log (level : LogLevel) (message : String)
  | logPrint (level : LogLevel) (message : String)
  | flush
  deriving DecidableEq, Repr

/-- What the calls with an open logger ask of the buffer. -/
def logOperations : (ticks : ℕ) → List (Bool × LogCall) → List (Operation LogLine)
  | _, [] => []
  | ticks, (false, _) :: rest => logOperations ticks rest
  | ticks, (true, .log level message) :: rest
  | ticks, (true, .logPrint level message) :: rest =>
    .push (formatEntry (clock ticks) level message) :: logOperations (ticks + 1) rest
  | ticks, (true, .flush) :: rest => .flush :: logOperations ticks rest

variable {clock}

end Dipp
