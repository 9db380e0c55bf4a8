import TypedParams.Error
import TypedParams.Text.Uppercase

/-! Levels, loggers and handlers. -/
namespace TypedParams

namespace Level

def names : List (String × Nat) :=
  [("CRITICAL", 50), ("FATAL", 50), ("ERROR", 40), ("WARN", 30), ("WARNING", 30), ("INFO", 20),
   ("DEBUG", 10), ("NOTSET", 0)]

def info : Nat := 20

/-- The level in force where none is set. -/
def warning : Nat := 30

def debug : Nat := 10

/-- The level a name asks for, in any letter case. Two names belong to other things, which are
refused; a name of nothing means INFO. -/
def ofName (name : String) : Except Error Nat :=
  let name := Text.upper name
  match names.lookup name with
  | some n => .ok n
  | none =>
    if name = "BASIC_FORMAT" then .error .badLevel
    else if name = "_STYLES" then .error .levelNotNumber
    else .ok info

/-- The name a level is shown under. -/
def nameOf (n : Nat) : String :=
  match n with
  | 50 => "CRITICAL"
  | 40 => "ERROR"
  | 30 => "WARNING"
  | 20 => "INFO"
  | 10 => "DEBUG"
  | 0 => "NOTSET"
  | n => "Level " ++ toString n

end Level

/-- What a handler asks about a record before it writes it. -/
inductive Filter where
  /-- The library's own, which gives the record the query id in force. -/
  | queryId
  | foreign (id : Nat)
  deriving DecidableEq

/-- Where a handler writes to. -/
inductive Target where
  /-- The standard output. -/
  | output
  /-- Another stream, or a file. -/
  | stream (id : Nat)
  | other (id : Nat)
  deriving DecidableEq

def Target.isStream : Target → Bool
  | output | stream _ => true
  | other _ => false

/-- A handler on the root logger, which passes over records below its level. -/
structure Handler where
  target : Target
  level : Nat
  filters : List Filter
  deriving DecidableEq

namespace Handler

/-- The handler that the library attaches. -/
def own : Handler := ⟨.output, Level.debug, [.queryId]⟩

/-- Whether the library takes a handler for its own: it writes to a stream, under the library's
filter. -/
def isOwn (h : Handler) : Bool := h.target.isStream && h.filters.contains .queryId

end Handler

/-- The level of the library's loggers, zero where none is set, and the handlers of the root. -/
structure Logging where
  level : Nat
  handlers : List Handler

namespace Logging

def start : Logging := ⟨0, []⟩

def namespaceName : String := "parambricks"

def ownHandlers (l : Logging) : Nat := l.handlers.countP (·.isOwn)

/-- Set the level, and attach the library's handler if it is not there yet. -/
def setUp (l : Logging) (level : Nat) : Logging :=
  ⟨level, if l.handlers.any (·.isOwn) then l.handlers else l.handlers ++ [.own]⟩

def configure (l : Logging) (level : String) : Except Error Logging :=
  (Level.ofName level).map l.setUp

/-- Logger names all lie in the library's namespace. -/
def loggerName (name : String) : String :=
  if name = namespaceName ∨ (namespaceName ++ ".").toList.isPrefixOf name.toList then name
  else namespaceName ++ "." ++ name

/-- A logger's name, after configuring if a level is given. -/
def getLogger (l : Logging) (name : String) (level : Option String) :
    Except Error (Logging × String) := do
  let l ← match level with
    | some level => l.configure level
    | none => .ok l
  .ok (l, loggerName name)

def effectiveLevel (l : Logging) : Nat := if l.level = 0 then Level.warning else l.level

end Logging
end TypedParams
