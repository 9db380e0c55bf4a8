import TypedParams.Journal.Logging
import TypedParams.Journal.QueryId
import TypedParams.Parameters.Wire

/-! The journal: logging and the query id, together with the operations that report to it. -/
namespace TypedParams

structure Record where
  level : Nat
  logger : String
  queryId : String
  message : String
  deriving DecidableEq

/-- Text padded with spaces on the right. -/
def padRight (width : Nat) (s : String) : String :=
  s ++ String.ofList (List.replicate (width - s.length) ' ')

/-- A record as the handler writes it. -/
def Record.line (r : Record) (time : String) : String :=
  time ++ " | " ++ padRight 8 (Level.nameOf r.level) ++ " | " ++ r.logger ++ " | query=" ++
    r.queryId ++ " | " ++ r.message

structure Journal where
  logging : Logging
  scope : QueryScope

namespace Journal

def start : Journal := ⟨.start, .start⟩

/-- The records of events, under the id in force. -/
def records (j : Journal) (events : List Event) : List Record :=
  events.map fun e => ⟨Level.debug, e.origin, j.scope.current, e.message⟩

/-- The records that the library's handler writes. -/
def visible (j : Journal) (rs : List Record) : List Record :=
  rs.filter fun r => j.logging.effectiveLevel ≤ r.level &&
    j.logging.handlers.any fun h => h.isOwn && h.level ≤ r.level

/-- What a call leaves: the journal, the records it made, and its result. -/
structure Outcome (α : Type) where
  journal : Journal
  records : List Record
  result : Except Error α

/-- Run a call under a query id of its own, and put the surrounding id back whatever happens. -/
def within (j : Journal) (id : Option String) (call : Traced α) : Outcome α :=
  let (scope, token) := j.scope.push id
  let inner : Journal := { j with scope := scope }
  let rs := inner.records call.events
  match scope.reset token with
  | .ok scope => ⟨{ j with scope := scope }, rs, call.result⟩
  | .error e => ⟨inner, rs, .error e⟩

def toWire (j : Journal) (id : Option String) (p : Parameters) : Outcome (List (Document Value)) :=
  j.within id p.toWireTraced

def ofWire (j : Journal) (r : Registry) (id : Option String) (documents : Value) :
    Outcome Parameters :=
  j.within id (Parameters.ofWireTraced r documents)

/-- A record that an application makes through a logger of the library. -/
def record (j : Journal) (name : String) (level : Nat) (message : String) : Record :=
  ⟨level, Logging.loggerName name, j.scope.current, message⟩

end Journal
end TypedParams
