import TypedParams.Journal.Basic

/-! What an application does with the journal, step by step. -/
namespace TypedParams

namespace Journal

/-- Work that is done under the query id in force; the operations may be given one of their own. -/
inductive Call where
  | emit (name : String) (level : Nat) (message : String)
  | toWire (id : Option String) (p : Parameters)
  | ofWire (id : Option String) (documents : Value)

inductive Answer where
  | nothing
  | logger (name : String)
  | token (given : Bool)
  | documents (ds : List (Document Value))
  | parameters (p : Parameters)

/-- What is seen of a step: the records it made, and its answer or refusal. -/
structure Effect where
  records : List Record
  result : Except Error Answer

def Outcome.seen (o : Outcome α) (f : α → Answer) : Journal × Effect :=
  (o.journal, ⟨o.records, o.result.map f⟩)

def perform (r : Registry) (j : Journal) : Call → Journal × Effect
  | .emit name level message => (j, ⟨[j.record name level message], .ok .nothing⟩)
  | .toWire id p => (j.toWire id p).seen .documents
  | .ofWire id documents => (j.ofWire r id documents).seen .parameters

end Journal

/-- A journal, and for each push so far the token it handed out, if any. -/
structure Session where
  journal : Journal
  held : List (Option Nat)

namespace Session
open Journal (Effect)

inductive Step where
  | configure (level : String)
  | getLogger (name : String) (level : Option String)
  | push (id : Option String)
  /-- With the token of the push of the given number, counted from zero. -/
  | reset (push : Nat)
  | call (c : Journal.Call)

def start : Session := ⟨.start, []⟩

def current (s : Session) : String := s.journal.scope.current

/-- A step without records that is refused as a whole. -/
def attempt (s : Session) (result : Except Error (Session × Journal.Answer)) : Session × Effect :=
  match result with
  | .ok (t, a) => (t, ⟨[], .ok a⟩)
  | .error e => (s, ⟨[], .error e⟩)

def step (r : Registry) (s : Session) : Step → Session × Effect
  | .configure level =>
    s.attempt <| (s.journal.logging.configure level).map fun l =>
      ({ s with journal.logging := l }, .nothing)
  | .getLogger name level =>
    s.attempt <| (s.journal.logging.getLogger name level).map fun p =>
      ({ s with journal.logging := p.1 }, .logger p.2)
  | .push id =>
    let (scope, token) := s.journal.scope.push id
    (⟨{ s.journal with scope := scope }, s.held ++ [token]⟩, ⟨[], .ok (.token token.isSome)⟩)
  | .reset push =>
    s.attempt <| (s.journal.scope.reset (s.held[push]?).join).map fun scope =>
      ({ s with journal.scope := scope }, .nothing)
  | .call c =>
    let (journal, effect) := s.journal.perform r c
    ({ s with journal := journal }, effect)

/-- What steps leave, and what is seen of each. -/
def run (r : Registry) (s : Session) : List Step → Session × List Effect
  | [] => (s, [])
  | st :: sts =>
    let (t, e) := s.step r st
    let (u, es) := t.run r sts
    (u, e :: es)

end Session
end TypedParams
