import Mathlib.Data.List.Basic
import TypedParams.Journal.Session

/-! Query ids as scopes. Main statement: pushes and resets that are nested put ids in force as
lexical scopes do, whatever the calls between them do and however these end. -/
namespace TypedParams

namespace QueryScope

/-- An id where one is given, and else the surrounding one. -/
def idOr (surrounding : String) : Option String → String
  | none | some "" => surrounding
  | some id => id

def isGiven : Option String → Bool
  | none | some "" => false
  | some _ => true

/-- An id that is given is in force and leaves a token for the one before; another changes nothing.
-/
theorem push_cases (s : QueryScope) (id : Option String) :
    isGiven id = false ∧ idOr s.current id = s.current ∧ s.push id = (s, none) ∨
      isGiven id = true ∧ s.push id =
        (⟨idOr s.current id, s.tokens ++ [some s.current]⟩, some s.tokens.length) := by
  cases id with
  | none => exact .inl ⟨rfl, rfl, rfl⟩
  | some id =>
    by_cases hempty : id = ""
    · subst hempty
      exact .inl ⟨rfl, rfl, rfl⟩
    · right
      simp [isGiven, idOr, push]

theorem current_push (s : QueryScope) (id : Option String) :
    (s.push id).1.current = idOr s.current id := by
  obtain ⟨-, hid, hpush⟩ | ⟨-, hpush⟩ := s.push_cases id
  · rw [hpush, hid]
  · rw [hpush]

theorem isSome_token_push (s : QueryScope) (id : Option String) :
    (s.push id).2.isSome = isGiven id := by
  obtain ⟨hgiven, -, hpush⟩ | ⟨hgiven, hpush⟩ := s.push_cases id
  · rw [hpush, hgiven]
    rfl
  · rw [hpush, hgiven]
    rfl

theorem prefix_set {as bs : List α} (h : as <+: bs) {i : Nat} (hi : as.length ≤ i) (a : α) :
    as <+: bs.set i a := by
  obtain ⟨cs, rfl⟩ := h
  rw [List.set_append_right _ _ hi]
  exact List.prefix_append _ _

/-- Where the id of a push is in force and its token is not spent, the token puts back what was in
force before, and spends no earlier one. -/
theorem exists_reset_push {s t : QueryScope} {id : Option String}
    (hcurrent : t.current = (s.push id).1.current) (htokens : (s.push id).1.tokens <+: t.tokens) :
    ∃ u, t.reset (s.push id).2 = .ok u ∧ u.current = s.current ∧ s.tokens <+: u.tokens := by
  obtain ⟨-, -, hpush⟩ | ⟨-, hpush⟩ := s.push_cases id
  · rw [hpush] at hcurrent htokens
    rw [hpush]
    exact ⟨t, rfl, hcurrent, htokens⟩
  · rw [hpush] at htokens
    rw [hpush]
    have hearlier : s.tokens <+: t.tokens := (List.prefix_append _ _).trans htokens
    have htoken : t.tokens[s.tokens.length]? = some (some s.current) := by
      obtain ⟨rest, hrest⟩ := htokens
      rw [← hrest]
      simp
    refine ⟨⟨s.current, t.tokens.set s.tokens.length none⟩, ?_, rfl,
      prefix_set hearlier (Nat.le_refl _) none⟩
    rw [reset, htoken]

end QueryScope

open QueryScope (idOr isGiven)

/-- A record of an event under an id. -/
def Event.record (id : String) (e : Event) : Record := ⟨Level.debug, e.origin, id, e.message⟩

namespace Journal

/-- A call under an id of its own puts the surrounding one back, also where it is refused: its
result is that of the call, and all its records are under its id. -/
theorem within_eq (j : Journal) (id : Option String) (call : Traced α) :
    ∃ scope : QueryScope, j.within id call =
        ⟨{ j with scope := scope }, call.events.map (Event.record (idOr j.scope.current id)),
          call.result⟩ ∧
      scope.current = j.scope.current ∧ j.scope.tokens <+: scope.tokens := by
  -- nothing happens to the scope between the push and the reset
  obtain ⟨scope, hreset, hcurrent, htokens⟩ :=
    QueryScope.exists_reset_push (s := j.scope) rfl (List.prefix_refl (j.scope.push id).1.tokens)
  refine ⟨scope, ?_, hcurrent, htokens⟩
  have hid := j.scope.current_push id
  unfold within
  simp only [hreset, records, hid]
  rfl

namespace Call

/-- What is to be seen of a call under a surrounding id. -/
def effectUnder (r : Registry) (surrounding : String) : Call → Effect
  | .emit name level message =>
    ⟨[⟨level, Logging.loggerName name, surrounding, message⟩], .ok .nothing⟩
  | .toWire id p =>
    ⟨p.toWireTraced.events.map (Event.record (idOr surrounding id)), p.toWire.map .documents⟩
  | .ofWire id documents =>
    ⟨(Parameters.ofWireTraced r documents).events.map (Event.record (idOr surrounding id)),
      (Parameters.ofWire r documents).map .parameters⟩

/-- The id that a call is given. -/
def id? : Call → Option String
  | .emit _ _ _ => none
  | .toWire id _ | .ofWire id _ => id

theorem queryId_of_effectUnder {r : Registry} {surrounding : String} {c : Call} {rec : Record}
    (h : rec ∈ (c.effectUnder r surrounding).records) : rec.queryId = idOr surrounding c.id? := by
  cases c with
  | emit name level message =>
    rw [List.mem_singleton.1 h]
    rfl
  | toWire id p =>
    obtain ⟨e, -, rfl⟩ := List.mem_map.1 h
    rfl
  | ofWire id documents =>
    obtain ⟨e, -, rfl⟩ := List.mem_map.1 h
    rfl

end Call
end Journal

namespace Session
open Journal (Effect Call)

/-- A later session with the id in force as it was, and with all earlier tokens as they were. -/
structure Restores (s t : Session) : Prop where
  current : t.current = s.current
  logging : t.journal.logging = s.journal.logging
  tokens : s.journal.scope.tokens <+: t.journal.scope.tokens
  held : s.held <+: t.held

theorem Restores.refl (s : Session) : s.Restores s :=
  ⟨rfl, rfl, List.prefix_refl _, List.prefix_refl _⟩

theorem Restores.trans {s t u : Session} (h : s.Restores t) (h' : t.Restores u) : s.Restores u :=
  ⟨h'.current.trans h.current, h'.logging.trans h.logging, h.tokens.trans h'.tokens,
    h.held.trans h'.held⟩

theorem step_call (r : Registry) (s : Session) (c : Call) :
    ∃ t, s.step r (.call c) = (t, c.effectUnder r s.current) ∧ s.Restores t ∧ t.held = s.held := by
  cases c with
  | emit name level message => exact ⟨s, rfl, .refl s, rfl⟩
  | toWire id p =>
    obtain ⟨scope, hwithin, hcurrent, htokens⟩ := s.journal.within_eq id p.toWireTraced
    refine ⟨{ s with journal.scope := scope }, ?_,
      ⟨hcurrent, rfl, htokens, List.prefix_refl _⟩, rfl⟩
    simp only [step, Journal.perform, Journal.toWire, hwithin]
    rfl
  | ofWire id documents =>
    obtain ⟨scope, hwithin, hcurrent, htokens⟩ :=
      s.journal.within_eq id (Parameters.ofWireTraced r documents)
    refine ⟨{ s with journal.scope := scope }, ?_,
      ⟨hcurrent, rfl, htokens, List.prefix_refl _⟩, rfl⟩
    simp only [step, Journal.perform, Journal.ofWire, hwithin]
    rfl

/-- The session after a push. -/
def pushed (s : Session) (id : Option String) : Session :=
  ⟨{ s.journal with scope := (s.journal.scope.push id).1 }, s.held ++ [(s.journal.scope.push id).2]⟩

theorem step_push (r : Registry) (s : Session) (id : Option String) :
    s.step r (.push id) = (s.pushed id, ⟨[], .ok (.token (isGiven id))⟩) := by
  rw [← s.journal.scope.isSome_token_push id]
  rfl

theorem current_pushed (s : Session) (id : Option String) :
    (s.pushed id).current = idOr s.current id := s.journal.scope.current_push id

theorem length_held_pushed (s : Session) (id : Option String) :
    (s.pushed id).held.length = s.held.length + 1 := List.length_append

/-- The reset that belongs to a push, when what came between has kept its token. -/
theorem exists_step_reset (r : Registry) {s t : Session} {id : Option String}
    (h : (s.pushed id).Restores t) :
    ∃ u, t.step r (.reset s.held.length) = (u, ⟨[], .ok .nothing⟩) ∧ s.Restores u ∧
      u.held = t.held := by
  have htoken : t.held[s.held.length]? = some (s.journal.scope.push id).2 := by
    obtain ⟨later, hlater⟩ := h.held
    rw [← hlater]
    simp [pushed]
  obtain ⟨scope, hreset, hcurrent, htokens⟩ := QueryScope.exists_reset_push h.current h.tokens
  refine ⟨{ t with journal.scope := scope }, ?_,
    ⟨hcurrent, h.logging, htokens, (List.prefix_append _ _).trans h.held⟩, rfl⟩
  simp only [step, htoken, Option.join_some, hreset]
  rfl

theorem run_append (r : Registry) (s : Session) (as bs : List Step) :
    s.run r (as ++ bs) =
      (((s.run r as).1.run r bs).1, (s.run r as).2 ++ ((s.run r as).1.run r bs).2) := by
  induction as generalizing s with
  | nil => rfl
  | cons a as ih =>
    simp only [List.cons_append, run, ih]

/-- Steps that are nested: calls, and pairs of a push and a reset with such steps between them. -/
inductive Part where
  | nil
  | call (c : Call) (rest : Part)
  | under (id : Option String) (inside rest : Part)

namespace Part

def pushes : Part → Nat
  | nil => 0
  | call _ rest => rest.pushes
  | under _ inside rest => inside.pushes + 1 + rest.pushes

/-- The steps after `n` pushes. Each reset is given the token of its own push. -/
def steps (n : Nat) : Part → List Step
  | nil => []
  | call c rest => .call c :: rest.steps n
  | under id inside rest =>
    .push id :: (inside.steps (n + 1) ++ .reset n :: rest.steps (n + (inside.pushes + 1)))

/-- What is to be seen of the steps, each under the id of the innermost pair around it that has one.
-/
def effects (r : Registry) (surrounding : String) : Part → List Effect
  | nil => []
  | call c rest => c.effectUnder r surrounding :: rest.effects r surrounding
  | under id inside rest =>
    ⟨[], .ok (.token (isGiven id))⟩ :: (inside.effects r (idOr surrounding id) ++
      ⟨[], .ok .nothing⟩ :: rest.effects r surrounding)

end Part

theorem exists_run_part (r : Registry) (s : Session) (part : Part) :
    ∃ t, s.run r (part.steps s.held.length) = (t, part.effects r s.current) ∧ s.Restores t ∧
      t.held.length = s.held.length + part.pushes := by
  induction part generalizing s with
  | nil => exact ⟨s, rfl, .refl s, rfl⟩
  | call c rest ih =>
    obtain ⟨t, hstep, hrestores, hheld⟩ := s.step_call r c
    obtain ⟨u, hrun, hrestores', hlength⟩ := ih t
    refine ⟨u, ?_, hrestores.trans hrestores', ?_⟩
    · rw [hheld, hrestores.current] at hrun
      simp only [Part.steps, run, hstep, hrun, Part.effects]
    · rw [hlength, hheld]
      rfl
  | under id inside rest ihInside ihRest =>
    obtain ⟨t, hinside, hrestores, hlength⟩ := ihInside (s.pushed id)
    rw [length_held_pushed, current_pushed] at hinside
    obtain ⟨u, hreset, hrestores', hheld⟩ := exists_step_reset r hrestores
    have hlength' : u.held.length = s.held.length + (inside.pushes + 1) := by
      rw [hheld, hlength, length_held_pushed, Nat.add_right_comm]
      rfl
    obtain ⟨v, hrest, hrestores'', hlength''⟩ := ihRest u
    rw [hlength', hrestores'.current] at hrest
    refine ⟨v, ?_, hrestores'.trans hrestores'', ?_⟩
    · simp only [Part.steps, run, run_append, step_push, hinside, hreset, hrest, Part.effects]
    · rw [hlength'', hlength']
      exact Nat.add_assoc _ _ _

/-- Nested steps leave the id in force as it was, and of each is seen what lexical scoping gives it:
a call has the result it has by itself, refusals included, and its records are under its own id if
it is given one, and else under that of the innermost pair around it that has one. -/
theorem run_part (r : Registry) (s : Session) (part : Part) :
    (s.run r (part.steps s.held.length)).1.current = s.current ∧
    (s.run r (part.steps s.held.length)).2 = part.effects r s.current ∧
    ∀ c : Call, (s.step r (.call c)).1.current = s.current ∧
      ∀ rec ∈ (s.step r (.call c)).2.records, rec.queryId = idOr s.current c.id? := by
  obtain ⟨t, hrun, hrestores, -⟩ := s.exists_run_part r part
  rw [hrun]
  refine ⟨hrestores.current, rfl, ?_⟩
  intro c
  obtain ⟨u, hstep, hcall, -⟩ := s.step_call r c
  rw [hstep]
  exact ⟨hcall.current, fun rec => Call.queryId_of_effectUnder⟩

/-- An array document, and behind it something that is no document. -/
def arrayBeforeNull : Value :=
  .list [.mapping [(.str "name", .str "xs"),
      (.str "parameter_type", .mapping [(.str "type", .str "ARRAY"),
        (.str "element_type", .mapping [(.str "type", .str "INT64")])]),
      (.str "parameter_value", .list [.str "1"] none)],
    .null] none

/-- The array is reported before the refusal. -/
example :
    let part := Part.under (some "q-1")
      (.call (.ofWire none arrayBeforeNull) (.call (.ofWire (some "q-2") arrayBeforeNull) .nil))
      (.call (.emit "app" Level.info "done") .nil)
    ((start.run .builtIn (part.steps 0)).2.flatMap (·.records)).map (·.queryId) =
      ["q-1", "q-2", "-"] := by decide

end Session
end TypedParams
