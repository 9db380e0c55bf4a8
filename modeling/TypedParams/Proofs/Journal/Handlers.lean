import Mathlib.Data.List.Induction
import TypedParams.Proofs.Journal.Scoping
import TypedParams.Proofs.Success

/-! Setting up the journal again and again. Main statement: whatever is called and however often,
there is at most one handler of the library, behind those that were there, and the level is the last
one asked for. -/
namespace TypedParams

namespace Text

/-- The same letters, each of them in either case. -/
def LettersInAnyCase (us cs : List Char) : Prop :=
  List.Forall₂ (fun u c => c = u ∨ c = u.toLower) us cs

def InAnyCase (name s : String) : Prop := LettersInAnyCase name.toList s.toList

def capitals : List Char := "ABCDEFGHIJKLMNOPQRSTUVWXYZ".toList

theorem upperChar_of_mem_capitals {u : Char} (h : u ∈ capitals) :
    upperChar u = [u] ∧ upperChar u.toLower = [u] := by
  have hall : capitals.all (fun u => upperChar u == [u] && upperChar u.toLower == [u]) = true := by
    decide +kernel
  simpa using List.all_eq_true.1 hall u h

theorem LettersInAnyCase.flatMap_upperChar {us cs : List Char} (h : LettersInAnyCase us cs)
    (hus : ∀ u ∈ us, u ∈ capitals) : cs.flatMap upperChar = us := by
  induction h with
  | nil => rfl
  | @cons u c us cs hcase _ ih =>
    obtain ⟨hu, hus⟩ := List.forall_mem_cons.1 hus
    obtain ⟨hupper, hlower⟩ := upperChar_of_mem_capitals hu
    have hc : upperChar c = [u] := by
      rcases hcase with rfl | rfl
      · exact hupper
      · exact hlower
    rw [List.flatMap_cons, hc, ih hus, List.singleton_append]

/-- A name in capitals is the upper case of itself in any letter case. -/
theorem InAnyCase.upper_eq {name s : String} (h : InAnyCase name s)
    (hname : ∀ u ∈ name.toList, u ∈ capitals) : upper s = name := by
  rw [upper, LettersInAnyCase.flatMap_upperChar h hname, String.ofList_toList]

end Text

namespace Level

/-- Upper-case names of other things than levels. -/
def otherNames : List String := ["BASIC_FORMAT", "_STYLES"]

/-- The level that a name stands for: that of a level whose name it is, in any letter case, and INFO
if in upper case it is the name of nothing. -/
inductive Means : String → Nat → Prop
  | standard {standard name : String} {n : Nat} (hlevel : (standard, n) ∈ names)
      (hcase : Text.InAnyCase standard name) : Means name n
  | unknown {name : String} (hlevel : Text.upper name ∉ names.map (·.1))
      (hother : Text.upper name ∉ otherNames) : Means name info

theorem mem_capitals_of_mem_names {p : String × Nat} (h : p ∈ names) :
    ∀ u ∈ p.1.toList, u ∈ Text.capitals := by
  have hall : names.all (fun p => p.1.toList.all Text.capitals.contains) = true := by decide +kernel
  simpa using List.all_eq_true.1 hall p h

theorem upper_eq_standard {standard name : String} {n : Nat} (hlevel : (standard, n) ∈ names)
    (hcase : Text.InAnyCase standard name) : Text.upper name = standard :=
  hcase.upper_eq (mem_capitals_of_mem_names hlevel)

/-- Asking by a name gives the level that it stands for. -/
theorem Means.ofName {name : String} {n : Nat} (h : Means name n) : ofName name = .ok n := by
  cases h with
  | @standard standard _ _ hlevel hcase =>
    have hlookup : ∀ p ∈ names, names.lookup p.1 = some p.2 := by decide
    simp only [Level.ofName, upper_eq_standard hlevel hcase, hlookup _ hlevel]
  | unknown hlevel hother =>
    have hlookup : names.lookup (Text.upper name) = none := by
      rw [List.lookup_eq_none_iff]
      intro p hp
      rw [bne_iff_ne]
      intro heq
      exact hlevel (List.mem_map.2 ⟨p, hp, heq.symm⟩)
    simp only [otherNames, List.mem_pair, not_or] at hother
    simp only [Level.ofName, hlookup, hother.1, hother.2, if_false]

end Level

namespace Logging

theorem configure_cases (l : Logging) (level : String) :
    (∃ n, Level.ofName level = .ok n ∧ l.configure level = .ok (l.setUp n)) ∨
      ∃ e, Level.ofName level = .error e ∧ l.configure level = .error e := by
  unfold configure
  cases Level.ofName level with
  | ok n => exact .inl ⟨n, rfl, rfl⟩
  | error e => exact .inr ⟨e, rfl, rfl⟩

/-- The first level that is set attaches the handler, all later ones find it. -/
theorem foldl_setUp {l : Logging} (h : ∀ h ∈ l.handlers, h.isOwn = false) (levels : List Nat) :
    levels.foldl setUp l = ⟨levels.getLastD l.level,
      if levels = [] then l.handlers else l.handlers ++ [.own]⟩ := by
  have hforeign : l.handlers.any (·.isOwn) = false := by simpa using h
  have hown : Handler.own.isOwn = true := rfl
  induction levels using List.reverseRecOn with
  | nil => rfl
  | append_singleton levels level ih =>
    rw [List.foldl_concat, ih, setUp, List.getLastD_concat]
    by_cases hlevels : levels = []
    · simp [hlevels, hforeign]
    · simp [hlevels, hown]

/-- However often a level is set, there is one handler of the library then, behind the others. -/
theorem foldl_setUp_spec {l : Logging} (h : ∀ h ∈ l.handlers, h.isOwn = false) (levels : List Nat) :
    (levels.foldl setUp l).ownHandlers = (if levels = [] then 0 else 1) ∧
      (levels.foldl setUp l).handlers.filter (fun h => !h.isOwn) = l.handlers ∧
      (levels.foldl setUp l).level = levels.getLastD l.level := by
  have hown : Handler.own.isOwn = true := rfl
  have hnone : l.handlers.countP (·.isOwn) = 0 := by simpa [List.countP_eq_zero] using h
  have hall : l.handlers.filter (fun h => !h.isOwn) = l.handlers := by
    simpa [List.filter_eq_self] using h
  rw [foldl_setUp h]
  by_cases hlevels : levels = []
  · simp [ownHandlers, hlevels, hnone, hall]
  · simp [ownHandlers, hlevels, hnone, hall, hown]

/-- The names of the library's loggers. -/
def IsLoggerName (name : String) : Prop :=
  name = "parambricks" ∨ "parambricks.".toList <+: name.toList

theorem isLoggerName_loggerName (name : String) : IsLoggerName (loggerName name) := by
  unfold loggerName
  split_ifs with h
  · exact h.imp id List.isPrefixOf_iff_prefix.1
  · exact .inr ⟨name.toList, by simp [namespaceName]⟩

end Logging

namespace Session
open Journal (Effect)

namespace Step

/-- The level that a step sets. -/
def set? : Step → Option Nat
  | configure level => (Level.ofName level).toOption
  | getLogger _ level => level.bind fun name => (Level.ofName name).toOption
  | _ => none

/-- What a step asks of the level: that it be one, or nothing. -/
inductive Asks : Step → Option Nat → Prop
  | configure {level : String} {n : Nat} (h : Level.Means level n) : Asks (configure level) (some n)
  | getLogger (name : String) {level : String} {n : Nat} (h : Level.Means level n) :
      Asks (getLogger name (some level)) (some n)
  | getLoggerOnly (name : String) : Asks (getLogger name none) none
  | push (id : Option String) : Asks (push id) none
  | reset (i : Nat) : Asks (reset i) none
  | call (c : Journal.Call) : Asks (call c) none

theorem Asks.set?_eq {st : Step} {o : Option Nat} (h : st.Asks o) : st.set? = o := by
  cases h with
  | configure h => rw [set?, h.ofName]; rfl
  | getLogger name h => rw [set?, Option.bind_some, h.ofName]; rfl
  | _ => rfl

/-- No step is refused for a level that means something, and the loggers that are handed out all are
the library's. -/
def Answered : Step → Effect → Prop
  | configure level, e => (∃ n, Level.Means level n) → e.result = .ok .nothing
  | getLogger _ level, e => (∀ name ∈ level, ∃ n, Level.Means name n) →
      ∃ logger, e.result = .ok (.logger logger) ∧ Logging.IsLoggerName logger
  | _, _ => True

end Step

/-- The session after a level has been set. -/
def withLevel (s : Session) (level : Nat) : Session :=
  { s with journal.logging := s.journal.logging.setUp level }

theorem step_configure (r : Registry) (s : Session) (level : String) :
    (∃ n, Level.ofName level = .ok n ∧
      s.step r (.configure level) = (s.withLevel n, ⟨[], .ok .nothing⟩)) ∨
    ∃ e, Level.ofName level = .error e ∧ s.step r (.configure level) = (s, ⟨[], .error e⟩) := by
  obtain ⟨n, hn, hl⟩ | ⟨e, he, hl⟩ := s.journal.logging.configure_cases level
  · refine .inl ⟨n, hn, ?_⟩
    rw [step, hl]
    rfl
  · refine .inr ⟨e, he, ?_⟩
    rw [step, hl]
    rfl

theorem step_getLogger (r : Registry) (s : Session) (name level : String) :
    (∃ n, Level.ofName level = .ok n ∧ s.step r (.getLogger name (some level)) =
      (s.withLevel n, ⟨[], .ok (.logger (Logging.loggerName name))⟩)) ∨
    ∃ e, Level.ofName level = .error e ∧
      s.step r (.getLogger name (some level)) = (s, ⟨[], .error e⟩) := by
  obtain ⟨n, hn, hl⟩ | ⟨e, he, hl⟩ := s.journal.logging.configure_cases level
  · refine .inl ⟨n, hn, ?_⟩
    simp only [step, Logging.getLogger, hl]
    rfl
  · refine .inr ⟨e, he, ?_⟩
    simp only [step, Logging.getLogger, hl]
    rfl

/-- A step sets its level, and one that has none leaves the logging as it is. -/
theorem logging_step (r : Registry) (s : Session) (st : Step) :
    (s.step r st).1.journal.logging = st.set?.elim s.journal.logging s.journal.logging.setUp := by
  cases st with
  | configure level =>
    obtain ⟨n, hn, hstep⟩ | ⟨e, he, hstep⟩ := s.step_configure r level
    · rw [hstep, Step.set?, hn]
      rfl
    · rw [hstep, Step.set?, he]
      rfl
  | getLogger name level =>
    cases level with
    | none => rfl
    | some level =>
      obtain ⟨n, hn, hstep⟩ | ⟨e, he, hstep⟩ := s.step_getLogger r name level
      · rw [hstep, Step.set?, Option.bind_some, hn]
        rfl
      · rw [hstep, Step.set?, Option.bind_some, he]
        rfl
  | push id => rfl
  | reset push =>
    simp only [step, attempt]
    cases s.journal.scope.reset (s.held[push]?).join <;> rfl
  | call c =>
    obtain ⟨t, hstep, hrestores, -⟩ := s.step_call r c
    rw [hstep]
    exact hrestores.logging

theorem answered_step (r : Registry) (s : Session) (st : Step) : st.Answered (s.step r st).2 := by
  cases st with
  | configure level =>
    intro hlevel
    obtain ⟨n, hn⟩ := hlevel
    obtain ⟨n', -, hstep⟩ | ⟨e, he, -⟩ := s.step_configure r level
    · rw [hstep]
    · cases hn.ofName.symm.trans he
  | getLogger name level =>
    intro hlevel
    refine ⟨_, ?_, Logging.isLoggerName_loggerName name⟩
    cases level with
    | none => rfl
    | some level =>
      obtain ⟨n, hn⟩ := hlevel level rfl
      obtain ⟨n', -, hstep⟩ | ⟨e, he, -⟩ := s.step_getLogger r name level
      · rw [hstep]
      · cases hn.ofName.symm.trans he
  | push id => trivial
  | reset push => trivial
  | call c => trivial

theorem logging_run (r : Registry) (s : Session) (steps : List Step) :
    (s.run r steps).1.journal.logging =
      (steps.filterMap Step.set?).foldl Logging.setUp s.journal.logging := by
  induction steps generalizing s with
  | nil => rfl
  | cons st steps ih =>
    change ((s.step r st).1.run r steps).1.journal.logging = _
    rw [ih, s.logging_step r st, List.filterMap_cons]
    cases st.set? <;> rfl

theorem answered_run (r : Registry) (s : Session) (steps : List Step) :
    List.Forall₂ Step.Answered steps (s.run r steps).2 := by
  induction steps generalizing s with
  | nil => exact .nil
  | cons st steps ih => exact .cons (s.answered_step r st) (ih _)

theorem filterMap_set?_of_asks {steps : List Step} {asked : List (Option Nat)}
    (h : List.Forall₂ Step.Asks steps asked) : steps.filterMap Step.set? = asked.filterMap id := by
  induction h with
  | nil => rfl
  | cons hst _ ih => rw [List.filterMap_cons, List.filterMap_cons, ih, hst.set?_eq, id]

/-- Whatever is called, and however often: a root logger that has no handler of the library never
gets more than one, and the handlers that were there stay, in their order. A logger that is asked
for without a level changes nothing, no call is refused for a standard name in any letter case or a
name of nothing, and all loggers handed out are the library's. Where all levels are given by such
names, the first of them brings the handler, and the level is the last one asked for. -/
theorem run_setsUp_once (r : Registry) (s : Session)
    (hforeign : ∀ h ∈ s.journal.logging.handlers, h.isOwn = false) (steps : List Step) :
    let t := (s.run r steps).1
    (t.journal.logging.ownHandlers ≤ 1 ∧
      t.journal.logging.handlers.filter (fun h => !h.isOwn) = s.journal.logging.handlers ∧
      (∀ name, (t.step r (.getLogger name none)).1 = t) ∧
      List.Forall₂ Step.Answered steps (s.run r steps).2) ∧
    ∀ asked, List.Forall₂ Step.Asks steps asked →
      t.journal.logging.ownHandlers = (if asked.filterMap id = [] then 0 else 1) ∧
      t.journal.logging.level = (asked.filterMap id).getLastD s.journal.logging.level := by
  intro t
  have hlogging : t.journal.logging = (steps.filterMap Step.set?).foldl Logging.setUp _ :=
    s.logging_run r steps
  obtain ⟨hown, hkept, hlevel⟩ := Logging.foldl_setUp_spec hforeign (steps.filterMap Step.set?)
  rw [hlogging]
  refine ⟨⟨?_, hkept, fun name => rfl, s.answered_run r steps⟩, ?_⟩
  · rw [hown]
    split_ifs <;> decide
  · intro asked hasked
    rw [← filterMap_set?_of_asks hasked]
    exact ⟨hown, hlevel⟩

/-- A stream of the application, and a handler under the library's filter that writes to no stream.
-/
def beside : Session :=
  { start with journal.logging.handlers :=
      [⟨.stream 1, Level.warning, [.foreign 1]⟩, ⟨.other 1, Level.debug, [.queryId]⟩] }

theorem run_setsUp_once_beside :
    let t := (beside.run .builtIn
      [.getLogger "codec" none, .configure "loud", .getLogger "codec" (some "dEbUg")]).1
    t.journal.logging.ownHandlers = 1 ∧ t.journal.logging.level = Level.debug ∧
      t.journal.logging.handlers.filter (fun h => !h.isOwn) = beside.journal.logging.handlers := by
  have hforeign : ∀ h ∈ beside.journal.logging.handlers, h.isOwn = false := by decide
  have hloud : Level.Means "loud" Level.info := .unknown (by decide) (by decide)
  have hcase : Text.InAnyCase "DEBUG" "dEbUg" :=
    .cons (.inr rfl) (.cons (.inl rfl) (.cons (.inr rfl) (.cons (.inl rfl)
      (.cons (.inr rfl) .nil))))
  have hdebug : Level.Means "dEbUg" Level.debug := .standard (by decide) hcase
  obtain ⟨⟨-, hkept, -⟩, hasked⟩ := run_setsUp_once .builtIn beside hforeign
    [.getLogger "codec" none, .configure "loud", .getLogger "codec" (some "dEbUg")]
  obtain ⟨hown, hlevel⟩ := hasked [none, some Level.info, some Level.debug]
    (.cons (.getLoggerOnly "codec") (.cons (.configure hloud)
      (.cons (.getLogger "codec" hdebug) .nil)))
  exact ⟨hown, hlevel, hkept⟩

end Session
end TypedParams
