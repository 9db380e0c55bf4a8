import TypedParams.Proofs.Config.Agreement
import TypedParams.Proofs.Template.Variables
import TypedParams.Template.Clock

/-! Variables that matter. Main statement: what is built from declarations depends on the variables
that their placeholders name, and on the clock only where a run leaves one of its variables open. -/
namespace TypedParams

/-- The names of the clock's variables. -/
def Clock.names : List String := ["now_date", "now_time", "now_datetime", "now_timestamp"]

theorem Clock.keys_of_vars {c : Clock} {vs : List (String × String)} (h : c.vars = .ok vs) :
    vs.map (·.1) = names := by
  obtain ⟨m, -, rfl⟩ := map_eq_ok_iff.1 h
  rfl

namespace Declaration
open Template (Bindings insertion?)

/-- The placeholders of some declarations stand for the same texts, or in neither for any. -/
def AgreeOn (ds : List Declaration) (V W : Bindings) : Prop :=
  ∀ d ∈ ds, ∀ n ∈ d.placeholders, insertion? V n = insertion? W n

theorem typedValue_congr {r : Registry} {V W : Bindings} {d : Declaration}
    (h : ∀ n ∈ d.placeholders, insertion? V n = insertion? W n) :
    typedValue r V d = typedValue r W d := by
  cases d with
  | scalar name t v =>
    have hv := Template.resolve_congr v fun n hn => h n (List.mem_append_left _ hn)
    rw [typedValue, typedValue, hv]
  | array name t vs =>
    have hvs := Template.resolveAll_congr vs h
    rw [typedValue, typedValue, hvs]

theorem build_congr {r : Registry} {V W : Bindings} {ds : List Declaration} (h : AgreeOn ds V W) :
    build r V ds = build r W ds := by
  have hentries : ds.mapM (named (typedValue r V)) = ds.mapM (named (typedValue r W)) := by
    apply mapM_congr
    intro d hd
    rw [named, named, typedValue_congr (h d hd)]
  rw [build_eq_bind, build_eq_bind, hentries]

/-- A run that has all variables of the clock that occur makes the clocks agree, a null included. -/
theorem agreeOn_of_clocks {ds : List Declaration} {es : List (Value × Value)}
    {vs vs' : List (String × String)} (hvs : vs.map (·.1) = Clock.names)
    (hvs' : vs'.map (·.1) = Clock.names)
    (hrun : ∀ d ∈ ds, ∀ n ∈ d.placeholders, String.ofList n ∈ Clock.names →
      (Value.field? es (String.ofList n)).isSome = true) :
    AgreeOn ds (Value.putAll es (Bindings.ofTexts vs))
      (Value.putAll es (Bindings.ofTexts vs')) := by
  intro d hd n hn
  have hfield : Value.field? (Value.putAll es (Bindings.ofTexts vs)) (String.ofList n) =
      Value.field? (Value.putAll es (Bindings.ofTexts vs')) (String.ofList n) := by
    rw [Value.field?_putAll, Value.field?_putAll]
    by_cases hclock : String.ofList n ∈ Clock.names
    · have hlast := hrun d hd n hn hclock
      rw [← Value.isSome_field?_reverse] at hlast
      rw [Option.or_of_isSome hlast, Option.or_of_isSome hlast]
    · rw [Bindings.field?_ofTexts_eq_none (hvs ▸ hclock),
        Bindings.field?_ofTexts_eq_none (hvs' ▸ hclock)]
  unfold insertion?
  rw [hfield]

/-- Declarations build the same, refusals included, under any two bindings that agree on their
placeholders, however these came about. With two clocks they build the same for a run that has a
value or a null for each of the clock's variables that occurs. -/
theorem buildOver_reads_placeholders (r : Registry) (ds : List Declaration) :
    (∀ V W, AgreeOn ds V W → build r V ds = build r W ds) ∧
    (∀ defaults defaults' run run' V W, Bindings.overriddenBy defaults run = .ok V →
      Bindings.overriddenBy defaults' run' = .ok W → AgreeOn ds V W →
      buildOver r defaults run ds = buildOver r defaults' run' ds) ∧
    ∀ (c c' : Clock) (vs vs' : List (String × String)) (run : Value),
      c.vars = .ok vs → c'.vars = .ok vs' →
      (∀ d ∈ ds, ∀ n ∈ d.placeholders, String.ofList n ∈ Clock.names →
        (run.at? (String.ofList n)).isSome = true) →
      buildOver r (.ofTexts vs) run ds = buildOver r (.ofTexts vs') run ds := by
  refine ⟨fun V W => build_congr, ?_, ?_⟩
  · intro defaults defaults' run run' V W hV hW hagree
    rw [buildOver, buildOver, hV, hW]
    exact build_congr hagree
  · intro c c' vs vs' run hvs hvs' hrun
    rw [buildOver, buildOver, Bindings.overriddenBy_eq, Bindings.overriddenBy_eq]
    split_ifs with hmapping
    · rfl
    · refine build_congr (agreeOn_of_clocks (Clock.keys_of_vars hvs) (Clock.keys_of_vars hvs') ?_)
      intro d hd n hn hclock
      have hat := hrun d hd n hn hclock
      obtain ⟨v, hv⟩ := Option.isSome_iff_exists.1 hat
      obtain ⟨es, hes, hfield⟩ := Option.bind_eq_some_iff.1 hv
      rw [hes, Option.getD_some, hfield]
      rfl

/-- A text with one variable of the clock and one that is not. -/
def datedText : List Declaration :=
  [.scalar "x" none (.str "\x7b\x7b now_date \x7d\x7d of $\x7bday\x7d")]

def earlierClock : Clock := ⟨⟨⟨2014, 8, 19⟩, ⟨12, 41, 35, 0⟩⟩, 0⟩

def laterClock : Clock := ⟨⟨⟨2024, 2, 29⟩, ⟨0, 0, 0, 0⟩⟩, 3600⟩

/-- A null hides the date of the clock. -/
def hiddenDate : Value := .mapping [(.str "now_date", .null)]

theorem buildOver_reads_placeholders_hiddenDate :
    ∃ vs vs', earlierClock.vars = .ok vs ∧ laterClock.vars = .ok vs' ∧ vs ≠ vs' ∧
      buildOver .builtIn (.ofTexts vs) hiddenDate datedText =
        buildOver .builtIn (.ofTexts vs') hiddenDate datedText := by
  have hnames : datedText.flatMap placeholders = ["now_date".toList, "day".toList] := by
    decide +kernel
  refine ⟨_, _, rfl, rfl, by decide, (buildOver_reads_placeholders .builtIn datedText).2.2
    earlierClock laterClock _ _ hiddenDate rfl rfl ?_⟩
  intro d hd n hn hclock
  have hname : n ∈ datedText.flatMap placeholders := List.mem_flatMap.2 ⟨d, hd, hn⟩
  rw [hnames] at hname
  rcases List.mem_pair.1 hname with rfl | rfl
  · rfl
  · exact absurd hclock (by decide)

end Declaration
end TypedParams
