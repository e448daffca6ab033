import Mathlib.Logic.Relation

/-!
Labelled transition systems. A step takes a state and an event to a next state;
a run is a list of events taken in order. The rules below turn facts about one
step into facts about every run.
-/
namespace NodeAgent.Transition
universe u v
variable {σ : Type u} {ε : Type v}

/-- `Run step start events s`: the events, taken in order, lead from `start` to `s`. -/
inductive Run (step : σ → ε → Option σ) (start : σ) : List ε → σ → Prop
  | nil : Run step start [] start
  | snoc {events s e s'} : Run step start events s → step s e = some s' → Run step start (events ++ [e]) s'

variable {step : σ → ε → Option σ} {start : σ}

/-- What holds at the start, and is kept by every step over events that satisfy
    `Allowed`, holds after every run of such events. The invariant may read the
    events taken so far. -/
theorem Run.keeps {I : List ε → σ → Prop} (Allowed : ε → Prop) (initial : I [] start)
    (keep : ∀ events s e s', I events s → Allowed e → step s e = some s' → I (events ++ [e]) s')
    {events : List ε} {s : σ} (run : Run step start events s) (allowed : ∀ e ∈ events, Allowed e) : I events s := by
  induction run with
  | nil => exact initial
  | @snoc events s e s' _ taken ih =>
    have before := ih (fun e member => allowed e (List.mem_append_left _ member))
    exact keep events s e s' before (allowed e (List.mem_append_right _ (List.mem_singleton_self e))) taken

/-- An invariant of the state alone, kept by every step. -/
theorem Run.invariant {I : σ → Prop} (initial : I start) (keep : ∀ s e s', I s → step s e = some s' → I s')
    {events : List ε} {s : σ} (run : Run step start events s) : I s :=
  run.keeps (I := fun _ s => I s) (fun _ => True) initial
    (fun _ s e s' before _ taken => keep s e s' before taken) (fun _ _ => trivial)

/-- The system that takes only those steps that meet a condition on the state before. -/
def guarded (Proper : σ → ε → Bool) (step : σ → ε → Option σ) (s : σ) (e : ε) : Option σ :=
  if Proper s e then step s e else none

theorem guarded_eq_some {Proper : σ → ε → Bool} {s s' : σ} {e : ε} :
    guarded Proper step s e = some s' ↔ Proper s e = true ∧ step s e = some s' := by
  unfold guarded
  split
  · next proper => simp [proper]
  · next improper => simp [improper]

theorem Run.eq_of_nil {s : σ} (run : Run step start [] s) : s = start := by
  generalize none_taken : ([] : List ε) = events at run
  cases run with
  | nil => rfl
  | snoc _ _ => exact absurd none_taken.symm (List.append_ne_nil_of_right_ne_nil _ (List.cons_ne_nil _ _))

/-- A run whose steps all meet the condition is a run of the guarded system. -/
theorem Run.guard {Proper : σ → ε → Bool} {events : List ε} {s : σ} (run : Run step start events s)
    (proper : ∀ (before : List ε) (e : ε) (later : List ε) (middle : σ), events = before ++ e :: later → Run step start before middle →
      Proper middle e = true) : Run (guarded Proper step) start events s := by
  induction run with
  | nil => exact .nil
  | @snoc events s e s' run taken ih =>
    refine .snoc (ih (fun before e' later middle same => proper before e' (later ++ [e]) middle (by rw [same]; simp))) ?_
    exact guarded_eq_some.mpr ⟨proper events e [] s rfl run,taken⟩

/-- Runs compose. -/
theorem Run.append {events later : List ε} {s s' : σ} (run : Run step start events s)
    (rest : Run step s later s') : Run step start (events ++ later) s' := by
  induction rest with
  | nil => simpa using run
  | snoc _ taken ih => simpa using Run.snoc ih taken

/-- The run that a fixed list of events computes. -/
def follow (step : σ → ε → Option σ) : σ → List ε → Option σ
  | s, [] => some s
  | s, e :: rest => (step s e).bind (fun s' => follow step s' rest)

theorem Run.of_follow {events : List ε} {s s' : σ} (followed : follow step s events = some s') :
    Run step s events s' := by
  induction events generalizing s with
  | nil =>
    cases followed
    exact .nil
  | cons e rest ih =>
    obtain ⟨middle,taken,more⟩ := Option.bind_eq_some_iff.mp followed
    have first : Run step s [e] middle := Run.snoc .nil taken
    exact first.append (ih more)

theorem follow_append {events later : List ε} {s : σ} : follow step s (events ++ later) = (follow step s events).bind (fun s' => follow step s' later) := by
  induction events generalizing s with
  | nil => rfl
  | cons e rest ih =>
    cases taken : step s e with
    | none => simp [follow,taken]
    | some s' => simpa [follow,taken] using ih

theorem follow_of_guarded {Proper : σ → ε → Bool} {events : List ε} {s s' : σ}
    (followed : follow (guarded Proper step) s events = some s') : follow step s events = some s' := by
  induction events generalizing s with
  | nil => exact followed
  | cons e rest ih =>
    obtain ⟨middle,taken,more⟩ := Option.bind_eq_some_iff.mp followed
    obtain ⟨-,taken⟩ := guarded_eq_some.mp taken
    exact Option.bind_eq_some_iff.mpr ⟨middle,taken,ih more⟩

end NodeAgent.Transition
