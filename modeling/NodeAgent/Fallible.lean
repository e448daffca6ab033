import Mathlib.Data.List.Nodup
import Mathlib.Logic.Function.Basic

/-!
Operations on a state that may fail. A failure keeps the changes made before it:
nothing is undone that the program does not undo itself. `Ensures` says what holds of
the result and the state after an operation; the rules below follow the shape of a
program, and a loop is reasoned about with an invariant over its finished part.
-/
namespace NodeAgent.Fallible
variable {σ ε ε' α β : Type}

/-- An operation takes a state to a result and the state after it. -/
def Op (σ ε α : Type) := σ → Except ε α × σ

instance : Monad (Op σ ε) where
  pure a := fun s => (.ok a,s)
  bind p f := fun s => match p s with
    | (.ok a,s') => f a s'
    | (.error e,s') => (.error e,s')

def fail (e : ε) : Op σ ε α := fun s => (.error e,s)

/-- The current state. -/
def look : Op σ ε σ := fun s => (.ok s,s)

def change (f : σ → σ) : Op σ ε Unit := fun s => (.ok (),f s)

/-- Hands the result of an operation on, an error included. -/
def attempt (p : Op σ ε α) : Op σ ε' (Except ε α) := fun s => (.ok (p s).1,(p s).2)

/-- Hands an error on under another type. -/
def orFail (p : Op σ ε α) (f : ε → ε') : Op σ ε' α := do
  match ← attempt p with
  | .ok a => pure a
  | .error e => fail (f e)

/-- A loop with an accumulator; the first failure ends it. -/
def foldEach (body : β → α → Op σ ε β) : β → List α → Op σ ε β
  | b, [] => pure b
  | b, x :: rest => do
    let b' ← body b x
    foldEach body b' rest

/-- A loop for its effects. -/
def forEach (xs : List α) (body : α → Op σ ε Unit) : Op σ ε Unit := foldEach (fun _ x => body x) () xs

/-- A condition on a success and one on a failure. -/
def Outcome (good : α → σ → Prop) (bad : ε → σ → Prop) : Except ε α → σ → Prop
  | .ok a, s => good a s
  | .error e, s => bad e s

/-- What holds of the result and of the state after an operation. -/
def Ensures (p : Op σ ε α) (s : σ) (R : Except ε α → σ → Prop) : Prop := R (p s).1 (p s).2

variable {p : Op σ ε α} {f : α → Op σ ε β} {s : σ} {Q : Except ε α → σ → Prop} {R : Except ε β → σ → Prop}

theorem Ensures.mono {R Q : Except ε α → σ → Prop} (done : Ensures p s Q) (weaker : ∀ r s', Q r s' → R r s') :
    Ensures p s R := weaker _ _ done

theorem Ensures.and {R Q : Except ε α → σ → Prop} (first : Ensures p s Q) (second : Ensures p s R) :
    Ensures p s (fun r s' => Q r s' ∧ R r s') := ⟨first,second⟩

theorem Ensures.outcome {good : α → σ → Prop} {bad : ε → σ → Prop} (done : Ensures p s (Outcome good bad)) :
    (∃ a s', p s = (.ok a,s') ∧ good a s') ∨ ∃ e s', p s = (.error e,s') ∧ bad e s' := by
  unfold Ensures at done
  cases run : p s with
  | mk result s' =>
    rw [run] at done
    cases result with
    | ok a => exact .inl ⟨a,s',rfl,done⟩
    | error e => exact .inr ⟨e,s',rfl,done⟩

theorem Ensures.pure {a : α} {R : Except ε α → σ → Prop} (holds : R (.ok a) s) :
    Ensures (Pure.pure a : Op σ ε α) s R := holds

theorem Ensures.fail {e : ε} {R : Except ε α → σ → Prop} (holds : R (.error e) s) :
    Ensures (Fallible.fail e : Op σ ε α) s R := holds

theorem Ensures.change {g : σ → σ} {R : Except ε Unit → σ → Prop} (holds : R (.ok ()) (g s)) :
    Ensures (Fallible.change g : Op σ ε Unit) s R := holds

/-- A failure of the first operation is one of the whole. -/
theorem Ensures.bind (first : Ensures p s Q) (next : ∀ a s', Q (.ok a) s' → Ensures (f a) s' R)
    (fails : ∀ e s', Q (.error e) s' → R (.error e) s') : Ensures (p >>= f) s R := by
  show R (match p s with
    | (.ok a,s') => f a s'
    | (.error e,s') => (.error e,s')).1 (match p s with
    | (.ok a,s') => f a s'
    | (.error e,s') => (.error e,s')).2
  unfold Ensures at first
  cases run : p s with
  | mk result s' =>
    rw [run] at first
    cases result with
    | ok a => exact next a s' first
    | error e => exact fails e s' first

theorem run_bind_ok {a : α} (first : (p s).1 = .ok a) : (p >>= f) s = f a (p s).2 := by
  have both : Ensures (p >>= f) s (fun r s' => (r,s') = f a (p s).2) := by
    refine Ensures.bind (Q := fun r s' => r = .ok a ∧ s' = (p s).2) ⟨first,rfl⟩ ?_ ?_
    · rintro a' s' ⟨done,rfl⟩
      cases done
      rfl
    · rintro e s' ⟨done,_⟩
      cases done
  exact both

theorem run_bind_error {e : ε} (first : (p s).1 = .error e) : (p >>= f) s = (.error e,(p s).2) := by
  have both : Ensures (p >>= f) s (fun r s' => (r,s') = (.error e,(p s).2)) := by
    refine Ensures.bind (Q := fun r s' => r = .error e ∧ s' = (p s).2) ⟨first,rfl⟩ ?_ ?_
    · rintro a' s' ⟨done,_⟩
      cases done
    · rintro e' s' ⟨done,rfl⟩
      cases done
      rfl
  exact both

/-- A sequence that succeeds, in its parts. -/
theorem run_bind_inv {c : β} (done : ((p >>= f) s).1 = .ok c) : ∃ a, (p s).1 = .ok a ∧ (f a (p s).2).1 = .ok c := by
  cases first : (p s).1 with
  | error e =>
    rw [run_bind_error first] at done
    cases done
  | ok a =>
    rw [run_bind_ok first] at done
    exact ⟨a,rfl,done⟩

theorem Ensures.pure_bind {a : α} (next : Ensures (f a) s R) : Ensures (Pure.pure a >>= f) s R := next

theorem Ensures.look_bind {f : σ → Op σ ε β} (next : Ensures (f s) s R) : Ensures (Fallible.look >>= f) s R := next

theorem Ensures.change_bind {g : σ → σ} {f : Unit → Op σ ε β} (next : Ensures (f ()) (g s) R) :
    Ensures (Fallible.change g >>= f) s R := next

theorem Ensures.attempt_bind {p : Op σ ε' α} {Q : Except ε' α → σ → Prop} {f : Except ε' α → Op σ ε β} (first : Ensures p s Q)
    (next : ∀ r s', Q r s' → Ensures (f r) s' R) : Ensures (Fallible.attempt p >>= f) s R := next _ _ first

theorem Ensures.orFail {p : Op σ ε' α} {g : ε' → ε} {Q : Except ε' α → σ → Prop} {R : Except ε α → σ → Prop}
    (first : Ensures p s Q) (succeeds : ∀ a s', Q (.ok a) s' → R (.ok a) s')
    (fails : ∀ e s', Q (.error e) s' → R (.error (g e)) s') : Ensures (Fallible.orFail p g) s R := by
  refine Ensures.attempt_bind first ?_
  rintro (e | a) s' held
  · exact fails e s' held
  · exact succeeds a s' held

/-- A loop keeps an invariant of its finished part and its accumulator. -/
theorem Ensures.foldEach {body : β → α → Op σ ε β} {xs : List α} {b : β} {s : σ} {R : Except ε β → σ → Prop}
    (inv : List α → β → σ → Prop) (start : inv [] b s)
    (step : ∀ done x rest b s, xs = done ++ x :: rest → inv done b s → Ensures (body b x) s
      (Outcome (inv (done ++ [x])) (fun e s' => R (.error e) s')))
    (finish : ∀ b s, inv xs b s → R (.ok b) s) : Ensures (Fallible.foldEach body b xs) s R := by
  -- The induction is on the part of the loop that is still to come.
  suffices general : ∀ (rest done : List α) (b : β) (s : σ), xs = done ++ rest → inv done b s →
      Ensures (Fallible.foldEach body b rest) s R from general xs [] b s rfl start
  intro rest
  induction rest with
  | nil =>
    intro done b s split held
    rw [List.append_nil] at split
    subst split
    exact finish b s held
  | cons x rest ih =>
    intro done b s split held
    refine Ensures.bind (step done x rest b s split held) ?_ (fun _ _ failed => failed)
    intro b' s' kept
    exact ih (done ++ [x]) b' s' (by rw [split]; simp) kept

theorem Ensures.forEach {body : α → Op σ ε Unit} {xs : List α} {s : σ} {R : Except ε Unit → σ → Prop}
    (inv : List α → σ → Prop) (start : inv [] s)
    (step : ∀ done x rest s, xs = done ++ x :: rest → inv done s → Ensures (body x) s
      (Outcome (fun _ s' => inv (done ++ [x]) s') (fun e s' => R (.error e) s')))
    (finish : ∀ s, inv xs s → R (.ok ()) s) : Ensures (Fallible.forEach xs body) s R :=
  Ensures.foldEach (fun done _ s => inv done s) start (fun done x rest _ s split held => step done x rest s split held)
    (fun _ s held => finish s held)

/-! ### Invariants -/

/-- The operation keeps a condition on the state, whether it fails or not. -/
def Keeps (I : σ → Prop) (p : Op σ ε α) : Prop := ∀ s, I s → Ensures p s (fun _ s' => I s')

/-- What the operation returns when it succeeds. -/
def Returns (A : α → Prop) (p : Op σ ε α) : Prop := ∀ s, Ensures p s (Outcome (fun a _ => A a) (fun _ _ => True))

variable {I : σ → Prop}

theorem Keeps.pure (a : α) : Keeps I (Pure.pure a : Op σ ε α) := fun _ held => held

theorem Keeps.fail (e : ε) : Keeps I (Fallible.fail e : Op σ ε α) := fun _ held => held

theorem Keeps.change {g : σ → σ} (step : ∀ s, I s → I (g s)) : Keeps I (Fallible.change g : Op σ ε Unit) := step

theorem Keeps.bind (first : Keeps I p) (next : ∀ a, Keeps I (f a)) : Keeps I (p >>= f) :=
  fun s held => Ensures.bind (first s held) (fun a s' held' => next a s' held') (fun _ _ held' => held')

/-- The rest of the operation may rely on what the first part returned. -/
theorem Keeps.bind_returned {A : α → Prop} (first : Keeps I p) (returns : Returns A p) (next : ∀ a, A a → Keeps I (f a)) :
    Keeps I (p >>= f) :=
  fun s held => Ensures.bind (Ensures.and (first s held) (returns s)) (fun a s' both => next a both.2 s' both.1)
    (fun _ _ both => both.1)

theorem Keeps.look_bind {f : σ → Op σ ε β} (next : ∀ s, I s → Ensures (f s) s (fun _ s' => I s')) :
    Keeps I (Fallible.look >>= f) := next

theorem Keeps.attempt {p : Op σ ε' α} (first : Keeps I p) : Keeps I (Fallible.attempt p : Op σ ε (Except ε' α)) := first

theorem Keeps.attempt_bind {p : Op σ ε' α} {f : Except ε' α → Op σ ε β} (first : Keeps I p) (next : ∀ r, Keeps I (f r)) :
    Keeps I (Fallible.attempt p >>= f) :=
  fun s held => Ensures.attempt_bind (first s held) (fun r s' held' => next r s' held')

theorem Keeps.orFail {p : Op σ ε' α} {g : ε' → ε} (first : Keeps I p) : Keeps I (Fallible.orFail p g) :=
  fun s held => Ensures.orFail (first s held) (fun _ _ held' => held') (fun _ _ held' => held')

theorem Keeps.foldEach {body : β → α → Op σ ε β} {xs : List α} {b : β} {A : β → Prop} (start : A b)
    (step : ∀ b, A b → ∀ x ∈ xs, Keeps I (body b x) ∧ Returns A (body b x)) : Keeps I (Fallible.foldEach body b xs) := by
  intro s held
  refine Ensures.foldEach (fun _ b s => A b ∧ I s) ⟨start,held⟩ ?_ (fun _ _ both => both.2)
  rintro done x rest b s split ⟨good,held⟩
  obtain ⟨keeps,returns⟩ := step b good x (by rw [split]; simp)
  refine Ensures.mono (Ensures.and (keeps s held) (returns s)) ?_
  rintro (e | b') s' ⟨kept,returned⟩
  · exact kept
  · exact ⟨returned,kept⟩

theorem Returns.any (p : Op σ ε α) : Returns (fun _ => True) p := by
  intro s
  unfold Ensures
  cases (p s).1 <;> trivial

theorem Keeps.forEach {body : α → Op σ ε Unit} {xs : List α} (step : ∀ x ∈ xs, Keeps I (body x)) : Keeps I (Fallible.forEach xs body) :=
  Keeps.foldEach (A := fun _ => True) trivial (fun _ _ x member => ⟨step x member,Returns.any _⟩)

theorem Returns.pure {A : α → Prop} {a : α} (good : A a) : Returns A (Pure.pure a : Op σ ε α) := fun _ => good

theorem Returns.fail {A : α → Prop} (e : ε) : Returns A (Fallible.fail e : Op σ ε α) := fun _ => trivial

theorem Returns.bind {A : β → Prop} (next : ∀ a, Returns A (f a)) : Returns A (p >>= f) :=
  fun _ => Ensures.bind (Q := fun _ _ => True) trivial (fun a s' _ => next a s') (fun _ _ _ => trivial)

/-- The rest of the operation may rely on what the first part returned. -/
theorem Returns.bind_returned {A : α → Prop} {B : β → Prop} (first : Returns A p) (next : ∀ a, A a → Returns B (f a)) : Returns B (p >>= f) :=
  fun s => Ensures.bind (first s) (fun a s' good => next a good s') (fun _ _ _ => trivial)

/-- A loop keeps an invariant of its finished part and its accumulator. -/
theorem Returns.foldEach {body : β → α → Op σ ε β} {xs : List α} {b : β} (inv : List α → β → Prop) (start : inv [] b)
    (step : ∀ done x rest b, xs = done ++ x :: rest → inv done b → Returns (inv (done ++ [x])) (body b x)) :
    Returns (inv xs) (Fallible.foldEach body b xs) := by
  intro s
  refine Ensures.foldEach (fun done b _ => inv done b) start ?_ (fun _ _ held => held)
  intro done x rest b s split held
  exact step done x rest b split held s

theorem Returns.result {A : α → Prop} {a : α} (returns : Returns A p) (done : (p s).1 = .ok a) : A a := by
  have holds := returns s
  unfold Ensures at holds
  rw [done] at holds
  exact holds

/-- From a state that meets a condition, the operation gives something good and keeps the condition when it succeeds. -/
def Delivers (I : σ → Prop) (A : α → Prop) (p : Op σ ε α) : Prop := ∀ s, I s → Ensures p s (Outcome (fun a s' => A a ∧ I s') (fun _ _ => True))

section Deliveries
variable {A A' : α → Prop} {B : β → Prop} {a : α}

theorem Delivers.pure (good : A a) : Delivers I A (Pure.pure a : Op σ ε α) := fun _ held => ⟨good,held⟩

theorem Delivers.fail (e : ε) : Delivers I A (Fallible.fail e : Op σ ε α) := fun _ _ => trivial

theorem Delivers.bind (first : Delivers I A p) (next : ∀ a, A a → Delivers I B (f a)) : Delivers I B (p >>= f) :=
  fun s held => Ensures.bind (first s held) (fun a s' both => next a both.1 s' both.2) (fun _ _ _ => trivial)

theorem Delivers.mono (delivers : Delivers I A p) (weaker : ∀ a, A a → A' a) : Delivers I A' p := by
  intro s held
  refine (delivers s held).mono ?_
  rintro (e | a) s' both
  · trivial
  · exact ⟨weaker a both.1,both.2⟩

/-- A loop keeps an invariant of its finished part and its accumulator. -/
theorem Delivers.foldEach {body : β → α → Op σ ε β} {xs : List α} {b : β} (inv : List α → β → Prop) (start : inv [] b)
    (step : ∀ done x rest b, xs = done ++ x :: rest → inv done b → Delivers I (inv (done ++ [x])) (body b x)) :
    Delivers I (inv xs) (Fallible.foldEach body b xs) := by
  intro s held
  refine Ensures.foldEach (fun done b s => inv done b ∧ I s) ⟨start,held⟩ ?_ (fun _ _ both => both)
  intro done x rest b s split both
  exact step done x rest b split both.1 s both.2

theorem Delivers.result (delivers : Delivers I A p) (held : I s) (done : (p s).1 = .ok a) : A a := by
  have holds := delivers s held
  unfold Ensures at holds
  rw [done] at holds
  exact holds.1

end Deliveries

/-! ### Two operations -/

/-- When the first operation succeeds, so does the second, with a related result and the same state. -/
def Mirrors {γ : Type} (R : α → γ → Prop) (p : Op σ ε α) (q : Op σ ε γ) : Prop :=
  ∀ s a s', p s = (.ok a,s') → ∃ c, q s = (.ok c,s') ∧ R a c

section Two
variable {γ δ : Type} {S : α → γ → Prop} {T : β → δ → Prop} {q : Op σ ε γ} {g : γ → Op σ ε δ}

theorem Mirrors.refl (p : Op σ ε α) : Mirrors Eq p p := fun _ a _ done => ⟨a,done,rfl⟩

theorem Mirrors.pure {a : α} {c : γ} (related : S a c) : Mirrors S (Pure.pure a : Op σ ε α) (Pure.pure c) := by
  intro s a' s' done
  cases done
  exact ⟨c,rfl,related⟩

theorem Mirrors.bind (first : Mirrors S p q) (next : ∀ a c, S a c → Mirrors T (f a) (g c)) : Mirrors T (p >>= f) (q >>= g) := by
  intro s b s' done
  cases run : p s with
  | mk result middle =>
    cases result with
    | error e =>
      rw [run_bind_error (congrArg Prod.fst run)] at done
      cases done
    | ok a =>
      obtain ⟨c,mirrored,related⟩ := first s a middle run
      rw [run_bind_ok (congrArg Prod.fst run),run] at done
      rw [run_bind_ok (congrArg Prod.fst mirrored),mirrored]
      exact next a c related middle b s' done

theorem Mirrors.foldEach {η : Type} {U : α → η → Prop} {body : β → α → Op σ ε β} {body' : δ → η → Op σ ε δ} {xs : List α} {ys : List η}
    (listed : List.Forall₂ U xs ys) (each : ∀ b d x y, T b d → U x y → Mirrors T (body b x) (body' d y)) {b : β} {d : δ} (start : T b d) :
    Mirrors T (Fallible.foldEach body b xs) (Fallible.foldEach body' d ys) := by
  induction listed generalizing b d with
  | nil => exact Mirrors.pure start
  | @cons x y _ _ first _ ih => exact Mirrors.bind (each b d x y start first) (fun b' d' related => ih related)

end Two

end NodeAgent.Fallible
