import LateIR.Semantics

/-!
Runs as iterated steps. `steps?` follows an interpreter for a given number of
steps; a state is reachable when some number of steps leads to it, and a
property that every step keeps holds of every reachable state
(`Preserved.reachable`). A run above a depth keeps that many callers suspended
until it ends (`RunsAbove`), and a silent path is a run without events together
with the states on its way (`SilentPath`).
-/

namespace LateIR.Semantics

variable {S : Type} (sem : Semantics S)

/-- The events of `n` steps and the state after them. There is none when the
run is stuck before. -/
def steps? : Nat → S → Option (Trace × S)
  | 0, s => some ([], s)
  | n + 1, s => do
      let (events, next) ← sem.step s
      let (trace, t) ← steps? n next
      some (events ++ trace, t)

/-- Whether some number of steps leads from the first state to the second. -/
def Reachable (s t : S) : Prop := ∃ n trace, sem.steps? n s = some (trace, t)

/-- Whether every step from a state with the property leads to one. -/
def Preserved (P : S → Prop) : Prop :=
  ∀ s events t, P s → sem.step s = some (events, t) → P t

/-- Whether `n` steps, at least one, lead from the first state to the second,
with more than `depth` callers suspended in every state between the two. -/
structure RunsAbove (depth n : Nat) (s t : S) : Prop where
  moves : 0 < n
  run : ∃ trace, sem.steps? n s = some (trace, t)
  above : ∀ i trace u, 0 < i → i < n → sem.steps? i s = some (trace, u) → depth < sem.depth u

/-- Steps without events from one state to another, with the states that they
start in. -/
inductive SilentPath : List S → S → S → Prop where
  | done (s : S) : SilentPath [] s s
  | step {s next t : S} {path : List S} (moves : sem.step s = some ([], next))
      (later : SilentPath path next t) : SilentPath (s :: path) s t

variable {sem}

theorem steps?_succ_eq_some_iff {n : Nat} {s t : S} {trace : Trace} :
    sem.steps? (n + 1) s = some (trace, t) ↔
      ∃ events next rest, sem.step s = some (events, next) ∧
        sem.steps? n next = some (rest, t) ∧ trace = events ++ rest := by
  simp only [steps?, Option.bind_eq_bind, Option.bind_eq_some_iff, Prod.exists,
    Option.some.injEq, Prod.mk.injEq]
  constructor
  · rintro ⟨events, next, first, rest, t', later, rfl, rfl⟩
    exact ⟨events, next, rest, first, later, rfl⟩
  · rintro ⟨events, next, rest, first, later, rfl⟩
    exact ⟨events, next, first, rest, t, later, rfl, rfl⟩

/-- A run can be cut anywhere. -/
theorem steps?_add_eq_some_iff {m n : Nat} {s u : S} {trace : Trace} :
    sem.steps? (m + n) s = some (trace, u) ↔
      ∃ before t after, sem.steps? m s = some (before, t) ∧ sem.steps? n t = some (after, u) ∧
        trace = before ++ after := by
  induction m generalizing s trace with
  | zero =>
      rw [Nat.zero_add]
      constructor
      · intro run
        exact ⟨[], s, trace, rfl, run, rfl⟩
      · rintro ⟨before, t, after, first, second, rfl⟩
        cases first
        exact second
  | succ m ih =>
      rw [Nat.succ_add, steps?_succ_eq_some_iff]
      constructor
      · rintro ⟨events, next, rest, step, later, rfl⟩
        obtain ⟨before, t, after, first, second, rfl⟩ := ih.mp later
        refine ⟨events ++ before, t, after, ?_, second, (List.append_assoc ..).symm⟩
        exact steps?_succ_eq_some_iff.mpr ⟨events, next, before, step, first, rfl⟩
      · rintro ⟨trace', t, after, first, second, rfl⟩
        obtain ⟨events, next, before, step, later, rfl⟩ := steps?_succ_eq_some_iff.mp first
        exact ⟨events, next, before ++ after, step, ih.mpr ⟨before, t, after, later, second, rfl⟩,
          List.append_assoc ..⟩

theorem steps?_one_eq_some_iff {s t : S} {trace : Trace} :
    sem.steps? 1 s = some (trace, t) ↔ sem.step s = some (trace, t) := by
  constructor
  · intro run
    obtain ⟨events, next, rest, step, done, rfl⟩ := steps?_succ_eq_some_iff.mp run
    cases done
    simpa using step
  · intro step
    exact steps?_succ_eq_some_iff.mpr ⟨trace, t, [], step, rfl, by simp⟩

/-- A run of one more step, with that step at its end. -/
theorem steps?_succ_last {n : Nat} {s t : S} {trace : Trace} :
    sem.steps? (n + 1) s = some (trace, t) ↔
      ∃ before u events, sem.steps? n s = some (before, u) ∧ sem.step u = some (events, t) ∧
        trace = before ++ events := by
  simp only [steps?_add_eq_some_iff, steps?_one_eq_some_iff]

theorem SilentPath.steps? {path : List S} {s t : S} (silent : sem.SilentPath path s t) :
    sem.steps? path.length s = some ([], t) := by
  induction silent with
  | done s => rfl
  | step moves later ih => exact steps?_succ_eq_some_iff.mpr ⟨[], _, [], moves, ih, rfl⟩

theorem SilentPath.trans {path path' : List S} {s t u : S} (first : sem.SilentPath path s t)
    (second : sem.SilentPath path' t u) : sem.SilentPath (path ++ path') s u := by
  induction first with
  | done s => exact second
  | step moves later ih => exact .step moves (ih second)

theorem final?_eq_some_iff {s : S} {n : Int32} :
    sem.final? s = some n ↔ sem.returned? s = some (.int n) := by
  unfold final?
  split
  · rename_i n' returned
    simp [returned]
  · rename_i other
    constructor
    · intro none
      cases none
    · intro returned
      exact absurd returned (other n)

theorem Preserved.reachable {P : S → Prop} (kept : sem.Preserved P) {s t : S} (start : P s)
    (reach : sem.Reachable s t) : P t := by
  obtain ⟨n, trace, run⟩ := reach
  induction n generalizing s trace with
  | zero =>
      cases run
      exact start
  | succ n ih =>
      obtain ⟨events, next, rest, step, later, rfl⟩ := steps?_succ_eq_some_iff.mp run
      exact ih (kept s events next start step) rest later

/-- The states between the ends can be checked by running to each of them. -/
theorem runsAbove_of_all {depth n : Nat} {s t : S} {trace : Trace} (moves : 0 < n)
    (run : sem.steps? n s = some (trace, t))
    (all : ∀ i < n, 0 < i → (sem.steps? i s).all fun u => depth < sem.depth u.2) :
    sem.RunsAbove depth n s t := by
  refine ⟨moves, ⟨trace, run⟩, ?_⟩
  intro i before u pos short upTo
  simpa [upTo] using all i short pos

/-- A run above a depth stays inside what the first step leads into until it
leaves it, which it can do only at its end. -/
theorem RunsAbove.inside_or_left {Inside Left : S → Prop} {depth n : Nat} {s t : S}
    (above : sem.RunsAbove depth n s t)
    (first : ∀ events u, sem.step s = some (events, u) → Inside u)
    (next : ∀ u events v, Inside u → sem.step u = some (events, v) → Inside v ∨ Left v)
    (low : ∀ u, Left u → sem.depth u ≤ depth) : Inside t ∨ Left t := by
  obtain ⟨moves, ⟨trace, run⟩, above⟩ := above
  suffices upTo : ∀ i trace u, i < n → sem.steps? (i + 1) s = some (trace, u) →
      Inside u ∨ Left u by
    obtain ⟨n, rfl⟩ := Nat.exists_eq_add_of_lt moves
    rw [Nat.zero_add] at run upTo
    exact upTo n trace t (Nat.lt_succ_self n) run
  intro i
  induction i with
  | zero =>
      intro trace u _ run
      obtain ⟨events, next, rest, step, done, -⟩ := steps?_succ_eq_some_iff.mp run
      cases done
      exact .inl (first events _ step)
  | succ i ih =>
      intro trace v short run
      obtain ⟨before, u, events, upTo, step, -⟩ := steps?_succ_last.mp run
      rcases ih before u (by omega) upTo with inside | left
      · exact next u events v inside step
      · have deep := above (i + 1) before u (by omega) short upTo
        exact absurd (low u left) (by omega)

end LateIR.Semantics
