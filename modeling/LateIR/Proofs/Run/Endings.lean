import LateIR.Proofs.Run.Driving
import Mathlib.Logic.ExistsUnique

/-!
How runs end, told by iterated steps. A run within a limit has one ending: it has
returned an integer or something else, it is stuck, or the limit is reached
(`existsUnique_ending`). The loop behind runs answers with that ending
(`run_eq_answer`), so that a higher limit changes an answer only if the limit was
reached, and keeping the events changes nothing else.
-/

namespace LateIR

/-- Why a run stops. -/
inductive Stop where
  | returned (n : Int32)
  /-- The outermost call returned a value that is not an integer. -/
  | notInteger (v : Val)
  | stuck
  /-- The limit was reached. -/
  | limit

/-- The transitions that a run takes, their events in order, and why it stops
after them. -/
structure Ending where
  steps : Nat
  trace : Trace
  stop : Stop

namespace Ending

/-- What a run with this ending answers. -/
def answer (options : RunOptions) (e : Ending) : Except Error RunOutcome :=
  match e.stop with
  | .returned n => .ok ⟨n, e.steps, if options.collectTrace then e.trace else []⟩
  | .notInteger v => .error (.invalidResult v)
  | .stuck => .error (.stuck e.steps)
  | .limit => .error (.stepLimit options.maxSteps)

/-- The ending with transitions and events before it. -/
def after (steps : Nat) (trace : Trace) (e : Ending) : Ending :=
  ⟨steps + e.steps, trace ++ e.trace, e.stop⟩

theorem after_after (n steps : Nat) (before trace : Trace) (e : Ending) :
    (e.after steps trace).after n before = e.after (n + steps) (before ++ trace) := by
  simp [after, Nat.add_assoc]

theorem answer_eq_stepLimit_iff {options : RunOptions} {e : Ending} {limit : Nat} :
    e.answer options = .error (.stepLimit limit) ↔
      e.stop = .limit ∧ limit = options.maxSteps := by
  obtain ⟨steps, trace, stop⟩ := e
  cases stop <;> simp [answer, @eq_comm _ limit]

/-- Away from the limit an answer depends on the limit no more. -/
theorem answer_of_ne_limit {options : RunOptions} {e : Ending} (before : e.stop ≠ .limit)
    (limit : Nat) : e.answer { options with maxSteps := limit } = e.answer options := by
  obtain ⟨steps, trace, stop⟩ := e
  cases stop with
  | limit => exact absurd rfl before
  | _ => rfl

end Ending

/-- The outcome but for its events. -/
def RunOutcome.withoutTrace (out : RunOutcome) : RunOutcome := { out with trace := [] }

namespace Semantics

variable {S : Type} (sem : Semantics S)

/-- Whether a run within the limit stops for the given reason at a state that it
reaches after `steps` transitions. -/
def StopsAt (limit steps : Nat) (t : S) : Stop → Prop
  | .returned n => steps ≤ limit ∧ sem.final? t = some n
  | .notInteger v => steps < limit ∧ sem.returned? t = some v ∧ ∀ n, v ≠ .int n
  | .stuck => steps < limit ∧ sem.step t = none ∧ sem.returned? t = none
  | .limit => steps = limit ∧ sem.final? t = none

/-- Whether a run from the state within the limit has the ending. -/
def EndsWith (limit : Nat) (s : S) (e : Ending) : Prop :=
  ∃ t, sem.steps? e.steps s = some (e.trace, t) ∧ sem.StopsAt limit e.steps t e.stop

/-- Whether what the outermost call returned stays returned. -/
def ReturnsLast : Prop := ∀ s v, sem.returned? s = some v → sem.step s = none

/-- Why a run within the limit would stop at the state after `steps` transitions. -/
def reason (limit steps : Nat) (t : S) : Stop :=
  match sem.returned? t with
  | some (.int n) => .returned n
  | some v => if steps < limit then .notInteger v else .limit
  | none => if steps < limit then .stuck else .limit

/-- A step that counts how often one is asked for. -/
def countedStep (count : Nat) (s : S) : Option (Trace × S) × Nat := (sem.step s, count + 1)

/-- Whether a run answers what iterated steps from the state determine. -/
structure AnswersBySteps (options : RunOptions) (s : S) : Prop where
  one : ∃! e, sem.EndsWith options.maxSteps s e
  answer : ∀ e, sem.EndsWith options.maxSteps s e → sem.run options s = e.answer options
  /-- The loop asks for a step at most as often as the limit says. -/
  bounded : ∃ count ≤ options.maxSteps,
    sem.drive sem.countedStep options options.maxSteps 0 #[] 0 s = (sem.run options s, count)
  raise : ∀ limit, options.maxSteps ≤ limit →
    sem.run options s ≠ .error (.stepLimit options.maxSteps) →
    sem.run { options with maxSteps := limit } s = sem.run options s
  collect : ∀ collect,
    (sem.run { options with collectTrace := collect } s).map RunOutcome.withoutTrace =
      (sem.run options s).map RunOutcome.withoutTrace

variable {sem} {options : RunOptions} {limit budget steps count : Nat} {trace : Array Event}
  {s t : S} {e e' : Ending} {stop stop' : Stop}

/-! ### One ending -/

theorem StopsAt.steps_le (stops : sem.StopsAt limit steps t stop) : steps ≤ limit := by
  cases stop <;> simp only [StopsAt] at stops <;> omega

/-- Where a run stops before the limit there is no step. -/
theorem StopsAt.step_eq_none (last : sem.ReturnsLast) (stops : sem.StopsAt limit steps t stop)
    (short : steps < limit) : sem.step t = none := by
  cases stop with
  | returned n => exact last t _ (final?_eq_some_iff.mp stops.2)
  | notInteger v => exact last t v stops.2.1
  | stuck => exact stops.2.1
  | limit => exact absurd stops.1 (Nat.ne_of_lt short)

/-- The reason to stop can be told from the state. -/
theorem StopsAt.eq_reason (stops : sem.StopsAt limit steps t stop) :
    stop = sem.reason limit steps t := by
  unfold reason
  cases stop with
  | returned n => rw [final?_eq_some_iff.mp stops.2]
  | notInteger v =>
      obtain ⟨short, returned, other⟩ := stops
      rw [returned]
      split
      · rename_i n same
        exact absurd (Option.some.inj same) (other n)
      · rename_i same
        cases same
        rw [if_pos short]
      · rename_i same
        cases same
  | stuck =>
      obtain ⟨short, -, returned⟩ := stops
      rw [returned]
      exact (if_pos short).symm
  | limit =>
      obtain ⟨reached, going⟩ := stops
      split
      · rename_i n returned
        exact absurd returned (returned?_ne_int going n)
      · rw [if_neg (Nat.not_lt.mpr (Nat.le_of_eq reached.symm))]
      · rw [if_neg (Nat.not_lt.mpr (Nat.le_of_eq reached.symm))]

/-- A run that goes on does not stop at the states on its way. -/
theorem EndsWith.steps_le (last : sem.ReturnsLast) (ends : sem.EndsWith limit s e)
    (ends' : sem.EndsWith limit s e') : e'.steps ≤ e.steps := by
  obtain ⟨t, run, stops⟩ := ends
  obtain ⟨t', run', stops'⟩ := ends'
  apply Nat.le_of_not_lt
  intro longer
  obtain ⟨more, same⟩ := Nat.exists_eq_add_of_lt longer
  rw [same, Nat.add_assoc] at run'
  obtain ⟨before, u, after, first, rest, -⟩ := steps?_add_eq_some_iff.mp run'
  cases run.symm.trans first
  obtain ⟨events, next, -, step, -⟩ := steps?_succ_eq_some_iff.mp rest
  have stepless := stops.step_eq_none last (Nat.lt_of_lt_of_le longer stops'.steps_le)
  rw [stepless] at step
  cases step

theorem EndsWith.unique (last : sem.ReturnsLast) (ends : sem.EndsWith limit s e)
    (ends' : sem.EndsWith limit s e') : e = e' := by
  have same := Nat.le_antisymm (ends'.steps_le last ends) (ends.steps_le last ends')
  obtain ⟨t, run, stops⟩ := ends
  obtain ⟨t', run', stops'⟩ := ends'
  obtain ⟨steps, trace, stop⟩ := e
  obtain ⟨steps', trace', stop'⟩ := e'
  cases same
  cases run.symm.trans run'
  exact congrArg (Ending.mk steps trace) (stops.eq_reason.trans stops'.eq_reason.symm)

/-! ### The answer of the loop -/

theorem StopsAt.succ (stops : sem.StopsAt limit steps t stop) :
    sem.StopsAt (limit + 1) (steps + 1) t stop := by
  cases stop with
  | returned n => exact ⟨Nat.succ_le_succ stops.1, stops.2⟩
  | notInteger v => exact ⟨Nat.succ_lt_succ stops.1, stops.2⟩
  | stuck => exact ⟨Nat.succ_lt_succ stops.1, stops.2⟩
  | limit => exact ⟨congrArg Nat.succ stops.1, stops.2⟩

/-- One more transition in front, and one more in the limit. -/
theorem EndsWith.cons {events : Trace} (step : sem.step s = some (events, t))
    (ends : sem.EndsWith limit t e) : sem.EndsWith (limit + 1) s (e.after 1 events) := by
  obtain ⟨u, run, stops⟩ := ends
  refine ⟨u, ?_, ?_⟩
  · show sem.steps? (1 + e.steps) s = some (events ++ e.trace, u)
    rw [Nat.add_comm]
    exact steps?_succ_eq_some_iff.mpr ⟨events, t, e.trace, step, run, rfl⟩
  · show sem.StopsAt (limit + 1) (1 + e.steps) u e.stop
    rw [Nat.add_comm 1]
    exact stops.succ

/-- The loop ends as the steps do. The events so far are those of the transitions
before. -/
theorem exists_drive_eq_answer (unchecked : options.checkInvariants = false) {events : Trace}
    (kept : trace.toList = if options.collectTrace then events else []) :
    ∃ e, sem.EndsWith budget s e ∧
      (sem.drive (fun () s => (sem.step s, ())) options budget steps trace () s).1 =
        (e.after steps events).answer options := by
  induction budget, s using sem.loop_induction generalizing steps trace events with
  | final budget s n final =>
      refine ⟨⟨0, [], .returned n⟩, ⟨s, rfl, Nat.zero_le _, final⟩, ?_⟩
      rw [drive_final final, kept]
      simp [Ending.after, Ending.answer]
  | limit s going =>
      refine ⟨⟨0, [], .limit⟩, ⟨s, rfl, rfl, going⟩, ?_⟩
      rw [drive_zero going]
      rfl
  | next budget s going ih =>
      rw [drive_succ going]
      cases step : sem.step s with
      | none =>
          cases returned : sem.returned? s with
          | none => exact ⟨⟨0, [], .stuck⟩, ⟨s, rfl, Nat.succ_pos _, step, returned⟩, rfl⟩
          | some v =>
              have other : ∀ n, v ≠ .int n := by
                rintro n rfl
                exact returned?_ne_int going n returned
              exact ⟨⟨0, [], .notInteger v⟩, ⟨s, rfl, Nat.succ_pos _, returned, other⟩, rfl⟩
      | some next =>
          obtain ⟨events', t⟩ := next
          simp only [judge, unchecked, Bool.false_eq_true, if_false]
          have kept' : (if options.collectTrace then trace ++ events' else trace).toList =
              if options.collectTrace then events ++ events' else [] := by
            split <;> rename_i collect <;> simp [kept, collect]
          obtain ⟨e, ends, same⟩ := ih t kept'
          refine ⟨e.after 1 events', ends.cons step, ?_⟩
          rw [same, Ending.after_after]

theorem exists_run_eq_answer (unchecked : options.checkInvariants = false) (s : S) :
    ∃ e, sem.EndsWith options.maxSteps s e ∧ sem.run options s = e.answer options := by
  have nothing : (#[] : Array Event).toList = if options.collectTrace then [] else [] :=
    (ite_self _).symm
  obtain ⟨e, ends, same⟩ := exists_drive_eq_answer unchecked nothing
  have whole : e.after 0 [] = e := by simp [Ending.after]
  rw [whole] at same
  exact ⟨e, ends, same⟩

theorem run_eq_answer (last : sem.ReturnsLast) (unchecked : options.checkInvariants = false)
    (ends : sem.EndsWith options.maxSteps s e) : sem.run options s = e.answer options := by
  obtain ⟨e', ends', same⟩ := exists_run_eq_answer unchecked s
  rw [ends.unique last ends', same]

theorem existsUnique_ending (last : sem.ReturnsLast) (unchecked : options.checkInvariants = false)
    (s : S) : ∃! e, sem.EndsWith options.maxSteps s e := by
  obtain ⟨e, ends, -⟩ := exists_run_eq_answer unchecked s
  exact ⟨e, ends, fun e' ends' => ends'.unique last ends⟩

/-! ### Other options -/

/-- A run that stops before the limit stops there under a higher one. -/
theorem EndsWith.of_le (before : e.stop ≠ .limit) (higher : limit ≤ budget)
    (ends : sem.EndsWith limit s e) : sem.EndsWith budget s e := by
  obtain ⟨t, run, stops⟩ := ends
  refine ⟨t, run, ?_⟩
  cases reason : e.stop with
  | returned n =>
      rw [reason] at stops
      exact ⟨Nat.le_trans stops.1 higher, stops.2⟩
  | notInteger v =>
      rw [reason] at stops
      exact ⟨Nat.lt_of_lt_of_le stops.1 higher, stops.2⟩
  | stuck =>
      rw [reason] at stops
      exact ⟨Nat.lt_of_lt_of_le stops.1 higher, stops.2⟩
  | limit => exact absurd reason before

/-- The loop asks for at most as many steps as its budget allows. -/
theorem exists_drive_count :
    ∃ more ≤ budget,
      (sem.drive sem.countedStep options budget steps trace count s).2 = count + more := by
  induction budget, s using sem.loop_induction generalizing steps trace count with
  | final budget s n final => exact ⟨0, Nat.zero_le _, by rw [drive_final final]; rfl⟩
  | limit s going => exact ⟨0, Nat.le_refl _, by rw [drive_zero going]; rfl⟩
  | next budget s going ih =>
      rw [drive_succ going]
      split
      · exact ⟨1, Nat.succ_le_succ (Nat.zero_le _), rfl⟩
      · rename_i events t _
        obtain ⟨more, le, same⟩ := ih t
        exact ⟨more + 1, Nat.succ_le_succ le, by rw [same]; simp only [countedStep]; omega⟩

/-- Counting does not change the answer. -/
theorem exists_drive_countedStep (options : RunOptions) (s : S) :
    ∃ count ≤ options.maxSteps,
      sem.drive sem.countedStep options options.maxSteps 0 #[] 0 s = (sem.run options s, count) := by
  obtain ⟨count, le, counted⟩ : ∃ more ≤ options.maxSteps,
      (sem.drive sem.countedStep options options.maxSteps 0 #[] 0 s).2 = 0 + more :=
    exists_drive_count
  have answered : (sem.drive sem.countedStep options options.maxSteps 0 #[] 0 s).1 =
      sem.run options s := drive_congr fun _ _ _ => rfl
  exact ⟨count, le, Prod.ext answered (counted.trans (Nat.zero_add count))⟩

theorem answersBySteps (last : sem.ReturnsLast) (unchecked : options.checkInvariants = false)
    (s : S) : sem.AnswersBySteps options s where
  one := existsUnique_ending last unchecked s
  answer e := run_eq_answer last unchecked
  bounded := exists_drive_countedStep options s
  raise limit higher finished := by
    obtain ⟨e, ends, same⟩ := exists_run_eq_answer unchecked s
    have before : e.stop ≠ .limit := by
      intro reached
      exact finished (same.trans (Ending.answer_eq_stepLimit_iff.mpr ⟨reached, rfl⟩))
    have later : sem.EndsWith limit s e := ends.of_le before higher
    rw [same, ← Ending.answer_of_ne_limit before limit]
    exact run_eq_answer last unchecked later
  collect collect := by
    obtain ⟨e, ends, same⟩ := exists_run_eq_answer unchecked s
    have other : sem.run { options with collectTrace := collect } s =
        e.answer { options with collectTrace := collect } := run_eq_answer last unchecked ends
    rw [same, other]
    obtain ⟨steps, trace, stop⟩ := e
    cases stop <;> rfl

end Semantics

end LateIR
