import LateIR.Proofs.Renaming.Calls
import LateIR.Proofs.Run.Checked

/-!
Runs of states that correspond under a renaming of blocks. When steps from corresponding states
lead to corresponding states and show renamed events, a run of the second state gives the
answer of the first with its pointers renamed, as long as neither uses up the block numbers
(`Semantics.Renames.run`).
-/

namespace LateIR

variable {ρ : BlockId → BlockId}

/-- The error with the value in it renamed that a run reports. -/
def Error.rename (ρ : BlockId → BlockId) : Error → Error
  | invalidResult v => invalidResult (v.rename ρ)
  | e => e

/-- The outcome with the pointers in its trace renamed. -/
def RunOutcome.rename (ρ : BlockId → BlockId) (out : RunOutcome) : RunOutcome :=
  { out with trace := out.trace.map (Event.rename ρ) }

/-- The answer of a run with its pointers renamed. -/
def renameAnswer (ρ : BlockId → BlockId) : Except Error RunOutcome → Except Error RunOutcome
  | .ok out => .ok (out.rename ρ)
  | .error e => .error (e.rename ρ)

namespace Semantics

variable {S : Type} (sem : Semantics S)

/-- Whether there are block numbers left in each state in which a run of at most `n` steps
makes a step. -/
def HasRoom (n : Nat) (s : S) : Prop :=
  ∀ i < n, ∀ trace t, sem.steps? i s = some (trace, t) → (sem.mem t).nextBlock < Mem.blockLimit

/-- Transitions the second of which shows renamed events and leads to a related state. -/
structure RenamedMove (ρ : BlockId → BlockId) (R : S → S → Prop) (next next' : Trace × S) :
    Prop where
  events : next'.1 = next.1.map (Event.rename ρ)
  state : R next.2 next'.2

/-- Whether related states do the same up to the renaming. -/
structure Renames (ρ : BlockId → BlockId) (R : S → S → Prop) : Prop where
  step : ∀ s s', R s s' → (sem.mem s').nextBlock < Mem.blockLimit →
    Option.Rel (RenamedMove ρ R) (sem.step s) (sem.step s')
  returned? : ∀ s s', R s s' → sem.returned? s' = (sem.returned? s).map (Val.rename ρ)

variable {sem} {R : S → S → Prop} {options : RunOptions} {budget : Nat} {s s' : S}

theorem HasRoom.here (room : sem.HasRoom (budget + 1) s) :
    (sem.mem s).nextBlock < Mem.blockLimit :=
  room 0 (Nat.succ_pos budget) [] s rfl

theorem HasRoom.next {events : Trace} {t : S} (room : sem.HasRoom (budget + 1) s)
    (stepped : sem.step s = some (events, t)) : sem.HasRoom budget t := by
  intro i short before u upTo
  exact room (i + 1) (Nat.succ_lt_succ short) (events ++ before) u
    (steps?_succ_eq_some_iff.mpr ⟨events, t, before, stepped, upTo, rfl⟩)

/-- What is left can be checked by running to each of the states. -/
theorem hasRoom_of_all {n : Nat}
    (all : ∀ i < n, (sem.steps? i s).all fun u => (sem.mem u.2).nextBlock < Mem.blockLimit) :
    sem.HasRoom n s := by
  intro i short trace t upTo
  simpa [upTo] using all i short

namespace Renames

theorem final? (renames : sem.Renames ρ R) (related : R s s') : sem.final? s' = sem.final? s := by
  unfold Semantics.final?
  rw [renames.returned? s s' related]
  cases sem.returned? s with
  | none => rfl
  | some v => cases v <;> rfl

theorem stopError (renames : sem.Renames ρ R) (related : R s s') (steps : Nat) :
    Semantics.stopError steps (sem.returned? s') =
      (Semantics.stopError steps (sem.returned? s)).rename ρ := by
  rw [renames.returned? s s' related]
  cases sem.returned? s <;> rfl

/-- The loop without checks, with what has been traced so far renamed as well. -/
theorem drive (renames : sem.Renames ρ R) (unchecked : options.checkInvariants = false)
    (related : R s s') (room : sem.HasRoom budget s') (steps : Nat) (trace : Array Event) :
    (sem.drive (fun () s => (sem.step s, ())) options budget steps
        (trace.map (Event.rename ρ)) () s').1 =
      renameAnswer ρ
        (sem.drive (fun () s => (sem.step s, ())) options budget steps trace () s).1 := by
  induction budget, s using sem.loop_induction generalizing steps trace s' with
  | final budget s n final =>
      rw [drive_final final, drive_final ((renames.final? related).trans final)]
      simp [renameAnswer, RunOutcome.rename]
  | limit s going =>
      rw [drive_zero going, drive_zero ((renames.final? related).trans going)]
      rfl
  | next budget s going ih =>
      rw [drive_succ going, drive_succ ((renames.final? related).trans going)]
      have moved := renames.step s s' related room.here
      cases stepped : sem.step s with
      | none =>
          rw [stepped] at moved
          rw [eq_none_of_rel moved]
          exact congrArg Except.error (renames.stopError related steps)
      | some next =>
          obtain ⟨events, t⟩ := next
          obtain ⟨⟨events', t'⟩, stepped', rfl, related'⟩ := exists_of_rel moved stepped
          have traced : (trace ++ events).map (Event.rename ρ) =
              trace.map (Event.rename ρ) ++ events.map (Event.rename ρ) := by
            apply Array.toList_inj.mp
            simp
          simp only [stepped', judge, unchecked, Bool.false_eq_true, if_false]
          rw [← ih t related' (room.next stepped'), apply_ite (Array.map _), traced]

theorem run_unchecked (renames : sem.Renames ρ R) (unchecked : options.checkInvariants = false)
    (related : R s s') (room : sem.HasRoom options.maxSteps s') :
    sem.run options s' = renameAnswer ρ (sem.run options s) := by
  have driven := renames.drive unchecked related room 0 #[]
  rw [Array.map_empty] at driven
  exact driven

/-- A run of the second state gives the renamed answer, also when transitions are checked. -/
theorem run {Move : S → S → Prop} (renames : sem.Renames ρ R) (keeps : sem.KeepsCheck Move)
    (related : R s s') (passed : sem.check s = .ok ()) (passed' : sem.check s' = .ok ())
    (room : sem.HasRoom options.maxSteps s') :
    sem.run options s' = renameAnswer ρ (sem.run options s) := by
  cases checks : options.checkInvariants with
  | false => exact renames.run_unchecked checks related room
  | true =>
      obtain ⟨maxSteps, _, collectTrace⟩ := options
      cases checks
      have same := keeps.same ⟨maxSteps, true, collectTrace⟩ s passed
      have same' := keeps.same ⟨maxSteps, true, collectTrace⟩ s' passed'
      rw [same, same']
      exact renames.run_unchecked rfl related room

end Renames

end Semantics

end LateIR
