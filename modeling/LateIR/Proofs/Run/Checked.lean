import LateIR.Proofs.Run.Driving

/-!
Runs that check every transition. When each transition from a state that passes
the check is accepted, checking refuses nothing, and a run gives the same answer
with and without it (`run_checked`).
-/

namespace LateIR.Semantics

variable {S σ : Type} (sem : Semantics S)

/-- Whether the check accepts every transition of `move` from a state that
passes it. -/
def Accepts (move : σ → S → Option (Trace × S) × σ) : Prop :=
  ∀ h s events t, sem.check s = .ok () → (move h s).1 = some (events, t) →
    sem.checkStep s t = .ok ()

variable {sem} {move : σ → S → Option (Trace × S) × σ} {options : RunOptions}
  {budget steps : Nat} {trace : Array Event} {h : σ} {s : S}

/-- What the check of an interpreter is for: entry leads to states that pass it,
and every transition from such a state is accepted and is a move. -/
structure KeepsCheck (sem : Semantics S) (Move : S → S → Prop) : Prop where
  enter : ∀ m pointer args s, sem.enter m pointer args = .ok s → sem.check s = .ok ()
  step : ∀ s events t, sem.check s = .ok () → sem.step s = some (events, t) →
    sem.checkStep s t = .ok () ∧ Move s t
  resume : ∀ result m s t, sem.check s = .ok () → sem.resume? result m s = some t →
    sem.checkStep s t = .ok () ∧ Move s t
  /-- So a run from such a state reports no violation. -/
  sound : ∀ (options : RunOptions) s n v, sem.check s = .ok () →
    sem.run options s ≠ .error (.invariantViolation n v)
  /-- And checking does not change its answer. -/
  same : ∀ (options : RunOptions) s, sem.check s = .ok () →
    sem.run { options with checkInvariants := true } s =
      sem.run { options with checkInvariants := false } s

/-- Whether one stack is the other, or has one element more or less on top. -/
def StackMove {α : Type} (before after : List α) : Prop :=
  after = before ∨ (∃ top, after = top :: before) ∨ ∃ top, before = top :: after

theorem StackMove.near {α : Type} {before after : List α} (move : StackMove before after) :
    after.length ≤ before.length + 1 ∧ before.length ≤ after.length + 1 := by
  rcases move with rfl | ⟨top, rfl⟩ | ⟨top, rfl⟩ <;> simp <;> omega

theorem checkAfter_eq_ok_iff {depth : Nat} :
    sem.checkAfter depth s = .ok () ↔
      (sem.depth s ≤ depth + 1 ∧ depth ≤ sem.depth s + 1) ∧ sem.check s = .ok () := by
  unfold checkAfter
  split
  · rename_i far
    constructor
    · intro refused
      cases refused
    · rintro ⟨near, -⟩
      exact absurd far (by omega)
  · rename_i near
    constructor
    · intro passed
      exact ⟨by omega, passed⟩
    · rintro ⟨-, passed⟩
      exact passed

/-! ### Checked loops -/

theorem drive_checked (accepts : sem.Accepts move) (passed : sem.check s = .ok ()) :
    sem.drive move { options with checkInvariants := true } budget steps trace h s =
      sem.drive move { options with checkInvariants := false } budget steps trace h s := by
  induction budget, s using sem.loop_induction generalizing steps trace h with
  | final budget s n final => rw [drive_final final, drive_final final]
  | limit s going => rw [drive_zero going, drive_zero going]
  | next budget s going ih =>
      rw [drive_succ going, drive_succ going]
      cases moved : (move h s).1 with
      | none => rfl
      | some next =>
          obtain ⟨events, t⟩ := next
          have accepted := accepts h s events t passed moved
          have after : sem.checkAfter (sem.depth s) t = .ok () := accepted
          simp only [judge, if_true, after, Bool.false_eq_true, if_false]
          exact ih t (checkAfter_eq_ok_iff.mp after).2

/-- Without checks no violation is reported. -/
theorem drive_ne_invariantViolation {n : Nat} {v : Violation}
    (unchecked : options.checkInvariants = false) :
    (sem.drive move options budget steps trace h s).1 ≠ .error (.invariantViolation n v) := by
  induction budget, s using sem.loop_induction generalizing steps trace h with
  | final budget s n final => simp [drive_final final]
  | limit s going => simp [drive_zero going]
  | next budget s going ih =>
      rw [drive_succ going]
      cases moved : (move h s).1 with
      | none => cases returned : sem.returned? s <;> simp [judge, stopError]
      | some next =>
          simp only [judge, unchecked, Bool.false_eq_true, if_false]
          apply ih

/-! ### Runs -/

/-- Checking does not change the answer of a run. -/
theorem run_checked (options : RunOptions) (accepts : sem.Accepts fun () s => (sem.step s, ()))
    (passed : sem.check s = .ok ()) :
    sem.run { options with checkInvariants := true } s =
      sem.run { options with checkInvariants := false } s :=
  congrArg Prod.fst (drive_checked accepts passed)

theorem run_ne_invariantViolation (accepts : sem.Accepts fun () s => (sem.step s, ()))
    (passed : sem.check s = .ok ()) {n : Nat} {v : Violation} :
    sem.run options s ≠ .error (.invariantViolation n v) := by
  have unchecked : sem.run { options with checkInvariants := false } s ≠
      .error (.invariantViolation n v) := drive_ne_invariantViolation rfl
  obtain ⟨maxSteps, checkInvariants, collectTrace⟩ := options
  cases checkInvariants with
  | false => exact unchecked
  | true =>
      rw [run_checked ⟨maxSteps, true, collectTrace⟩ accepts passed]
      exact unchecked

/-- The last two promises of a check follow from the one about steps. -/
theorem keepsCheck_of {Move : S → S → Prop}
    (enter : ∀ m pointer args s, sem.enter m pointer args = .ok s → sem.check s = .ok ())
    (step : ∀ s events t, sem.check s = .ok () → sem.step s = some (events, t) →
      sem.checkStep s t = .ok () ∧ Move s t)
    (resume : ∀ result m s t, sem.check s = .ok () → sem.resume? result m s = some t →
      sem.checkStep s t = .ok () ∧ Move s t) : sem.KeepsCheck Move := by
  have accepts : sem.Accepts fun () s => (sem.step s, ()) := by
    intro _ s events t passed stepped
    exact (step s events t passed stepped).1
  refine ⟨enter, step, resume, ?_, ?_⟩
  · intro options s n v passed
    exact run_ne_invariantViolation accepts passed
  · intro options s passed
    exact run_checked options accepts passed

end LateIR.Semantics
