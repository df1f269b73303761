import LateIR.Proofs.Run.Steps
import LateIR.Run

/-!
The loop behind runs, by what the state has returned and what is left of the
budget. Two loops whose transitions are the same give the same answer, whatever
else their transitions keep track of (`drive_congr`).
-/

namespace LateIR.Semantics

variable {S σ τ : Type} {sem : Semantics S} {move : σ → S → Option (Trace × S) × σ}
  {options : RunOptions} {budget steps : Nat} {trace : Array Event} {h : σ} {s : S}

theorem drive_final {n : Int32} (final : sem.final? s = some n) :
    sem.drive move options budget steps trace h s = (.ok ⟨n, steps, trace.toList⟩, h) := by
  unfold drive
  rw [final?_eq_some_iff.mp final]

theorem returned?_ne_int (going : sem.final? s = none) (n : Int32) :
    sem.returned? s ≠ some (.int n) := by
  intro returned
  rw [final?_eq_some_iff.mpr returned] at going
  cases going

theorem drive_zero (going : sem.final? s = none) :
    sem.drive move options 0 steps trace h s = (.error (.stepLimit options.maxSteps), h) := by
  unfold drive
  split
  · rename_i returned
    exact absurd returned (returned?_ne_int going _)
  · rfl
  · rename_i same _
    cases same

theorem drive_succ (going : sem.final? s = none) :
    sem.drive move options (budget + 1) steps trace h s =
      match sem.judge options steps (if options.checkInvariants then sem.depth s else 0)
        (sem.returned? s) (move h s).1 with
      | .error e => (.error e, (move h s).2)
      | .ok (events, t) =>
          sem.drive move options budget (steps + 1)
            (if options.collectTrace then trace ++ events else trace) (move h s).2 t := by
  conv => lhs; unfold drive
  split
  · rename_i returned
    exact absurd returned (returned?_ne_int going _)
  · rename_i same _
    cases same
  · rename_i same _
    cases same
    rfl

/-- Cases of the loop: a final state, the budget used up, and one more transition. -/
theorem loop_induction (sem : Semantics S) {motive : Nat → S → Prop}
    (final : ∀ budget s n, sem.final? s = some n → motive budget s)
    (limit : ∀ s, sem.final? s = none → motive 0 s)
    (next : ∀ budget s, sem.final? s = none → (∀ t, motive budget t) → motive (budget + 1) s)
    (budget : Nat) (s : S) : motive budget s := by
  induction budget generalizing s with
  | zero =>
      cases returned : sem.final? s with
      | some n => exact final 0 s n returned
      | none => exact limit s returned
  | succ budget ih =>
      cases returned : sem.final? s with
      | some n => exact final (budget + 1) s n returned
      | none => exact next budget s returned ih

/-- The answer depends on the transitions alone. -/
theorem drive_congr {move' : τ → S → Option (Trace × S) × τ} {k : τ}
    (same : ∀ h k s, (move h s).1 = (move' k s).1) :
    (sem.drive move options budget steps trace h s).1 =
      (sem.drive move' options budget steps trace k s).1 := by
  induction budget, s using sem.loop_induction generalizing steps trace h k with
  | final budget s n final => rw [drive_final final, drive_final final]
  | limit s going => rw [drive_zero going, drive_zero going]
  | next budget s going ih =>
      rw [drive_succ going, drive_succ going, same h k s]
      split
      · rfl
      · apply ih

end LateIR.Semantics
