import LateIR.Operation
import Mathlib.Data.List.Forall2

/-!
What operators do with undefined operands and with pointers. Values are ordered by
definedness, `undefined` below every other value, and operators keep this order
(`Operation.eval?_mono`). An operator that does not take an address in the frame
makes no pointer to a block that its operands and the symbols do not point into
(`Operation.pointsInto_eval?`), and reads memory only to compare pointers
(`Operation.eval?_congr`).
-/

namespace LateIR

namespace Val

instance : LE Val := ⟨fun v w => v = .undefined ∨ v = w⟩

theorem le_refl (v : Val) : v ≤ v := .inr rfl

theorem undefined_le (v : Val) : .undefined ≤ v := .inl rfl

theorem loadResult_mono (c : Chunk) {v w : Val} (le : v ≤ w) : v.loadResult c ≤ w.loadResult c := by
  rcases le with rfl | rfl
  · apply Or.inl
    cases c <;> rfl
  · exact le_refl _

/-- Whether the value, if it is a pointer, points into one of the blocks. -/
def PointsInto (blocks : BlockId → Prop) : Val → Prop
  | ptr b _ => blocks b
  | _ => True

theorem pointsInto_true (v : Val) : v.PointsInto fun _ => True := by
  cases v <;> trivial

namespace PointsInto

variable {blocks blocks' : BlockId → Prop} {v w : Val}

theorem imp (more : ∀ b, blocks b → blocks' b) (points : v.PointsInto blocks) :
    v.PointsInto blocks' := by
  cases v with
  | ptr b ofs => exact more b points
  | _ => trivial

theorem loadResult (points : v.PointsInto blocks) (c : Chunk) :
    (v.loadResult c).PointsInto blocks := by
  cases c <;> cases v <;> trivial

theorem offsetPtr (points : v.PointsInto blocks) (delta : Int64) :
    (v.offsetPtr delta).PointsInto blocks := by
  cases v <;> trivial

theorem addLong (first : v.PointsInto blocks) (second : w.PointsInto blocks) :
    (v.addLong w).PointsInto blocks := by
  cases v <;> cases w <;> trivial

end PointsInto

end Val

namespace Operation

variable {symbols : Symbols} {sp : Val} {m : Mem} {o : Operation} {v : Val}

/-- A comparison whose condition is undecided is undefined if it has as many operands as it needs,
and stuck otherwise. -/
theorem eval?_cmp (cond : Condition) (args : List Val) :
    (cmp cond).eval? symbols sp m args =
      match cond.eval? m args with
      | some b => some (.ofBool b)
      | none => if args.length = cond.arity then some .undefined else none :=
  rfl

/-! ### Undefined operands -/

/-- A comparison with the right number of operands has a result. -/
theorem eval?_cmp_isSome {cond : Condition} {args : List Val} (fits : args.length = cond.arity) :
    ((cmp cond).eval? symbols sp m args).isSome := by
  simp only [eval?_cmp, fits, if_true]
  split <;> rfl

/-- An operator that accepts an undefined operand gives undefined for it, and
accepts any other. -/
theorem eval?_undefined (evaluated : o.eval? symbols sp m [.undefined] = some v) :
    v = .undefined ∧ ∀ a, (o.eval? symbols sp m [a]).isSome := by
  cases o with
  | move | addImm | neg | addLongImm | negLong | negFloat | intOfLong | longOfInt | floatOfInt =>
      cases evaluated
      exact ⟨rfl, fun _ => rfl⟩
  | lea addr =>
      cases addr with
      | indexed ofs =>
          cases evaluated
          exact ⟨rfl, fun _ => rfl⟩
      | _ => cases evaluated
  | cmp cond =>
      cases cond with
      | intImm | intUnsignedImm | longImm =>
          cases evaluated
          exact ⟨rfl, fun _ => eval?_cmp_isSome rfl⟩
      | _ => cases evaluated
  | _ => cases evaluated

/-- The same for the left one of two operands. Divisions accept no undefined operand, so they are
not among the operators here. -/
theorem eval?_undefined_left {b : Val}
    (evaluated : o.eval? symbols sp m [.undefined, b] = some v) :
    v = .undefined ∧ ∀ a b, (o.eval? symbols sp m [a, b]).isSome := by
  cases o with
  | add | sub | mul | and | or | xor | shl | shr | addLong | subLong | mulLong | addFloat
  | subFloat | mulFloat | divFloat =>
      cases evaluated
      exact ⟨rfl, fun _ _ => rfl⟩
  | lea addr =>
      cases addr with
      | indexed2 ofs =>
          cases evaluated
          exact ⟨rfl, fun _ _ => rfl⟩
      | _ => cases evaluated
  | cmp cond =>
      cases cond with
      | int | intUnsigned | long | longUnsigned | float | notFloat =>
          cases evaluated
          exact ⟨rfl, fun _ _ => eval?_cmp_isSome rfl⟩
      | _ => cases evaluated
  | _ => cases evaluated

theorem eval?_undefined_right {a : Val}
    (evaluated : o.eval? symbols sp m [a, .undefined] = some v) :
    v = .undefined ∧ ∀ a b, (o.eval? symbols sp m [a, b]).isSome := by
  cases o with
  | add | sub | mul | and | or | xor | shl | shr | addLong | subLong | mulLong | addFloat
  | subFloat | mulFloat | divFloat =>
      cases a <;> cases evaluated <;> exact ⟨rfl, fun _ _ => rfl⟩
  | lea addr =>
      cases addr with
      | indexed2 ofs => cases a <;> cases evaluated <;> exact ⟨rfl, fun _ _ => rfl⟩
      | _ => cases evaluated
  | cmp cond =>
      cases cond with
      | int | intUnsigned | long | longUnsigned | float | notFloat =>
          cases a <;> cases evaluated <;> exact ⟨rfl, fun _ _ => eval?_cmp_isSome rfl⟩
      | _ => cases evaluated
  | _ => cases a <;> cases evaluated

/-- No operator has three operands. -/
theorem eval?_three (a b c : Val) (rest : List Val) :
    o.eval? symbols sp m (a :: b :: c :: rest) = none := by
  cases o with
  | lea addr => cases addr <;> rfl
  | cmp cond =>
      have undecided : cond.eval? m (a :: b :: c :: rest) = none := by cases cond <;> rfl
      have few : cond.arity ≤ 2 := by
        unfold Condition.arity
        split <;> omega
      have tooMany : ¬ (a :: b :: c :: rest).length = cond.arity := by
        simp only [List.length_cons]
        omega
      simp only [eval?_cmp, undecided, tooMany, if_false]
  | _ => rfl

/-- More defined operands give a more defined result. -/
theorem eval?_mono {args args' : List Val} (le : List.Forall₂ (· ≤ ·) args args')
    (evaluated : o.eval? symbols sp m args = some v) :
    ∃ w, o.eval? symbols sp m args' = some w ∧ v ≤ w := by
  have known : ∀ {args}, v = .undefined → (o.eval? symbols sp m args).isSome →
      ∃ w, o.eval? symbols sp m args = some w ∧ v ≤ w := by
    rintro args rfl accepted
    obtain ⟨w, evaluated⟩ := Option.isSome_iff_exists.mp accepted
    exact ⟨w, evaluated, Val.undefined_le w⟩
  cases le with
  | nil => exact ⟨v, evaluated, Val.le_refl v⟩
  | cons first rest =>
      cases rest with
      | nil =>
          rcases first with rfl | rfl
          · obtain ⟨undefined, accepts⟩ := eval?_undefined evaluated
            exact known undefined (accepts _)
          · exact ⟨v, evaluated, Val.le_refl v⟩
      | cons second rest =>
          cases rest with
          | nil =>
              rcases first with rfl | rfl
              · obtain ⟨undefined, accepts⟩ := eval?_undefined_left evaluated
                exact known undefined (accepts _ _)
              · rcases second with rfl | rfl
                · obtain ⟨undefined, accepts⟩ := eval?_undefined_right evaluated
                  exact known undefined (accepts _ _)
                · exact ⟨v, evaluated, Val.le_refl v⟩
          | cons third rest =>
              rw [eval?_three] at evaluated
              cases evaluated

/-! ### Pointers -/

/-- Whether the operator takes an address in the current stack frame. -/
def addressesFrame : Operation → Bool
  | addrStack _ | lea (.stack _) => true
  | _ => false

variable {blocks : BlockId → Prop}

/-- The difference of two pointers is a number; a number taken from a pointer leaves it in its
block. -/
theorem pointsInto_subLong {a b : Val} (first : a.PointsInto blocks) :
    (a.subLong b).PointsInto blocks := by
  cases a with
  | ptr block ofs =>
      cases b with
      | ptr block' ofs' =>
          simp only [Val.subLong]
          split <;> trivial
      | _ => trivial
  | _ => cases b <;> trivial

theorem pointsInto_address? {name : String} {ofs : Int64}
    (globals : ∀ name b, symbols name = some b → blocks b)
    (found : symbols.address? name ofs = some v) : v.PointsInto blocks := by
  obtain ⟨b, here, rfl⟩ := Option.map_eq_some_iff.mp found
  exact globals name b here

/-- Comparisons give truth values. -/
theorem pointsInto_cmp {cond : Condition} {args : List Val}
    (evaluated : (cmp cond).eval? symbols sp m args = some v) : v.PointsInto blocks := by
  rw [eval?_cmp] at evaluated
  split at evaluated
  · cases evaluated
    trivial
  · obtain ⟨-, same⟩ := Option.ite_none_right_eq_some.mp evaluated
    cases same
    trivial

theorem pointsInto_divideInt? {overflows : Int32 → Int32 → Bool} {f : Int32 → Int32 → Int32}
    {a b : Val} (divided : Val.divideInt? overflows f a b = some v) : v.PointsInto blocks := by
  unfold Val.divideInt? at divided
  split at divided
  · obtain ⟨-, same⟩ := Option.ite_none_left_eq_some.mp divided
    cases same
    trivial
  · cases divided

theorem pointsInto_divLong? {a b : Val} (divided : a.divLong? b = some v) :
    v.PointsInto blocks := by
  unfold Val.divLong? at divided
  split at divided
  · obtain ⟨-, same⟩ := Option.ite_none_left_eq_some.mp divided
    cases same
    trivial
  · cases divided

theorem pointsInto_shift {f : Int32 → Int32 → Int32} {a b : Val} :
    (Val.shift f a b).PointsInto blocks := by
  unfold Val.shift
  split
  · split <;> trivial
  · trivial

theorem pointsInto_unary {a : Val} (outside : o.addressesFrame = false)
    (operand : a.PointsInto blocks) (evaluated : o.eval? symbols sp m [a] = some v) :
    v.PointsInto blocks := by
  cases o with
  | move =>
      cases evaluated
      exact operand
  | addLongImm n =>
      cases evaluated
      exact operand.addLong trivial
  | addImm | neg | negLong | negFloat | intOfLong | longOfInt | floatOfInt =>
      cases evaluated
      cases a <;> trivial
  | intOfFloat =>
      cases a with
      | float x =>
          obtain ⟨n, -, rfl⟩ := Option.map_eq_some_iff.mp evaluated
          trivial
      | _ => cases evaluated
  | lea addr =>
      cases addr with
      | indexed ofs =>
          cases evaluated
          exact operand.addLong trivial
      | _ => cases evaluated
  | cmp cond => exact pointsInto_cmp evaluated
  | _ => cases evaluated

theorem pointsInto_binary {a b : Val} (first : a.PointsInto blocks)
    (second : b.PointsInto blocks) (evaluated : o.eval? symbols sp m [a, b] = some v) :
    v.PointsInto blocks := by
  cases o with
  | addLong =>
      cases evaluated
      exact first.addLong second
  | subLong =>
      cases evaluated
      exact pointsInto_subLong first
  | add | sub | mul | and | or | xor | mulLong | addFloat | subFloat | mulFloat | divFloat =>
      cases evaluated
      cases a <;> cases b <;> trivial
  | shl | shr =>
      cases evaluated
      exact pointsInto_shift
  | div | mod | divUnsigned | modUnsigned => exact pointsInto_divideInt? evaluated
  | divLong => exact pointsInto_divLong? evaluated
  | lea addr =>
      cases addr with
      | indexed2 ofs =>
          cases evaluated
          exact (first.addLong second).addLong trivial
      | _ => cases evaluated
  | cmp cond => exact pointsInto_cmp evaluated
  | _ => cases evaluated

/-- Pointers come from the operands and the symbols. -/
theorem pointsInto_eval? {args : List Val} (outside : o.addressesFrame = false)
    (globals : ∀ name b, symbols name = some b → blocks b)
    (operands : ∀ a ∈ args, a.PointsInto blocks)
    (evaluated : o.eval? symbols sp m args = some v) : v.PointsInto blocks := by
  match args with
  | [] =>
      cases o with
      | intConst | longConst | floatConst | singleConst =>
          cases evaluated
          trivial
      | addrSymbol name ofs => exact pointsInto_address? globals evaluated
      | addrStack ofs => cases outside
      | lea addr =>
          cases addr with
          | global name ofs => exact pointsInto_address? globals evaluated
          | stack ofs => cases outside
          | _ => cases evaluated
      | cmp cond => exact pointsInto_cmp evaluated
      | _ => cases evaluated
  | [a] => exact pointsInto_unary outside (operands a (by simp)) evaluated
  | [a, b] => exact pointsInto_binary (operands a (by simp)) (operands b (by simp)) evaluated
  | a :: b :: c :: rest =>
      rw [eval?_three] at evaluated
      cases evaluated

/-! ### Memory -/

/-- Memory enters a comparison of pointers through the validity of the two pointers only. -/
theorem compareLongUnsigned?_congr {valid valid' : BlockId → Int → Bool} {c : Comparison}
    {a b : Val} (agree : ∀ b, blocks b → ∀ ofs, valid b ofs = valid' b ofs)
    (first : a.PointsInto blocks) (second : b.PointsInto blocks) :
    Val.compareLongUnsigned? valid c a b = Val.compareLongUnsigned? valid' c a b := by
  cases a with
  | ptr block ofs =>
      cases b with
      | ptr block' ofs' =>
          simp only [Val.compareLongUnsigned?, agree block first, agree block' second]
      | long n => simp only [Val.compareLongUnsigned?, Val.compareNull?, agree block first]
      | _ => rfl
  | long n =>
      cases b with
      | ptr block ofs => simp only [Val.compareLongUnsigned?, Val.compareNull?, agree block second]
      | _ => rfl
  | _ => rfl

theorem eval?_cond_congr {m' : Mem} {cond : Condition} {args : List Val}
    (agree : ∀ b, blocks b → ∀ ofs, m.validPointer b ofs = m'.validPointer b ofs)
    (operands : ∀ a ∈ args, a.PointsInto blocks) : cond.eval? m args = cond.eval? m' args := by
  cases cond with
  | longUnsigned c =>
      match args with
      | [a, b] =>
          exact compareLongUnsigned?_congr agree (operands a (by simp)) (operands b (by simp))
      | [] | [_] | _ :: _ :: _ :: _ => rfl
  | _ =>
      match args with
      | [] | [_] | [_, _] | _ :: _ :: _ :: _ => rfl

/-- An operator that does not take an address in the frame looks at memory only
to see which pointers are valid. -/
theorem eval?_congr {m' : Mem} {sp' : Val} {args : List Val} (outside : o.addressesFrame = false)
    (agree : ∀ b, blocks b → ∀ ofs, m.validPointer b ofs = m'.validPointer b ofs)
    (operands : ∀ a ∈ args, a.PointsInto blocks) :
    o.eval? symbols sp m args = o.eval? symbols sp' m' args := by
  cases o with
  | cmp cond => simp only [eval?_cmp, eval?_cond_congr agree operands]
  | addrStack ofs => cases outside
  | lea addr =>
      cases addr with
      | stack ofs => cases outside
      | _ =>
          match args with
          | [] | [_] | [_, _] | _ :: _ :: _ :: _ => rfl
  | _ =>
      match args with
      | [] | [_] | [_, _] | _ :: _ :: _ :: _ => rfl

end Operation

end LateIR
