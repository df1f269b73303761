import LateIR.Builtin
import LateIR.Proofs.Definedness.Memory
import LateIR.Proofs.Program.GlobalEnv

/-!
Evaluation with more defined operands and in a more defined memory. An undefined
operand leaves a condition undecided, so a decision stays as it is; operators,
addresses and argument expressions of built-in calls get more defined values.
-/

namespace LateIR

/-! ### Lists of results -/

/-- A function that gives larger results does so for lists. -/
theorem mapM_mono {α : Type} {f g : α → Option Val} {as : List α} {vs : List Val}
    (mono : ∀ a v, f a = some v → ∃ w, g a = some w ∧ v ≤ w) (done : as.mapM f = some vs) :
    ∃ ws, as.mapM g = some ws ∧ List.Forall₂ (· ≤ ·) vs ws := by
  simp only [mapM_eq_some_iff] at done ⊢
  induction done with
  | nil => exact ⟨[], .nil, .nil⟩
  | cons here later ih =>
      obtain ⟨w, there, le⟩ := mono _ _ here
      obtain ⟨ws, rest, les⟩ := ih
      exact ⟨w :: ws, .cons there rest, .cons le les⟩

/-! ### Conditions and operators -/

theorem Condition.eval?_of_mem_undefined {m : Mem} {cond : Condition} {args : List Val}
    (mem : .undefined ∈ args) : cond.eval? m args = none := by
  match args with
  | [a] =>
      obtain rfl := List.mem_singleton.mp mem
      cases cond <;> rfl
  | [a, b] =>
      rcases List.mem_pair.mp mem with rfl | rfl
      · cases cond <;> cases b <;> rfl
      · cases cond <;> cases a <;> rfl
  | a :: b :: c :: rest => cases cond <;> rfl

section

variable {symbols : Symbols} {sp v : Val} {m m' : Mem} {args args' : List Val}

/-- A decision taken with less defined operands stands. -/
theorem Condition.eval?_mono (below : m.Below m') (le : List.Forall₂ (· ≤ ·) args args')
    {cond : Condition} {decision : Bool} (decided : cond.eval? m args = some decision) :
    cond.eval? m' args' = some decision := by
  rcases eq_or_mem_of_forall₂ Val.undefined le with rfl | mem
  · have agree : ∀ b : BlockId, True → ∀ ofs, m.validPointer b ofs = m'.validPointer b ofs := by
      intro b _ ofs
      rw [below.validPointer]
    rw [← decided, Operation.eval?_cond_congr agree fun a _ => a.pointsInto_true]
  · rw [eval?_of_mem_undefined mem] at decided
    cases decided

/-- Of memory an operator sees only which pointers are valid. -/
theorem Operation.eval?_eq_of_below (below : m.Below m') (o : Operation) :
    o.eval? symbols sp m args = o.eval? symbols sp m' args := by
  have agree : ∀ b : BlockId, True → ∀ ofs, m.validPointer b ofs = m'.validPointer b ofs := by
    intro b _ ofs
    rw [below.validPointer]
  cases inside : o.addressesFrame with
  | false => exact eval?_congr inside agree fun a _ => a.pointsInto_true
  | true =>
      cases o with
      | addrStack ofs =>
          match args with
          | [] | _ :: _ => rfl
      | lea addr => rfl
      | _ => cases inside

theorem Operation.eval?_mono_below (below : m.Below m') (le : List.Forall₂ (· ≤ ·) args args')
    {o : Operation} (evaluated : o.eval? symbols sp m args = some v) :
    ∃ w, o.eval? symbols sp m' args' = some w ∧ v ≤ w := by
  rw [o.eval?_eq_of_below below] at evaluated
  exact o.eval?_mono le evaluated

/-- An address is what the operator that computes it gives, in any memory. -/
theorem Addressing.eval?_mono (le : List.Forall₂ (· ≤ ·) args args') {addr : Addressing}
    (evaluated : addr.eval? symbols sp args = some v) :
    ∃ w, addr.eval? symbols sp args' = some w ∧ v ≤ w :=
  Operation.eval?_mono (o := .lea addr) (m := .empty) le evaluated

/-! ### Callees -/

/-- A callee that is found through less defined registers is found. -/
theorem GlobalEnv.resolve?_mono {F : Type} (env : GlobalEnv F) {get get' : Reg → Val}
    (more : ∀ r, get r ≤ get' r) {callee : Callee} {found : BlockId × FunDef F}
    (resolved : env.resolve? get callee = some found) : env.resolve? get' callee = some found := by
  cases callee with
  | reg r =>
      have here := (env.function?_eq_some_iff.mp resolved).1
      have same := (more r).resolve_left (by simp [here])
      rw [← resolved]
      exact congrArg env.function? same.symm
  | symbol name => exact resolved

/-! ### Argument expressions -/

theorem Val.addLong_mono {a a' b b' : Val} (first : a ≤ a') (second : b ≤ b') :
    a.addLong b ≤ a'.addLong b' := by
  rcases first with rfl | rfl
  · exact .inl rfl
  · rcases second with rfl | rfl
    · apply Or.inl
      cases a <;> rfl
    · exact le_refl _

theorem Val.longOfWords_mono {a a' b b' : Val} (first : a ≤ a') (second : b ≤ b') :
    a.longOfWords b ≤ a'.longOfWords b' := by
  rcases first with rfl | rfl
  · exact .inl rfl
  · rcases second with rfl | rfl
    · apply Or.inl
      cases a <;> rfl
    · exact le_refl _

namespace BuiltinArg

variable {L : Type} {read read' : L → Val}

theorem eval?_mono (below : m.Below m') (more : ∀ l, read l ≤ read' l) {arg : BuiltinArg L}
    (evaluated : arg.eval? symbols read sp m = some v) :
    ∃ w, arg.eval? symbols read' sp m' = some w ∧ v ≤ w := by
  induction arg generalizing v with
  | base l =>
      cases evaluated
      exact ⟨_, rfl, more l⟩
  | int | long | float | single | addrStack | addrGlobal => exact ⟨v, evaluated, Val.le_refl v⟩
  | loadStack chunk ofs => exact below.loadAt? (Val.le_refl _) evaluated
  | loadGlobal chunk name ofs =>
      obtain ⟨a, found, loaded⟩ := Option.bind_eq_some_iff.mp evaluated
      obtain ⟨w, loaded', le⟩ := below.loadAt? (Val.le_refl a) loaded
      exact ⟨w, Option.bind_eq_some_iff.mpr ⟨a, found, loaded'⟩, le⟩
  | splitLong high low ihHigh ihLow =>
      obtain ⟨h, high?, evaluated⟩ := Option.bind_eq_some_iff.mp evaluated
      obtain ⟨l, low?, same⟩ := Option.bind_eq_some_iff.mp evaluated
      cases same
      obtain ⟨h', high', leHigh⟩ := ihHigh high?
      obtain ⟨l', low', leLow⟩ := ihLow low?
      refine ⟨h'.longOfWords l', ?_, Val.longOfWords_mono leHigh leLow⟩
      simp [eval?, high', low']
  | addPtr a b ihA ihB =>
      obtain ⟨x, a?, evaluated⟩ := Option.bind_eq_some_iff.mp evaluated
      obtain ⟨y, b?, same⟩ := Option.bind_eq_some_iff.mp evaluated
      cases same
      obtain ⟨x', a', leA⟩ := ihA a?
      obtain ⟨y', b', leB⟩ := ihB b?
      refine ⟨x'.addLong y', ?_, Val.addLong_mono leA leB⟩
      simp [eval?, a', b']

theorem evalList?_mono (below : m.Below m') (more : ∀ l, read l ≤ read' l)
    {args : List (BuiltinArg L)} {vs : List Val}
    (evaluated : evalList? symbols read sp m args = some vs) :
    ∃ ws, evalList? symbols read' sp m' args = some ws ∧ List.Forall₂ (· ≤ ·) vs ws := by
  apply mapM_mono _ evaluated
  intro a v evaluated
  exact eval?_mono below more evaluated

end BuiltinArg

end

end LateIR
