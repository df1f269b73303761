import LateIR.External
import LateIR.Proofs.Operation
import LateIR.Proofs.Program.GlobalEnv
import Mathlib.Logic.Function.Basic

/-!
Renaming the blocks that values name. Operators and conditions compare blocks for equality
only, and neither order them nor compute with them, so an injective renaming that leaves the
globals alone passes through them (`Operation.eval?_rename`, `Condition.eval?_rename`).
-/

namespace LateIR

variable {ρ : BlockId → BlockId}

namespace Val

/-- The value with the block of a pointer renamed. -/
def rename (ρ : BlockId → BlockId) : Val → Val
  | ptr b ofs => ptr (ρ b) ofs
  | v => v

theorem rename_injective (inj : Function.Injective ρ) : Function.Injective (rename ρ) := by
  intro v w same
  cases v <;> cases w <;> simp_all [rename, inj.eq_iff]

/-- A value whose block keeps its number is not changed. -/
theorem rename_eq_self {v : Val} (points : v.PointsInto fun b => ρ b = b) : v.rename ρ = v := by
  cases v with
  | ptr b ofs => exact congrArg (ptr · ofs) points
  | _ => rfl

@[simp] theorem hasType_rename (v : Val) (t : Typ) : (v.rename ρ).hasType t = v.hasType t := by
  cases v <;> cases t <;> rfl

@[simp] theorem isDefined_rename (v : Val) : (v.rename ρ).isDefined = v.isDefined := by
  cases v <;> rfl

/-- Cutting a value to a chunk keeps or drops a pointer whichever block it names. -/
theorem loadResult_rename (c : Chunk) (v : Val) :
    (v.rename ρ).loadResult c = (v.loadResult c).rename ρ := by
  cases c <;> cases v <;> rfl

/-- Equality of values is kept because the renaming tells apart the blocks that were different. -/
theorem numEq_rename (inj : Function.Injective ρ) (v w : Val) :
    (v.rename ρ).numEq (w.rename ρ) = v.numEq w := by
  cases v <;> cases w <;> simp [rename, Val.numEq, inj.eq_iff]

/-! ### Arithmetic -/

theorem offsetPtr_rename (v : Val) (delta : Int64) :
    (v.rename ρ).offsetPtr delta = (v.offsetPtr delta).rename ρ := by
  cases v <;> rfl

theorem addLong_rename (a b : Val) :
    (a.rename ρ).addLong (b.rename ρ) = (a.addLong b).rename ρ := by
  cases a <;> cases b <;> rfl

/-- Pointers subtract within one block only. The renaming has to be injective here, or two blocks
could become one and their difference defined. -/
theorem subLong_rename (inj : Function.Injective ρ) (a b : Val) :
    (a.rename ρ).subLong (b.rename ρ) = (a.subLong b).rename ρ := by
  cases a with
  | ptr block ofs =>
      cases b with
      | ptr block' ofs' =>
          simp only [rename, subLong, inj.eq_iff]
          split <;> rfl
      | _ => rfl
  | _ => cases b <;> rfl

theorem liftInt_rename (f : Int32 → Int32 → Int32) (a b : Val) :
    liftInt f (a.rename ρ) (b.rename ρ) = (liftInt f a b).rename ρ := by
  cases a <;> cases b <;> rfl

theorem liftLong_rename (f : Int64 → Int64 → Int64) (a b : Val) :
    liftLong f (a.rename ρ) (b.rename ρ) = (liftLong f a b).rename ρ := by
  cases a <;> cases b <;> rfl

theorem liftFloat_rename (f : Binary64 → Binary64 → Binary64) (a b : Val) :
    liftFloat f (a.rename ρ) (b.rename ρ) = (liftFloat f a b).rename ρ := by
  cases a <;> cases b <;> rfl

theorem shift_rename (f : Int32 → Int32 → Int32) (a b : Val) :
    shift f (a.rename ρ) (b.rename ρ) = (shift f a b).rename ρ := by
  cases a with
  | int m =>
      cases b with
      | int n =>
          simp only [rename, shift]
          split <;> rfl
      | _ => rfl
  | _ => cases b <;> rfl

/-- All four divisions of words; which operands they refuse does not involve pointers. -/
theorem divideInt?_rename (overflows : Int32 → Int32 → Bool) (f : Int32 → Int32 → Int32)
    (a b : Val) :
    divideInt? overflows f (a.rename ρ) (b.rename ρ) =
      (divideInt? overflows f a b).map (rename ρ) := by
  cases a with
  | int m =>
      cases b with
      | int n =>
          simp only [rename, divideInt?]
          split <;> rfl
      | _ => rfl
  | _ => cases b <;> rfl

theorem divLong?_rename (a b : Val) :
    (a.rename ρ).divLong? (b.rename ρ) = (a.divLong? b).map (rename ρ) := by
  cases a with
  | long m =>
      cases b with
      | long n =>
          simp only [rename, divLong?]
          split <;> rfl
      | _ => rfl
  | _ => cases b <;> rfl

theorem highWord_rename (v : Val) : (v.rename ρ).highWord = v.highWord.rename ρ := by
  cases v <;> rfl

theorem lowWord_rename (v : Val) : (v.rename ρ).lowWord = v.lowWord.rename ρ := by
  cases v <;> rfl

theorem intOfFloat?_rename (v : Val) :
    (v.rename ρ).intOfFloat? = v.intOfFloat?.map (rename ρ) := by
  cases v with
  | float x =>
      simp only [rename, intOfFloat?]
      cases x.toInt32? <;> rfl
  | _ => rfl

theorem longOfWords_rename (high low : Val) :
    (high.rename ρ).longOfWords (low.rename ρ) = (high.longOfWords low).rename ρ := by
  cases high <;> cases low <;> rfl

/-! ### Comparison -/

/-- Pointers compare through the equality of their blocks and whether they are valid in memory, so
the two memories have to agree on that up to the renaming. -/
theorem compareLongUnsigned?_rename (inj : Function.Injective ρ)
    {valid valid' : BlockId → Int → Bool}
    (agree : ∀ b ofs, valid' (ρ b) ofs = valid b ofs) (c : Comparison) (a b : Val) :
    compareLongUnsigned? valid' c (a.rename ρ) (b.rename ρ) = compareLongUnsigned? valid c a b := by
  cases a with
  | ptr block ofs =>
      cases b with
      | ptr block' ofs' => simp only [rename, compareLongUnsigned?, agree, inj.eq_iff]
      | long n => simp only [rename, compareLongUnsigned?, compareNull?, agree]
      | _ => rfl
  | long m =>
      cases b with
      | ptr block ofs => simp only [rename, compareLongUnsigned?, compareNull?, agree]
      | _ => rfl
  | _ => cases b <;> rfl

end Val

/-- Whether arguments fit a signature is a matter of their types. -/
theorem Signature.accepts_rename (s : Signature) (args : List Val) :
    s.accepts (args.map (Val.rename ρ)) = s.accepts args := by
  simp [accepts, List.zip_map_left, List.all_map, Function.comp_def]

/-! ### Conditions and operators -/

section

variable {symbols : Symbols} {m m' : Mem}

/-- A condition decides the same on renamed operands, or is undefined on both. -/
theorem Condition.eval?_rename (inj : Function.Injective ρ)
    (agree : ∀ b ofs, m'.validPointer (ρ b) ofs = m.validPointer b ofs) (cond : Condition)
    (args : List Val) : cond.eval? m' (args.map (Val.rename ρ)) = cond.eval? m args := by
  match args with
  | [] => cases cond <;> rfl
  | [a] => cases cond <;> cases a <;> rfl
  | [a, b] =>
      cases cond with
      | longUnsigned c => exact Val.compareLongUnsigned?_rename inj agree c a b
      | _ => cases a <;> cases b <;> rfl
  | a :: b :: c :: rest => cases cond <;> rfl

/-- The address of a symbol is not changed, since the blocks of globals keep their numbers. -/
theorem Symbols.address?_rename (fixed : ∀ name b, symbols name = some b → ρ b = b) (name : String)
    (ofs : Int64) : (symbols.address? name ofs).map (Val.rename ρ) = symbols.address? name ofs := by
  unfold address?
  cases found : symbols name with
  | none => rfl
  | some b => simp [Val.rename, fixed name b found]

/-- An address computed from renamed operands and a renamed stack pointer is the renamed address. -/
theorem Addressing.eval?_rename (fixed : ∀ name b, symbols name = some b → ρ b = b) (sp : Val)
    (addr : Addressing) (args : List Val) :
    addr.eval? symbols (sp.rename ρ) (args.map (Val.rename ρ)) =
      (addr.eval? symbols sp args).map (Val.rename ρ) := by
  match args with
  | [] =>
      cases addr with
      | global name ofs => exact (Symbols.address?_rename fixed name ofs).symm
      | stack ofs => exact congrArg some (sp.offsetPtr_rename ofs)
      | _ => rfl
  | [a] =>
      cases addr with
      | indexed ofs => exact congrArg some (a.addLong_rename (.long ofs))
      | _ => rfl
  | [a, b] =>
      cases addr with
      | indexed2 ofs =>
          have sum := (a.addLong b).addLong_rename (ρ := ρ) (.long ofs)
          rw [← a.addLong_rename b] at sum
          exact congrArg some sum
      | _ => rfl
  | a :: b :: c :: rest => cases addr <;> rfl

theorem Operation.eval?_cmp_rename (inj : Function.Injective ρ)
    (agree : ∀ b ofs, m'.validPointer (ρ b) ofs = m.validPointer b ofs) (sp : Val)
    (cond : Condition) (args : List Val) :
    (cmp cond).eval? symbols (sp.rename ρ) m' (args.map (Val.rename ρ)) =
      ((cmp cond).eval? symbols sp m args).map (Val.rename ρ) := by
  simp only [eval?_cmp, cond.eval?_rename inj agree, List.length_map]
  cases cond.eval? m args with
  | some decision => rfl
  | none =>
      show (if args.length = cond.arity then _ else _) = _
      split <;> rfl

/-- The result for renamed operands is the renamed result. -/
theorem Operation.eval?_rename (inj : Function.Injective ρ)
    (fixed : ∀ name b, symbols name = some b → ρ b = b)
    (agree : ∀ b ofs, m'.validPointer (ρ b) ofs = m.validPointer b ofs) (sp : Val)
    (o : Operation) (args : List Val) :
    o.eval? symbols (sp.rename ρ) m' (args.map (Val.rename ρ)) =
      (o.eval? symbols sp m args).map (Val.rename ρ) := by
  match args with
  | [] =>
      cases o with
      | addrSymbol name ofs => exact (Symbols.address?_rename fixed name ofs).symm
      | addrStack ofs => exact congrArg some (sp.offsetPtr_rename ofs)
      | lea addr => exact addr.eval?_rename fixed sp []
      | cmp cond => exact eval?_cmp_rename inj agree sp cond []
      | _ => rfl
  | [a] =>
      cases o with
      | lea addr => exact addr.eval?_rename fixed sp [a]
      | cmp cond => exact eval?_cmp_rename inj agree sp cond [a]
      | addImm n => exact congrArg some (Val.liftInt_rename _ a (.int n))
      | addLongImm n => exact congrArg some (a.addLong_rename (.long n))
      | intOfFloat => exact a.intOfFloat?_rename
      | neg | negLong | negFloat | intOfLong | longOfInt | floatOfInt => cases a <;> rfl
      | _ => rfl
  | [a, b] =>
      cases o with
      | lea addr => exact addr.eval?_rename fixed sp [a, b]
      | cmp cond => exact eval?_cmp_rename inj agree sp cond [a, b]
      | add | sub | mul | and | or | xor => exact congrArg some (Val.liftInt_rename _ a b)
      | div | divUnsigned | mod | modUnsigned => exact Val.divideInt?_rename _ _ a b
      | shl | shr => exact congrArg some (Val.shift_rename _ a b)
      | addLong => exact congrArg some (a.addLong_rename b)
      | subLong => exact congrArg some (Val.subLong_rename inj a b)
      | mulLong => exact congrArg some (Val.liftLong_rename _ a b)
      | divLong => exact a.divLong?_rename b
      | addFloat | subFloat | mulFloat | divFloat =>
          exact congrArg some (Val.liftFloat_rename _ a b)
      | _ => rfl
  | a :: b :: c :: rest =>
      rw [eval?_three, List.map_cons, List.map_cons, List.map_cons, eval?_three, Option.map_none]

end

end LateIR
