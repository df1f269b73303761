import LateIR.Proofs.Definedness.Evaluation

/-!
Operators are strict, and have results unless they are known to fail. Nothing defined and no
decision comes from an undefined operand, and the wrong number of operands has no result. With
the right number, only divisions, the conversion of a number to an integer and the address of an
unknown symbol can be without one (`operators_strict`).
-/

namespace LateIR

variable {symbols : Symbols} {sp v : Val} {m : Mem} {args : List Val}

theorem Condition.eval?_eq_none_of_length_ne {cond : Condition}
    (wrong : args.length ≠ cond.arity) : cond.eval? m args = none := by
  cases cond with
  | intImm | intUnsignedImm | longImm =>
      match args with
      | [a] => exact absurd rfl wrong
      | [] | _ :: _ :: _ => rfl
  | _ =>
      match args with
      | [a, b] => exact absurd rfl wrong
      | [] | [_] | _ :: _ :: _ :: _ => rfl

theorem Addressing.eval?_eq_none_of_length_ne {addr : Addressing}
    (wrong : args.length ≠ addr.arity) : addr.eval? symbols sp args = none := by
  cases addr with
  | indexed ofs =>
      match args with
      | [a] => exact absurd rfl wrong
      | [] | _ :: _ :: _ => rfl
  | indexed2 ofs =>
      match args with
      | [a, b] => exact absurd rfl wrong
      | [] | [_] | _ :: _ :: _ :: _ => rfl
  | global | stack =>
      match args with
      | [] => exact absurd rfl wrong
      | _ :: _ => rfl

namespace Operation

/-- Number of arguments. -/
def arity : Operation → Nat
  | intConst _ | longConst _ | floatConst _ | singleConst _ | addrSymbol .. | addrStack _ => 0
  | move | addImm _ | neg | addLongImm _ | negLong | negFloat | intOfLong | longOfInt
  | floatOfInt | intOfFloat => 1
  | lea addr => addr.arity
  | cmp cond => cond.arity
  | _ => 2

/-- Whether the operator can be without a result although it has its arguments. -/
def MayFail (symbols : Symbols) : Operation → Prop
  | div | divUnsigned | mod | modUnsigned | divLong | intOfFloat => True
  | addrSymbol name _ | lea (.global name _) => symbols name = none
  | _ => False

variable {o : Operation}

/-! ### The number of operands -/

theorem eval?_eq_none_of_length_ne (wrong : args.length ≠ o.arity) :
    o.eval? symbols sp m args = none := by
  cases o with
  | lea addr => exact addr.eval?_eq_none_of_length_ne wrong
  | cmp cond =>
      rw [eval?_cmp, cond.eval?_eq_none_of_length_ne wrong]
      exact if_neg wrong
  | intConst | longConst | floatConst | singleConst | addrSymbol | addrStack =>
      match args with
      | [] => exact absurd rfl wrong
      | _ :: _ => rfl
  | move | addImm | neg | addLongImm | negLong | negFloat | intOfLong | longOfInt | floatOfInt
  | intOfFloat =>
      match args with
      | [a] => exact absurd rfl wrong
      | [] | _ :: _ :: _ => rfl
  | _ =>
      match args with
      | [a, b] => exact absurd rfl wrong
      | [] | [_] | _ :: _ :: _ :: _ => rfl

/-! ### Undefined operands -/

theorem eval?_of_mem_undefined (mem : .undefined ∈ args)
    (evaluated : o.eval? symbols sp m args = some v) : v = .undefined := by
  match args with
  | [a] =>
      obtain rfl := List.mem_singleton.mp mem
      exact (eval?_undefined evaluated).1
  | [a, b] =>
      rcases List.mem_pair.mp mem with rfl | rfl
      · exact (eval?_undefined_left evaluated).1
      · exact (eval?_undefined_right evaluated).1
  | a :: b :: c :: rest =>
      rw [eval?_three] at evaluated
      cases evaluated

theorem eval?_eq_none_or_undefined (mem : .undefined ∈ args) :
    o.eval? symbols sp m args = none ∨ o.eval? symbols sp m args = some .undefined := by
  cases evaluated : o.eval? symbols sp m args with
  | none => exact .inl rfl
  | some v => exact .inr (congrArg some (eval?_of_mem_undefined mem evaluated))

/-! ### Operators without a result -/

theorem mayFail_of_eval?_eq_none (fits : args.length = o.arity)
    (stuck : o.eval? symbols sp m args = none) : o.MayFail symbols := by
  cases o with
  | div | divUnsigned | mod | modUnsigned | divLong | intOfFloat => trivial
  | addrSymbol name ofs =>
      obtain rfl := List.length_eq_zero_iff.mp fits
      exact Option.map_eq_none_iff.mp stuck
  | lea addr =>
      cases addr with
      | global name ofs =>
          obtain rfl := List.length_eq_zero_iff.mp fits
          exact Option.map_eq_none_iff.mp stuck
      | stack ofs =>
          obtain rfl := List.length_eq_zero_iff.mp fits
          cases stuck
      | indexed ofs =>
          obtain ⟨a, rfl⟩ := List.length_eq_one_iff.mp fits
          cases stuck
      | indexed2 ofs =>
          obtain ⟨a, b, rfl⟩ := List.length_eq_two.mp fits
          cases stuck
  | cmp cond =>
      have decided : ((cmp cond).eval? symbols sp m args).isSome := eval?_cmp_isSome fits
      rw [stuck] at decided
      cases decided
  | intConst | longConst | floatConst | singleConst | addrStack =>
      obtain rfl := List.length_eq_zero_iff.mp fits
      cases stuck
  | move | addImm | neg | addLongImm | negLong | negFloat | intOfLong | longOfInt | floatOfInt =>
      obtain ⟨a, rfl⟩ := List.length_eq_one_iff.mp fits
      cases stuck
  | _ =>
      obtain ⟨a, b, rfl⟩ := List.length_eq_two.mp fits
      cases stuck

/-- An operator that may fail does so for some operands, undefined ones for instance. -/
theorem exists_eval?_eq_none (fails : o.MayFail symbols) :
    ∃ args, args.length = o.arity ∧ o.eval? symbols sp m args = none := by
  refine ⟨List.replicate o.arity .undefined, List.length_replicate, ?_⟩
  cases o with
  | div | divUnsigned | mod | modUnsigned | divLong | intOfFloat => rfl
  | addrSymbol name ofs => exact Option.map_eq_none_iff.mpr fails
  | lea addr =>
      cases addr with
      | global name ofs => exact Option.map_eq_none_iff.mpr fails
      | _ => cases fails
  | _ => cases fails

end Operation

/-- What comes of undefined operands, of the wrong number of operands, and of the right one. -/
theorem operators_strict (symbols : Symbols) (sp : Val) (m : Mem) (o : Operation)
    (cond : Condition) (addr : Addressing) (args : List Val) :
    (.undefined ∈ args →
      (o.eval? symbols sp m args = none ∨ o.eval? symbols sp m args = some .undefined) ∧
      (addr.eval? symbols sp args = none ∨ addr.eval? symbols sp args = some .undefined) ∧
      cond.eval? m args = none) ∧
    (args.length ≠ o.arity → o.eval? symbols sp m args = none) ∧
    (args.length ≠ addr.arity → addr.eval? symbols sp args = none) ∧
    (args.length ≠ cond.arity → cond.eval? m args = none) ∧
    (args.length = o.arity → o.eval? symbols sp m args = none → o.MayFail symbols) ∧
    (o.MayFail symbols → ∃ args, args.length = o.arity ∧ o.eval? symbols sp m args = none) ∧
    (args.length = cond.arity → ((Operation.cmp cond).eval? symbols sp m args).isSome) := by
  refine ⟨?_, Operation.eval?_eq_none_of_length_ne, Addressing.eval?_eq_none_of_length_ne,
    Condition.eval?_eq_none_of_length_ne, Operation.mayFail_of_eval?_eq_none,
    Operation.exists_eval?_eq_none, Operation.eval?_cmp_isSome⟩
  intro mem
  refine ⟨Operation.eval?_eq_none_or_undefined mem, ?_, Condition.eval?_of_mem_undefined mem⟩
  -- an address is what the operator that computes it gives
  exact Operation.eval?_eq_none_or_undefined (o := .lea addr) (m := m) mem

theorem operators_strict_div :
    ((Operation.div.eval? (fun _ => none) .null .empty [.undefined, .int 0] = none ∨
        Operation.div.eval? (fun _ => none) .null .empty [.undefined, .int 0] =
          some .undefined) ∧
      ((Addressing.indexed2 8).eval? (fun _ => none) .null [.undefined, .int 0] = none ∨
        (Addressing.indexed2 8).eval? (fun _ => none) .null [.undefined, .int 0] =
          some .undefined) ∧
      (Condition.int .lt).eval? .empty [.undefined, .int 0] = none) ∧
    Operation.div.eval? (fun _ => none) .null .empty [.int 1] = none ∧
    (Addressing.indexed2 8).eval? (fun _ => none) .null [.int 1] = none ∧
    (Condition.int .lt).eval? .empty [.int 1] = none ∧
    Operation.div.MayFail (fun _ => none) ∧
    (∃ args, args.length = Operation.div.arity ∧
      Operation.div.eval? (fun _ => none) .null .empty args = none) ∧
    ((Operation.cmp (.int .lt)).eval? (fun _ => none) .null .empty [.undefined, .int 0]).isSome := by
  obtain ⟨undefined, -, -, -, stuck, fails, compared⟩ := operators_strict (fun _ => none) .null
    .empty .div (.int .lt) (.indexed2 8) [.undefined, .int 0]
  obtain ⟨-, few, fewInAddress, fewCompared, -⟩ := operators_strict (fun _ => none) .null
    .empty .div (.int .lt) (.indexed2 8) [.int 1]
  exact ⟨undefined List.mem_cons_self, few (by decide), fewInAddress (by decide),
    fewCompared (by decide), stuck rfl rfl, fails trivial, compared rfl⟩

end LateIR
