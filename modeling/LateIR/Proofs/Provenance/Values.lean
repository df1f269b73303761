import LateIR.Builtin
import LateIR.Proofs.Convention.Boundary
import LateIR.Proofs.Convention.Placement
import LateIR.Proofs.Program.GlobalEnv
import LateIR.Proofs.Provenance.Memory

/-!
Where the pointers in registers and slots point. An operator, an address and an
argument expression make pointers from their operands, the stack pointer, the
symbols and memory only; writes to locations and calls move values around.
-/

namespace LateIR

variable {blocks blocks' : BlockId → Prop}

/-! ### Evaluation -/

section

variable {symbols : Symbols} {sp v : Val} {m : Mem} {args : List Val}

/-- Also an operator that takes an address in the frame makes pointers from what
it is given. -/
theorem Operation.pointsInto_result {o : Operation}
    (globals : ∀ name b, symbols name = some b → blocks b) (frame : sp.PointsInto blocks)
    (operands : ∀ a ∈ args, a.PointsInto blocks)
    (evaluated : o.eval? symbols sp m args = some v) : v.PointsInto blocks := by
  cases inside : o.addressesFrame with
  | false => exact pointsInto_eval? inside globals operands evaluated
  | true =>
      cases o with
      | addrStack ofs =>
          match args with
          | [] =>
              cases evaluated
              exact frame.offsetPtr ofs
          | _ :: _ => cases evaluated
      | lea addr =>
          cases addr with
          | stack ofs =>
              match args with
              | [] =>
                  cases evaluated
                  exact frame.offsetPtr ofs
              | _ :: _ => cases evaluated
          | _ => cases inside
      | _ => cases inside

/-- Two words make a long or an undefined value, never a pointer. -/
theorem Val.pointsInto_longOfWords (high low : Val) : (high.longOfWords low).PointsInto blocks := by
  cases high <;> cases low <;> trivial

namespace BuiltinArg

variable {L : Type} {read : L → Val}

/-- An argument expression gives a pointer it has read from a location or from memory, or the
address of a symbol or of the frame. -/
theorem pointsInto_eval? (globals : ∀ name b, symbols name = some b → blocks b)
    (frame : sp.PointsInto blocks) (values : ∀ l, (read l).PointsInto blocks)
    (bytes : m.PointsInto blocks) {arg : BuiltinArg L}
    (evaluated : arg.eval? symbols read sp m = some v) : v.PointsInto blocks := by
  induction arg generalizing v with
  | base l =>
      cases evaluated
      exact values l
  | int | long | float | single =>
      cases evaluated
      trivial
  | loadStack chunk ofs => exact bytes.loadAt? evaluated
  | addrStack ofs =>
      cases evaluated
      exact frame.offsetPtr ofs
  | loadGlobal chunk name ofs =>
      obtain ⟨a, -, loaded⟩ := Option.bind_eq_some_iff.mp evaluated
      exact bytes.loadAt? loaded
  | addrGlobal name ofs => exact Operation.pointsInto_address? globals evaluated
  | splitLong high low =>
      obtain ⟨h, -, evaluated⟩ := Option.bind_eq_some_iff.mp evaluated
      obtain ⟨l, -, same⟩ := Option.bind_eq_some_iff.mp evaluated
      cases same
      exact Val.pointsInto_longOfWords h l
  | addPtr a b ihA ihB =>
      obtain ⟨x, first, evaluated⟩ := Option.bind_eq_some_iff.mp evaluated
      obtain ⟨y, second, same⟩ := Option.bind_eq_some_iff.mp evaluated
      cases same
      exact (ihA first).addLong (ihB second)

theorem pointsInto_evalList? (globals : ∀ name b, symbols name = some b → blocks b)
    (frame : sp.PointsInto blocks) (values : ∀ l, (read l).PointsInto blocks)
    (bytes : m.PointsInto blocks) {exprs : List (BuiltinArg L)}
    (evaluated : evalList? symbols read sp m exprs = some args) :
    ∀ a ∈ args, a.PointsInto blocks := by
  intro a mem
  obtain ⟨expr, -, here⟩ := exists_of_mem_mapM evaluated mem
  exact pointsInto_eval? globals frame values bytes here

end BuiltinArg

end

/-- The halves of a long are no pointers. -/
theorem BuiltinRes.pointsInto_writes (res : BuiltinRes) {v : Val} (points : v.PointsInto blocks) :
    ∀ write ∈ res.writes v, write.2.PointsInto blocks := by
  cases res with
  | into place =>
      cases place with
      | whole r => simpa [writes, Split.writes] using points
      | halves high low =>
          have parts : v.highWord.PointsInto blocks ∧ v.lowWord.PointsInto blocks := by
            cases v <;> exact ⟨trivial, trivial⟩
          simpa [writes, Split.writes] using parts
  | nowhere => exact fun write mem => absurd mem List.not_mem_nil

/-! ### Registers -/

namespace RegFile

/-- Whether every pointer in a register points into one of the blocks. -/
structure PointsInto (blocks : BlockId → Prop) (file : RegFile) : Prop where
  get : ∀ r, (file.get r).PointsInto blocks

namespace PointsInto

variable {file : RegFile} {v : Val}

theorem empty : RegFile.empty.PointsInto blocks where
  get r := by
    rw [get_empty]
    trivial

theorem imp (more : ∀ b, blocks b → blocks' b) (points : file.PointsInto blocks) :
    file.PointsInto blocks' :=
  ⟨fun r => (points.get r).imp more⟩

theorem read (points : file.PointsInto blocks) (rs : List Reg) :
    ∀ a ∈ file.read rs, a.PointsInto blocks := by
  intro a mem
  obtain ⟨r, -, rfl⟩ := List.mem_map.mp mem
  exact points.get r

theorem set (points : file.PointsInto blocks) (r : Reg) (given : v.PointsInto blocks) :
    (file.set r v).PointsInto blocks where
  get s := by
    rw [get_set]
    split
    · exact given
    · exact points.get s

/-- A clobbered register holds no pointer. -/
theorem clobber (points : file.PointsInto blocks) (rs : List Reg) :
    (file.clobber rs).PointsInto blocks where
  get r := by
    rw [get_clobber]
    split
    · trivial
    · exact points.get r

theorem setAll (points : file.PointsInto blocks) {writes : List (Reg × Val)}
    (given : ∀ write ∈ writes, write.2.PointsInto blocks) : (file.setAll writes).PointsInto blocks := by
  induction writes generalizing file with
  | nil => exact points
  | cons write rest ih =>
      obtain ⟨r, v⟩ := write
      obtain ⟨first, later⟩ := List.forall_mem_cons.mp given
      exact ih (points.set r first) later

/-- The one register that an external call fills holds its result. -/
theorem afterExternal (points : file.PointsInto blocks) (s : Signature)
    (given : v.PointsInto blocks) : (file.afterExternal s v).PointsInto blocks :=
  (points.clobber callerSaved).set s.resultReg given

end PointsInto

end RegFile

/-! ### Location states -/

namespace LocState

/-- Whether every pointer in a location points into one of the blocks. -/
structure PointsInto (blocks : BlockId → Prop) (ls : LocState) : Prop where
  get : ∀ l, (ls.get l).PointsInto blocks

namespace PointsInto

variable {ls callee : LocState} {v : Val}

theorem empty : LocState.empty.PointsInto blocks where
  get l := by
    cases l with
    | reg r => exact RegFile.PointsInto.empty.get r
    | slot kind ofs t => trivial

theorem imp (more : ∀ b, blocks b → blocks' b) (points : ls.PointsInto blocks) :
    ls.PointsInto blocks' :=
  ⟨fun l => (points.get l).imp more⟩

theorem regs (points : ls.PointsInto blocks) : ls.regs.PointsInto blocks :=
  ⟨fun r => points.get (.reg r)⟩

theorem getSlot (points : ls.PointsInto blocks) (kind : SlotKind) (ofs : Int) (t : Typ) :
    (ls.getSlot kind ofs t).PointsInto blocks :=
  points.get (.slot kind ofs t)

theorem args (points : ls.PointsInto blocks) (s : Signature) :
    ∀ a ∈ ls.args s, a.PointsInto blocks := by
  intro a mem
  obtain ⟨l, -, rfl⟩ := List.mem_map.mp mem
  exact points.get l

theorem withRegs (points : ls.PointsInto blocks) {file : RegFile} (given : file.PointsInto blocks) :
    LocState.PointsInto blocks { ls with regs := file } where
  get l := by
    cases l with
    | reg r => exact given.get r
    | slot kind ofs t => exact points.getSlot kind ofs t

theorem clobber (points : ls.PointsInto blocks) (rs : List Reg) :
    (ls.clobber rs).PointsInto blocks :=
  points.withRegs (points.regs.clobber rs)

theorem setReg (points : ls.PointsInto blocks) (r : Reg) (given : v.PointsInto blocks) :
    (ls.setReg r v).PointsInto blocks :=
  points.withRegs (points.regs.set r given)

theorem setRegs (points : ls.PointsInto blocks) {writes : List (Reg × Val)}
    (given : ∀ write ∈ writes, write.2.PointsInto blocks) : (ls.setRegs writes).PointsInto blocks :=
  points.withRegs (points.regs.setAll given)

theorem afterExternal (points : ls.PointsInto blocks) (s : Signature)
    (given : v.PointsInto blocks) : (ls.afterExternal s v).PointsInto blocks :=
  points.withRegs (points.regs.afterExternal s given)

/-- A write to a slot puts the value in it and evicts what it overlaps, so a load finds the value,
nothing, or what was there. The slot has to end before the largest offset for that. -/
theorem setSlot (points : ls.PointsInto blocks) {kind : SlotKind} {ofs : Int} {t : Typ}
    (small : ofs < Loc.maxOffset) (given : v.PointsInto blocks) :
    (ls.setSlot kind ofs t v).PointsInto blocks where
  get l := by
    cases l with
    | reg r =>
        show ((ls.setSlot kind ofs t v).regs.get r).PointsInto blocks
        rw [regs_setSlot]
        exact points.regs.get r
    | slot kind' ofs' t' =>
        show ((ls.setSlot kind ofs t v).getSlot kind' ofs' t').PointsInto blocks
        by_cases same : kind' = kind
        · subst same
          rw [getSlot_setSlot _ _ small]
          split
          · exact given.loadResult _
          · split
            · trivial
            · exact points.getSlot kind' ofs' t'
        · rw [getSlot_setSlot_other _ same]
          exact points.getSlot kind' ofs' t'

/-- A callee sees the outgoing slots of its caller and no other slots. -/
theorem atCall (points : ls.PointsInto blocks) : ls.atCall.PointsInto blocks where
  get l := by
    cases l with
    | reg r => exact points.regs.get r
    | slot kind ofs t =>
        show (ls.atCall.getSlot kind ofs t).PointsInto blocks
        rw [getSlot_atCall]
        split
        · exact points.getSlot .outgoing ofs t
        · trivial

/-- Registers after a return are those of the caller or of the callee. Slots are those of the caller
but for the outgoing ones. -/
theorem afterReturn (points : ls.PointsInto blocks) (inner : callee.PointsInto blocks) :
    (ls.afterReturn callee).PointsInto blocks where
  get l := by
    cases l with
    | reg r =>
        show ((ls.regs.afterReturn callee.regs).get r).PointsInto blocks
        rw [RegFile.get_afterReturn]
        split
        · exact points.regs.get r
        · exact inner.regs.get r
    | slot kind ofs t =>
        show ((ls.afterReturn callee).getSlot kind ofs t).PointsInto blocks
        rw [getSlot_afterReturn]
        split
        · trivial
        · exact points.getSlot kind ofs t

/-- Arguments are put where they are passed, cut to the types of their slots. -/
theorem placeArgs (points : ls.PointsInto blocks) {placed : List (Loc × Val)}
    (given : ∀ arg ∈ placed, arg.2.PointsInto blocks) {after : LocState}
    (done : ls.placeArgs placed = .ok after) : after.PointsInto blocks := by
  induction placed generalizing ls with
  | nil =>
      cases done
      exact points
  | cons arg rest ih =>
      obtain ⟨l, v⟩ := arg
      obtain ⟨first, later⟩ := List.forall_mem_cons.mp given
      obtain ⟨⟨⟩, inside, done⟩ := bind_eq_ok_iff.mp done
      cases l with
      | reg r => exact ih (points.setReg r first) later done
      | slot kind ofs t =>
          have small := Loc.lt_maxOffset_of_inRange (Loc.inRange_of_checkOutgoing inside)
          exact ih (points.setSlot small first) later done

end PointsInto

end LocState

end LateIR
