import LateIR.Frame.Step
import LateIR.Proofs.Memory.Effect
import LateIR.Proofs.Program.GlobalEnv

/-!
How Frame-IR enters a program: the outermost caller gets a frame with room for the
stack arguments and a header, the arguments are put in place one after the other,
and the header is written (`enter_eq_ok_iff`).
-/

namespace LateIR.Frame

open Mem (KeepsFrames)

/-! ### Arguments and header -/

/-- How an argument is put into its location, by a caller whose frame is at `sp`. -/
inductive PlacesArg (sp : Val) (v : Val) (regs : RegFile) (mem : Mem) :
    Loc → RegFile → Mem → Prop where
  | reg {r : Reg} : PlacesArg sp v regs mem (.reg r) (regs.set r v) mem
  | slot {kind : SlotKind} {ofs : Int} {t : Typ} {mem' : Mem}
      (inside : (Loc.slot kind ofs t).checkOutgoing = .ok ())
      (stored : mem.storeStack? sp t (.ofInt (slotByteOffset ofs)) v = some mem') :
      PlacesArg sp v regs mem (.slot kind ofs t) regs mem'

variable {sp : Val} {mem mem' : Mem}

/-- The first argument is put in place before the others, and each slot is checked when its turn
comes. -/
theorem placeArgs_cons_eq_ok_iff {l : Loc} {v : Val} {rest : List (Loc × Val)} {regs : RegFile}
    {placed : RegFile × Mem} :
    placeArgs sp ((l, v) :: rest) regs mem = .ok placed ↔
      ∃ regs' mem', PlacesArg sp v regs mem l regs' mem' ∧
        placeArgs sp rest regs' mem' = .ok placed := by
  constructor
  · intro done
    cases l with
    | reg r => exact ⟨_, mem, .reg, done⟩
    | slot kind ofs t =>
        obtain ⟨⟨⟩, inside, done⟩ := bind_eq_ok_iff.mp done
        split at done
        · rename_i mem' stored
          exact ⟨regs, mem', .slot inside stored, done⟩
        · cases done
  · rintro ⟨regs', mem', here, done⟩
    cases here with
    | reg => exact done
    | slot inside stored =>
        rw [placeArgs, stored]
        exact bind_eq_ok_iff.mpr ⟨(), inside, done⟩

/-- The outermost caller has no link and no return address; null stands for both. -/
theorem writeEntryHeader_eq_ok_iff {ofs : Int} :
    writeEntryHeader sp ofs mem = .ok mem' ↔
      ∃ mid, mem.storeStack? sp .pointer (.ofInt ofs) .null = some mid ∧
        mid.storeStack? sp .pointer (.ofInt (ofs + 8)) .null = some mem' := by
  constructor
  · intro done
    simp only [writeEntryHeader] at done
    split at done
    · rename_i mem'' written
      cases done
      exact Option.bind_eq_some_iff.mp written
    · cases done
  · rintro ⟨mid, atLink, atRa⟩
    simp only [writeEntryHeader, atLink, atRa, Option.bind_eq_bind, Option.bind_some]

/-! ### Frames -/

/-- What each store into the frame keeps is kept when the arguments are put in place. -/
theorem placeArgs_keeps {R : Mem → Mem → Prop} (refl : ∀ m, R m m)
    (trans : ∀ {m m' m''}, R m m' → R m' m'' → R m m'')
    (store : ∀ {m m' t ofs v}, Mem.storeStack? m sp t ofs v = some m' → R m m')
    {args : List (Loc × Val)} {regs : RegFile} {placed : RegFile × Mem}
    (done : placeArgs sp args regs mem = .ok placed) : R mem placed.2 := by
  induction args generalizing regs mem with
  | nil =>
      cases done
      exact refl mem
  | cons arg rest ih =>
      obtain ⟨l, v⟩ := arg
      obtain ⟨regs', mem', here, done⟩ := placeArgs_cons_eq_ok_iff.mp done
      cases here with
      | reg => exact ih done
      | slot inside stored => exact trans (store stored) (ih done)

theorem keepsFrames_placeArgs {args : List (Loc × Val)} {regs : RegFile} {placed : RegFile × Mem}
    (done : placeArgs sp args regs mem = .ok placed) : KeepsFrames mem placed.2 :=
  placeArgs_keeps KeepsFrames.refl KeepsFrames.trans KeepsFrames.of_storeAt? done

theorem keepsFrames_writeEntryHeader {ofs : Int}
    (done : writeEntryHeader sp ofs mem = .ok mem') : KeepsFrames mem mem' := by
  obtain ⟨mid, atLink, atRa⟩ := writeEntryHeader_eq_ok_iff.mp done
  exact (KeepsFrames.of_storeAt? atLink).trans (.of_storeAt? atRa)

/-! ### Entry -/

/-- Entry runs through its checks in this order, and the first that fails decides the error. -/
theorem enter_eq_ok_iff {env : Env} {pointer : Val} {args : List Val} {s : State} :
    enter env mem pointer args = .ok s ↔
      ∃ callee sig b fresh regs placed mem',
        env.checkEntry mem pointer args = .ok (callee, sig) ∧
        mem.alloc? 0 (slotByteOffset sig.argWords + entryHeaderSize) = some (b, fresh) ∧
        placeArgs (.ptr b 0) (sig.argLocs.zip args) .empty fresh = .ok (regs, placed) ∧
        writeEntryHeader (.ptr b 0) (slotByteOffset sig.argWords) placed = .ok mem' ∧
        s = .calling ⟨[], ⟨.ptr b 0, .null⟩⟩ callee regs mem' := by
  constructor
  · intro entered
    obtain ⟨⟨callee, sig⟩, checked, entered⟩ := bind_eq_ok_iff.mp entered
    dsimp only at entered
    split at entered
    · rename_i b fresh allocated
      obtain ⟨⟨regs, placed⟩, done, entered⟩ := bind_eq_ok_iff.mp entered
      obtain ⟨mem', written, same⟩ := bind_eq_ok_iff.mp entered
      cases same
      exact ⟨callee, sig, b, fresh, regs, placed, mem', checked, allocated, done, written, rfl⟩
    · cases entered
  · rintro ⟨callee, sig, b, fresh, regs, placed, mem', checked, allocated, done, written, rfl⟩
    apply bind_eq_ok_iff.mpr
    refine ⟨(callee, sig), checked, ?_⟩
    dsimp only
    rw [allocated]
    exact bind_eq_ok_iff.mpr ⟨(regs, placed), done, bind_eq_ok_iff.mpr ⟨mem', written, rfl⟩⟩

end LateIR.Frame
