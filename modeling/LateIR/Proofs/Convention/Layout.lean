import LateIR.Proofs.Convention.Placement

/-!
The layout of the arguments of a signature. What is free after some arguments depends on
how many of each kind they are (`ArgCursor.free_place`, `ArgCursor.word_place`), so each
argument's location follows from those before it (`Signature.getElem?_argLocs`), and the
stack words that a signature needs from the numbers of its arguments
(`Signature.argWords_eq`).
-/

namespace LateIR

/-- The registers that arguments of the type travel in, in order. -/
def Typ.params (t : Typ) : List Reg := if t.isFloat then Reg.floatParams else Reg.intParams

/-- Whether the location is on the stack. -/
def Loc.isSlot : Loc → Bool
  | .reg _ => false
  | .slot .. => true

namespace ArgCursor

variable {c c' c'' : ArgCursor} {t : Typ} {l l' : Loc}

/-- The registers that are left for arguments of one kind. -/
def free (c : ArgCursor) (float : Bool) : List Reg := if float then c.floats else c.ints

theorem free_start (t : Typ) : start.free t.isFloat = t.params := rfl

/-! ### One argument -/

theorem take_fst (c : ArgCursor) (t : Typ) :
    (c.take t).1 = match (c.free t.isFloat).head? with
      | some r => .reg r
      | none => .slot .outgoing c.word t := by
  obtain ⟨ints, floats, word⟩ := c
  cases kind : t.isFloat with
  | true => cases floats <;> simp [take, free, kind]
  | false => cases ints <;> simp [take, free, kind]

namespace Takes

/-- An argument takes the next register of its kind from those that are left. -/
theorem free_eq (taken : c.Takes t l c') (float : Bool) :
    c'.free float = (c.free float).drop (if t.isFloat = float then 1 else 0) := by
  cases taken with
  | int kind left => cases float <;> simp [free, kind, left]
  | float kind left => cases float <;> simp [free, kind, left]
  | stack full =>
      cases kind : t.isFloat <;> cases float <;> simp_all [free]

/-- An argument takes two words of the stack if no register is left for it. -/
theorem word_eq (taken : c.Takes t l c') : c'.word = c.word + if l.isSlot then 2 else 0 := by
  cases taken <;> simp [Loc.isSlot]

theorem isSlot_eq (taken : c.Takes t l c') : l.isSlot = (c.free t.isFloat).isEmpty := by
  cases taken with
  | int kind left => simp [Loc.isSlot, free, kind, left]
  | float kind left => simp [Loc.isSlot, free, kind, left]
  | stack full => simp [Loc.isSlot, free, full]

/-- An argument that takes words of the stack takes the last two of them. -/
theorem eq_slot (taken : c.Takes t l c') (used : c.word < c'.word) :
    l = .slot .outgoing (c'.word - 2) t := by
  cases taken with
  | int | float => exact absurd used (Int.lt_irrefl _)
  | stack full => simp

theorem ne (distinct : c.regs.Nodup) (taken : c.Takes t l c') (later : Between c' c'' l') :
    l ≠ l' := by
  rintro rfl
  have apart := taken.apart distinct later
  cases taken with
  | int | float => simp [Loc.overlaps] at apart
  | stack full =>
      have first : c.word + 2 ≤ c.word := later.2.1
      omega

end Takes

/-! ### All arguments -/

theorem place_append (c : ArgCursor) (ts ts' : List Typ) :
    c.place (ts ++ ts') =
      ((c.place ts).1 ++ ((c.place ts).2.place ts').1, ((c.place ts).2.place ts').2) := by
  induction ts generalizing c with
  | nil => rfl
  | cons t rest ih => simp [place, ih]

theorem length_place (c : ArgCursor) (ts : List Typ) : (c.place ts).1.length = ts.length := by
  induction ts generalizing c with
  | nil => rfl
  | cons t rest ih => simp [place, ih]

/-- The registers that are left depend on the number of arguments of their kind. -/
theorem free_place (c : ArgCursor) (ts : List Typ) (float : Bool) :
    (c.place ts).2.free float = (c.free float).drop (ts.countP (·.isFloat = float)) := by
  induction ts generalizing c with
  | nil => rfl
  | cons t rest ih =>
      rw [place, ih, (c.takes t).free_eq, List.drop_drop, List.countP_cons]
      simp [Nat.add_comm]

/-- Every argument on the stack takes two words. -/
theorem word_place (c : ArgCursor) (ts : List Typ) :
    (c.place ts).2.word = c.word + 2 * (c.place ts).1.countP Loc.isSlot := by
  induction ts generalizing c with
  | nil => simp [place]
  | cons t rest ih =>
      rw [place, ih, (c.takes t).word_eq, List.countP_cons]
      cases (c.take t).1.isSlot
      · simp
      · simp
        omega

/-- As many arguments are on the stack as there are registers too few, of each kind. -/
theorem countP_isSlot_place (c : ArgCursor) (ts : List Typ) :
    (c.place ts).1.countP Loc.isSlot =
      (ts.countP (·.isFloat = false) - (c.free false).length) +
        (ts.countP (·.isFloat = true) - (c.free true).length) := by
  induction ts generalizing c with
  | nil => simp [place]
  | cons t rest ih =>
      have taken := c.takes t
      rw [place, List.countP_cons, List.countP_cons, List.countP_cons, ih, taken.isSlot_eq,
        taken.free_eq, taken.free_eq, List.length_drop, List.length_drop]
      -- a register that is taken is one less to count and one argument less to serve
      cases t.isFloat with
      | false =>
          generalize c.free false = ints
          rcases ints with _ | ⟨r, ints⟩
          · simp
            omega
          · simp
      | true =>
          generalize c.free true = floats
          rcases floats with _ | ⟨r, floats⟩
          · simp
            omega
          · simp

/-- No location is given to two arguments. -/
theorem nodup_place (distinct : c.regs.Nodup) (ts : List Typ) : (c.place ts).1.Nodup := by
  induction ts generalizing c with
  | nil => exact .nil
  | cons t rest ih =>
      have taken := c.takes t
      refine List.nodup_cons.mpr ⟨?_, ih (distinct.sublist taken.sublist_regs)⟩
      intro again
      exact taken.ne distinct (between_place again) rfl

/-- The location of an argument follows from the arguments before it. -/
theorem getElem?_place (c : ArgCursor) (ts : List Typ) (i : Nat) :
    (c.place ts).1[i]? = ts[i]?.map fun t => ((c.place (ts.take i)).2.take t).1 := by
  induction ts generalizing c i with
  | nil => rfl
  | cons t rest ih =>
      cases i with
      | zero => rfl
      | succ i => simp [place, ih]

/-- Appending arguments leaves the locations of those before them. -/
theorem place_take (c : ArgCursor) (ts : List Typ) (i : Nat) :
    (c.place (ts.take i)).1 = (c.place ts).1.take i := by
  induction ts generalizing c i with
  | nil => simp [place]
  | cons t rest ih =>
      cases i with
      | zero => rfl
      | succ i => simp [place, ih]

/-- If the stack is used at all, the last two words that are taken belong to one argument. -/
theorem exists_last_slot (c : ArgCursor) (ts : List Typ) (used : c.word < (c.place ts).2.word) :
    ∃ t, Loc.slot .outgoing ((c.place ts).2.word - 2) t ∈ (c.place ts).1 := by
  induction ts generalizing c with
  | nil => exact absurd used (Int.lt_irrefl _)
  | cons t rest ih =>
      rw [place] at used ⊢
      by_cases more : (c.take t).2.word < ((c.take t).2.place rest).2.word
      · obtain ⟨t', later⟩ := ih _ more
        exact ⟨t', List.mem_cons_of_mem _ later⟩
      · have last := Int.le_antisymm (Int.not_lt.mp more) ((c.take t).2.word_le_place rest)
        have here := (c.takes t).eq_slot (last ▸ used)
        exact ⟨t, List.mem_cons.mpr (.inl (last ▸ here.symm))⟩

end ArgCursor

/-! ### Signatures -/

theorem Typ.class_of_mem_params {t : Typ} {r : Reg} (mem : r ∈ t.params) :
    r.isFloat = t.isFloat ∧ r.isCalleeSaved = false := by
  have ints : ∀ r ∈ Reg.intParams, r.isFloat = false ∧ r.isCalleeSaved = false := by decide
  have floats : ∀ r ∈ Reg.floatParams, r.isFloat = true ∧ r.isCalleeSaved = false := by decide
  unfold Typ.params at mem
  split at mem
  · rename_i kind
    rw [kind]
    exact floats r mem
  · rename_i kind
    rw [Bool.eq_false_iff.mpr kind]
    exact ints r mem

namespace Signature

/-- Whether a location suits an argument of the type: a register of its kind that calls do
not preserve, or a slot of its type among the stack words that the signature needs. -/
def Suits (s : Signature) (t : Typ) : Loc → Prop
  | .reg r => r.isFloat = t.isFloat ∧ r.isCalleeSaved = false
  | .slot kind ofs t' =>
      kind = .outgoing ∧ t' = t ∧ 0 ≤ ofs ∧ ofs + t.words ≤ s.argWords ∧ 8 ∣ slotByteOffset ofs

/-- Where the argument at position `i` goes, of type `t`: to the register with its number
among the arguments of its kind, and without one to the stack, after the arguments there. -/
def argLocAt (s : Signature) (i : Nat) (t : Typ) : Loc :=
  match t.params[(s.args.take i).countP (·.isFloat = t.isFloat)]? with
  | some r => .reg r
  | none => .slot .outgoing (2 * (s.argLocs.take i).countP Loc.isSlot) t

theorem getElem?_argLocs (s : Signature) (i : Nat) :
    s.argLocs[i]? = s.args[i]?.map (s.argLocAt i) := by
  rw [argLocs, ArgCursor.getElem?_place]
  congr 1
  funext t
  rw [ArgCursor.take_fst, ArgCursor.free_place, ArgCursor.free_start, List.head?_drop,
    ArgCursor.word_place, ArgCursor.place_take]
  simp [argLocAt, argLocs, ArgCursor.start]

theorem argWords_eq_countP (s : Signature) : s.argWords = 2 * s.argLocs.countP Loc.isSlot := by
  rw [argWords, ArgCursor.word_place]
  simp [argLocs, ArgCursor.start]

/-- The stack words that a signature needs. -/
theorem argWords_eq (s : Signature) :
    s.argWords = 2 * (max 0 ((s.args.countP (·.isFloat = false) : Int) - 6) +
      max 0 ((s.args.countP (·.isFloat = true) : Int) - 8)) := by
  have spilled := ArgCursor.start.countP_isSlot_place s.args
  have ints : (ArgCursor.start.free false).length = 6 := rfl
  have floats : (ArgCursor.start.free true).length = 8 := rfl
  rw [argWords_eq_countP, argLocs, spilled, ints, floats]
  omega

theorem length_argLocs (s : Signature) : s.argLocs.length = s.args.length :=
  ArgCursor.length_place ..

/-- A slot of a signature is two words from an even one on. -/
theorem slot_of_mem_argLocs {s : Signature} {kind : SlotKind} {ofs : Int} {t : Typ}
    (mem : .slot kind ofs t ∈ s.argLocs) :
    kind = .outgoing ∧ 0 ≤ ofs ∧ ofs + 2 ≤ s.argWords ∧ 2 ∣ ofs := by
  obtain ⟨outgoing, first, last⟩ := between_argLocs mem
  obtain ⟨i, here⟩ := List.mem_iff_getElem?.mp mem
  rw [getElem?_argLocs] at here
  obtain ⟨t', -, same⟩ := Option.map_eq_some_iff.mp here
  unfold argLocAt at same
  split at same
  · cases same
  · cases same
    exact ⟨outgoing, first, last, Int.dvd_mul_right ..⟩

theorem suits_argLocs (s : Signature) : List.Forall₂ s.Suits s.args s.argLocs := by
  refine List.forall₂_iff_get.mpr ⟨s.length_argLocs.symm, ?_⟩
  intro i inArgs inLocs
  have loc := s.getElem?_argLocs i
  have mem := List.getElem_mem inLocs
  simp only [List.get_eq_getElem]
  rw [List.getElem?_eq_getElem inArgs, List.getElem?_eq_getElem inLocs, Option.map_some,
    Option.some_inj] at loc
  rw [loc] at mem ⊢
  unfold argLocAt at mem ⊢
  split at mem
  · rename_i r found
    exact Typ.class_of_mem_params (List.mem_of_getElem? found)
  · have words := s.args[i].words_le
    obtain ⟨-, first, last, even⟩ := slot_of_mem_argLocs mem
    refine ⟨rfl, rfl, first, by omega, ?_⟩
    unfold slotByteOffset
    omega

/-- The arguments fit into the outgoing area if the words that they need do. -/
theorem forall_checkOutgoing_iff (s : Signature) :
    (∀ l ∈ s.argLocs, l.checkOutgoing = .ok ()) ↔ s.argWords ≤ maxOutgoingWords := by
  have even := s.argWords_eq_countP
  constructor
  · intro inside
    rcases Int.lt_or_le 0 s.argWords with used | unused
    · -- the last argument may leave the second of its two words unused, but words are even
      obtain ⟨t, last⟩ := ArgCursor.start.exists_last_slot s.args used
      have ends := (Loc.checkOutgoing_slot_eq_ok_iff.mp (inside _ last)).2
      have words := t.words_pos
      change s.argWords - 2 + t.words ≤ maxOutgoingWords at ends
      unfold maxOutgoingWords at ends ⊢
      omega
    · exact Int.le_trans unused (by decide)
  · intro room l mem
    cases l with
    | reg r => rfl
    | slot kind ofs t =>
        have words := t.words_le
        obtain ⟨-, first, last, -⟩ := slot_of_mem_argLocs mem
        exact Loc.checkOutgoing_slot_eq_ok_iff.mpr ⟨first, by omega⟩

theorem nodup_argLocs (s : Signature) : s.argLocs.Nodup :=
  ArgCursor.nodup_place (by decide) s.args

/-- More arguments leave the locations of the others as they were. -/
theorem argLocs_prefix (s : Signature) (more : List Typ) (res : Option Typ) (conv : CallConv) :
    s.argLocs <+: argLocs ⟨s.args ++ more, res, conv⟩ := by
  simp only [argLocs, ArgCursor.place_append]
  exact List.prefix_append ..

end Signature

end LateIR
