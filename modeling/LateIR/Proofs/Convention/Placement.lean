import LateIR.Convention.Clobber
import LateIR.Proofs.Convention.Boundary
import LateIR.Proofs.Memory.Encoding
import Mathlib.Data.List.Forall2
import Mathlib.Data.List.Nodup

/-!
Where arguments travel. An argument takes a free register or the next two words of
the outgoing area (`ArgCursor.takes`), so the arguments of a signature never share
a location (`Signature.pairwise_argLocs`), and locations can carry the values that
the signature accepts (`placeable_of_checkEntryArgs`).
-/

namespace LateIR

/-! ### The outgoing area -/

theorem Loc.checkOutgoing_slot_eq_ok_iff {kind : SlotKind} {ofs : Int} {t : Typ} :
    (Loc.slot kind ofs t).checkOutgoing = .ok () ↔ 0 ≤ ofs ∧ ofs + t.words ≤ maxOutgoingWords := by
  rw [checkOutgoing]
  split
  · rename_i outside
    constructor
    · intro accepted
      cases accepted
    · omega
  · rename_i inside
    exact ⟨fun _ => by omega, fun _ => rfl⟩

/-- The outgoing area ends far below the largest offset. -/
theorem Loc.inRange_of_checkOutgoing {l : Loc} (accepted : l.checkOutgoing = .ok ()) :
    l.inRange := by
  cases l with
  | reg r => rfl
  | slot kind ofs t =>
      have inside := (checkOutgoing_slot_eq_ok_iff.mp accepted).2
      apply decide_eq_true
      unfold maxOutgoingWords at inside
      unfold maxOffset
      omega

/-! ### Placing arguments one after the other -/

namespace ArgCursor

/-- The argument registers still free. -/
def regs (c : ArgCursor) : List Reg := c.ints ++ c.floats

/-- Where an argument of the type goes, and what is free after it. -/
inductive Takes (c : ArgCursor) (t : Typ) : Loc → ArgCursor → Prop where
  | int {r : Reg} {rest : List Reg} (kind : t.isFloat = false) (free : c.ints = r :: rest) :
      Takes c t (.reg r) { c with ints := rest }
  | float {r : Reg} {rest : List Reg} (kind : t.isFloat) (free : c.floats = r :: rest) :
      Takes c t (.reg r) { c with floats := rest }
  | stack (full : (if t.isFloat then c.floats else c.ints) = []) :
      Takes c t (.slot .outgoing c.word t) { c with word := c.word + 2 }

theorem takes (c : ArgCursor) (t : Typ) : c.Takes t (c.take t).1 (c.take t).2 := by
  obtain ⟨ints, floats, word⟩ := c
  cases kind : t.isFloat with
  | true =>
      cases floats with
      | nil =>
          simp only [take, kind]
          exact .stack (by rw [if_pos kind])
      | cons r rest =>
          simp only [take, kind]
          exact .float kind rfl
  | false =>
      cases ints with
      | nil =>
          simp only [take, kind]
          exact .stack (by rw [kind]; rfl)
      | cons r rest =>
          simp only [take, kind]
          exact .int kind rfl

/-- Whether an argument may be placed here between two cursors: in a register that
the first one has free, or in two words that only the second one counts as taken. -/
def Between (c c' : ArgCursor) : Loc → Prop
  | .reg r => r ∈ c.regs
  | .slot kind ofs _ => kind = .outgoing ∧ c.word ≤ ofs ∧ ofs + 2 ≤ c'.word

theorem Between.mono {c c' c'' : ArgCursor} {l : Loc} (inside : Between c c' l)
    (more : c'.word ≤ c''.word) : Between c c'' l := by
  cases l with
  | reg r => exact inside
  | slot kind ofs t =>
      obtain ⟨outgoing, first, last⟩ := inside
      exact ⟨outgoing, first, Int.le_trans last more⟩

namespace Takes

variable {c c' c'' : ArgCursor} {t : Typ} {l l' : Loc}

theorem sublist_regs (taken : c.Takes t l c') : c'.regs.Sublist c.regs := by
  cases taken with
  | int kind free =>
      rw [regs, regs, free]
      exact List.sublist_cons_self ..
  | float kind free =>
      rw [regs, regs, free]
      exact (List.sublist_cons_self ..).append_left _
  | stack full => exact .refl _

theorem word_le (taken : c.Takes t l c') : c.word ≤ c'.word := by
  cases taken with
  | int | float => exact Int.le_refl _
  | stack full => exact Int.le_add_of_nonneg_right (by decide)

theorem between (taken : c.Takes t l c') : Between c c' l := by
  cases taken with
  | int kind free => simp [Between, regs, free]
  | float kind free => simp [Between, regs, free]
  | stack full => exact ⟨rfl, Int.le_refl _, Int.le_refl _⟩

/-- What is free after an argument was free before it. -/
theorem between_later (taken : c.Takes t l c') (later : Between c' c'' l') : Between c c'' l' := by
  cases l' with
  | reg r => exact taken.sublist_regs.subset later
  | slot kind ofs t' =>
      obtain ⟨outgoing, first, last⟩ := later
      exact ⟨outgoing, Int.le_trans taken.word_le first, last⟩

/-- The location of an argument is not free after it. -/
theorem apart (distinct : c.regs.Nodup) (taken : c.Takes t l c') (later : Between c' c'' l') :
    l.overlaps l' = false := by
  cases taken with
  | @int r rest kind free =>
      cases l' with
      | reg r' =>
          rw [regs, free] at distinct
          apply decide_eq_false
          rintro rfl
          exact (List.nodup_cons.mp distinct).1 later
      | slot => rfl
  | @float r rest kind free =>
      cases l' with
      | reg r' =>
          rw [regs, free] at distinct
          apply decide_eq_false
          rintro rfl
          exact (List.nodup_middle.mp distinct).notMem later
      | slot => rfl
  | stack full =>
      cases l' with
      | reg r' => rfl
      | slot kind ofs t' =>
          obtain ⟨-, first, -⟩ := later
          have words := t.words_le
          have before : ¬ ofs < Loc.slotEnd c.word t := by
            unfold Loc.slotEnd
            dsimp only at first
            omega
          simp [Loc.overlaps, Loc.slotsMeet, before]

end Takes

theorem word_le_place (c : ArgCursor) (ts : List Typ) : c.word ≤ (c.place ts).2.word := by
  induction ts generalizing c with
  | nil => exact Int.le_refl _
  | cons t rest ih => exact Int.le_trans (c.takes t).word_le (ih _)

theorem between_place {c : ArgCursor} {ts : List Typ} {l : Loc} (mem : l ∈ (c.place ts).1) :
    Between c (c.place ts).2 l := by
  induction ts generalizing c with
  | nil => cases mem
  | cons t rest ih =>
      rcases List.mem_cons.mp mem with rfl | later
      · exact (c.takes t).between.mono (word_le_place _ rest)
      · exact (c.takes t).between_later (ih later)

/-- No two arguments share a location. -/
theorem pairwise_place {c : ArgCursor} (distinct : c.regs.Nodup) (ts : List Typ) :
    (c.place ts).1.Pairwise fun l l' => l.overlaps l' = false := by
  induction ts generalizing c with
  | nil => exact .nil
  | cons t rest ih =>
      have taken := c.takes t
      refine List.pairwise_cons.mpr ⟨?_, ih (distinct.sublist taken.sublist_regs)⟩
      intro l mem
      exact taken.apart distinct (between_place mem)

end ArgCursor

/-! ### Values in their locations -/

/-- Whether the location may carry the value as an argument. -/
def Loc.Accepts : Loc → Val → Prop
  | .reg _, _ => True
  | .slot kind _ t, v => kind = .outgoing ∧ v.hasType t

namespace ArgCursor

theorem Takes.accepts {c c' : ArgCursor} {t : Typ} {l : Loc} {v : Val} (taken : c.Takes t l c')
    (typed : v.hasType t) : l.Accepts v := by
  cases taken with
  | int | float => trivial
  | stack full => exact ⟨rfl, typed⟩

theorem accepts_place {args : List Val} {ts : List Typ}
    (typed : List.Forall₂ (fun v t => v.hasType t) args ts) (c : ArgCursor) :
    List.Forall₂ Loc.Accepts (c.place ts).1 args := by
  induction typed generalizing c with
  | nil => exact .nil
  | @cons v t args ts here later ih => exact .cons ((c.takes t).accepts here) (ih _)

end ArgCursor

theorem checkArgTypes_eq_ok_iff {name : String} {index : Nat} {pairs : List (Val × Typ)} :
    checkArgTypes name index pairs = .ok () ↔ pairs.all fun (v, t) => v.hasType t := by
  induction pairs generalizing index with
  | nil => simp [checkArgTypes]
  | cons p rest ih =>
      obtain ⟨v, t⟩ := p
      by_cases typed : v.hasType t
      · simp [checkArgTypes, typed, ih]
      · simp [checkArgTypes, typed]

/-- The check of the arguments at the entry point accepts what the signature accepts. -/
theorem checkEntryArgs_eq_ok_iff {name : String} {s : Signature} {args : List Val} :
    checkEntryArgs name s args = .ok () ↔ s.accepts args := by
  by_cases counted : args.length = s.args.length
  · simp [checkEntryArgs, Signature.accepts, counted, checkArgTypes_eq_ok_iff]
  · simp [checkEntryArgs, Signature.accepts, counted]

namespace Signature

theorem accepts_iff {s : Signature} {args : List Val} :
    s.accepts args ↔ List.Forall₂ (fun v t => v.hasType t) args s.args := by
  rw [accepts, Bool.and_eq_true, decide_eq_true_eq, List.all_eq_true, List.forall₂_iff_zip]
  simp

theorem between_argLocs {s : Signature} {l : Loc} (mem : l ∈ s.argLocs) :
    ArgCursor.Between .start (ArgCursor.start.place s.args).2 l :=
  ArgCursor.between_place mem

theorem argWords_nonneg (s : Signature) : 0 ≤ s.argWords := ArgCursor.word_le_place .start s.args

theorem pairwise_argLocs (s : Signature) :
    s.argLocs.Pairwise fun l l' => l.overlaps l' = false :=
  ArgCursor.pairwise_place (by decide) s.args

theorem accepts_argLocs {s : Signature} {args : List Val}
    (typed : List.Forall₂ (fun v t => v.hasType t) args s.args) :
    List.Forall₂ Loc.Accepts s.argLocs args :=
  ArgCursor.accepts_place typed .start

/-- Entering a function leaves the argument registers alone. -/
theorem get_clobber_functionEntry {s : Signature} {r : Reg} (mem : .reg r ∈ s.argLocs)
    (file : RegFile) : (file.clobber Clobber.functionEntry).get r = file.get r := by
  have param : ∀ r ∈ ArgCursor.start.regs, r ∉ Clobber.functionEntry := by decide
  rw [RegFile.get_clobber, if_neg (param r (between_argLocs mem))]

end Signature

/-- Whether values can be put into locations one after the other: no two locations
overlap, and each may carry its value. -/
structure Placeable (pairs : List (Loc × Val)) : Prop where
  apart : pairs.Pairwise fun p q => p.1.overlaps q.1 = false
  accepts : ∀ p ∈ pairs, p.1.Accepts p.2

/-- What is placed later does not disturb the first value. -/
theorem Placeable.cons {p : Loc × Val} {rest : List (Loc × Val)} (placeable : Placeable (p :: rest)) :
    p.1.Accepts p.2 ∧ (∀ q ∈ rest, q.1.overlaps p.1 = false) ∧ Placeable rest := by
  obtain ⟨others, apart⟩ := List.pairwise_cons.mp placeable.apart
  obtain ⟨fits, accepts⟩ := List.forall_mem_cons.mp placeable.accepts
  refine ⟨fits, ?_, apart, accepts⟩
  intro q mem
  rw [Loc.overlaps_comm, others q mem]

/-- A property of the first halves of pairs is one of the list they come from. -/
theorem forall_mem_zip_iff {α β : Type} {P : α → Prop} {as : List α} {bs : List β}
    (same : as.length = bs.length) : (∀ p ∈ as.zip bs, P p.1) ↔ ∀ a ∈ as, P a := by
  rw [← List.forall_mem_map, List.map_fst_zip (Nat.le_of_eq same)]

/-- Arguments that pass the check can be put into their locations. -/
theorem placeable_of_checkEntryArgs {name : String} {s : Signature} {args : List Val}
    (checked : checkEntryArgs name s args = .ok ()) :
    s.argLocs.length = args.length ∧ Placeable (s.argLocs.zip args) := by
  have typed := Signature.accepts_iff.mp (checkEntryArgs_eq_ok_iff.mp checked)
  obtain ⟨same, accepts⟩ := List.forall₂_iff_zip.mp (Signature.accepts_argLocs typed)
  have apart := s.pairwise_argLocs
  rw [← List.map_fst_zip (Nat.le_of_eq same), List.pairwise_map] at apart
  exact ⟨same, apart, fun p mem => accepts mem⟩

end LateIR
