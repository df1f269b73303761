import LateIR.Location

/-!
The defined slots of a location state: a finite map from kind and offset to a
type and a value, kept as a list in order, so that equal maps are equal lists.
-/

namespace LateIR

/-- A slot that holds a value. -/
structure SlotEntry where
  kind : SlotKind
  ofs : Int
  typ : Typ
  val : Val
  deriving DecidableEq

namespace SlotEntry

/-- The order of slots: by kind, then by offset. -/
def Before (a b : SlotEntry) : Prop :=
  a.kind.rank < b.kind.rank ∨ a.kind.rank = b.kind.rank ∧ a.ofs < b.ofs

instance (a b : SlotEntry) : Decidable (a.Before b) :=
  inferInstanceAs (Decidable (_ ∨ _))

theorem Before.trans {a b c : SlotEntry} (h : a.Before b) (h' : b.Before c) : a.Before c := by
  unfold Before at *
  omega

/-- Whether the entry is the one at the given kind and offset. -/
def isAt (kind : SlotKind) (ofs : Int) (e : SlotEntry) : Bool := e.kind = kind && e.ofs = ofs

def loc (e : SlotEntry) : Loc := .slot e.kind e.ofs e.typ

instance : NumEq SlotEntry where
  numEq a b := a.kind = b.kind && a.ofs = b.ofs && a.typ = b.typ && numEq a.val b.val

end SlotEntry

/-- Entries in order, at most one for each kind and offset. -/
structure SlotMap where
  entries : List SlotEntry
  sorted : entries.Pairwise SlotEntry.Before
  deriving DecidableEq

namespace SlotMap

def empty : SlotMap := ⟨[], .nil⟩

def find? (m : SlotMap) (kind : SlotKind) (ofs : Int) : Option SlotEntry :=
  m.entries.find? (SlotEntry.isAt kind ofs)

/-- Puts an entry in its position, in place of one already there. -/
def insertInto (e : SlotEntry) : List SlotEntry → List SlotEntry
  | [] => [e]
  | x :: rest =>
      if e.Before x then e :: x :: rest
      else if x.Before e then x :: insertInto e rest
      else e :: rest

theorem mem_insertInto {e x : SlotEntry} {l : List SlotEntry} (h : x ∈ insertInto e l) :
    x = e ∨ x ∈ l := by
  induction l with
  | nil => exact .inl (List.mem_singleton.1 h)
  | cons y rest ih =>
    unfold insertInto at h
    split at h
    · exact List.mem_cons.1 h
    · split at h
      · rcases List.mem_cons.1 h with rfl | h
        · exact .inr List.mem_cons_self
        · exact (ih h).imp_right (List.mem_cons_of_mem _)
      · exact (List.mem_cons.1 h).imp_right (List.mem_cons_of_mem _)

/-- Entries that come neither before nor after each other are at one place. -/
theorem before_of_same {a b c : SlotEntry} (ab : ¬ a.Before b) (ba : ¬ b.Before a)
    (bc : b.Before c) : a.Before c := by
  unfold SlotEntry.Before at *
  omega

theorem sorted_insertInto (e : SlotEntry) {l : List SlotEntry}
    (h : l.Pairwise SlotEntry.Before) : (insertInto e l).Pairwise SlotEntry.Before := by
  induction l with
  | nil => exact List.pairwise_singleton ..
  | cons x rest ih =>
    obtain ⟨first, later⟩ := List.pairwise_cons.1 h
    unfold insertInto
    split
    · rename_i ex
      refine List.pairwise_cons.2 ⟨fun y hy => ?_, h⟩
      rcases List.mem_cons.1 hy with rfl | hy
      · exact ex
      · exact ex.trans (first y hy)
    · rename_i ex
      split
      · rename_i xe
        refine List.pairwise_cons.2 ⟨fun y hy => ?_, ih later⟩
        rcases mem_insertInto hy with rfl | hy
        · exact xe
        · exact first y hy
      · rename_i xe
        exact List.pairwise_cons.2 ⟨fun y hy => before_of_same ex xe (first y hy), later⟩

def insert (e : SlotEntry) (m : SlotMap) : SlotMap :=
  ⟨insertInto e m.entries, sorted_insertInto e m.sorted⟩

/-- Keeps the entries that the test accepts. -/
def filter (keep : SlotEntry → Bool) (m : SlotMap) : SlotMap :=
  ⟨m.entries.filter keep, m.sorted.filter keep⟩

/-- The entries of one kind, moved to another kind. -/
def rekind (source target : SlotKind) (m : SlotMap) : SlotMap where
  entries := (m.entries.filter fun e => e.kind = source).map fun e => { e with kind := target }
  sorted := by
    refine List.pairwise_map.2 ?_
    refine (m.sorted.filter _).imp_of_mem fun {a b} ha hb before => ?_
    have ka := of_decide_eq_true (List.mem_filter.1 ha).2
    have kb := of_decide_eq_true (List.mem_filter.1 hb).2
    refine .inr ⟨rfl, ?_⟩
    unfold SlotEntry.Before at before
    rw [ka, kb] at before
    show a.ofs < b.ofs
    omega

instance : NumEq SlotMap := ⟨fun a b => numEq a.entries b.entries⟩

end SlotMap

end LateIR
