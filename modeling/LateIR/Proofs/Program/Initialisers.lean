import LateIR.Program
import LateIR.Proofs.Memory.Bytes
import LateIR.Proofs.Memory.Change
import LateIR.Proofs.Program.GlobalEnv
import LateIR.Proofs.Provenance.Memory

/-!
The initialisers of a variable. Each one writes its own bytes (`InitData.store?_eq_some_iff`)
at the sum of the sizes before it (`InitData.EachAt`), so the initialisers of a block with
room for them are written exactly if each is in order there (`InitData.exists_storeAll_iff`),
and none disturbs those before it (`InitData.eachAt_stored`).
-/

namespace LateIR

open Mem (WithinBlock)

/-- A store of a value is a store of its bytes at a multiple of the access width. -/
theorem Mem.store?_eq_some_iff_dvd {m m' : Mem} {c : Chunk} {b : BlockId} {ofs : Int} {v : Val} :
    m.store? c b ofs v = some m' ↔
      (c.size : Int) ∣ ofs ∧ m.storeBytes? b ofs (c.encode v) = some m' := by
  rw [store?_eq_some_iff, accessible_iff_covers]
  constructor
  · rintro ⟨⟨-, aligned⟩, stored⟩
    exact ⟨aligned, stored⟩
  · rintro ⟨aligned, stored⟩
    have covered := (storeBytes?_eq_some_iff.mp stored).1
    rw [c.length_encode] at covered
    exact ⟨⟨covered, aligned⟩, stored⟩

namespace InitData

/-! ### One initialiser -/

def isSpace : InitData → Bool
  | space _ => true
  | _ => false

/-- The bytes that an initialiser stands for, if its symbol has a block. -/
def image? (blockOf : Symbols) : InitData → Option (List MemByte)
  | int8 n => some (Chunk.int8Unsigned.encode (.int n))
  | int16 n => some (Chunk.int16Unsigned.encode (.int n))
  | int32 n => some (Chunk.int32.encode (.int n))
  | int64 n => some (Chunk.int64.encode (.long n))
  | float32 x => some (Chunk.float32.encode (.single x))
  | float64 x => some (Chunk.float64.encode (.float x))
  | space n => some (List.replicate n.toNat (.byte 0))
  | addrOf symbol delta =>
      (blockOf symbol).map fun target => Chunk.int64.encode (.ptr target delta)

/-- Whether an initialiser may start at the offset: a multiple of its size, unless it is only
space. -/
def AlignedAt (ofs : Int) (d : InitData) : Prop := d.isSpace = false → d.size ∣ ofs

instance (ofs : Int) (d : InitData) : Decidable (d.AlignedAt ofs) :=
  inferInstanceAs (Decidable (_ → _))

variable {blockOf : Symbols} {name : String} {b : BlockId} {ofs : Int} {m m' : Mem}
  {d : InitData} {init : List InitData} {data : List MemByte}

theorem size_nonneg (d : InitData) : 0 ≤ d.size := by
  cases d with
  | space n => exact Int.le_max_right n 0
  | _ => simp [size]

theorem length_image? (here : d.image? blockOf = some data) : (data.length : Int) = d.size := by
  cases d with
  | space n =>
      cases here
      simp [size]
  | addrOf symbol delta =>
      obtain ⟨target, -, rfl⟩ := Option.map_eq_some_iff.mp here
      rw [Chunk.length_encode]
      rfl
  | _ =>
      cases here
      rw [Chunk.length_encode]
      rfl

theorem isSome_image?_iff :
    (d.image? blockOf).isSome ↔
      ∀ symbol delta, d = .addrOf symbol delta → (blockOf symbol).isSome := by
  cases d <;> simp [image?]

/-- An initialiser without a block for its symbol is refused. -/
theorem check_eq_ok_iff : d.check blockOf = .ok () ↔ (d.image? blockOf).isSome := by
  cases d <;> simp [check, image?, Option.isSome_iff_ne_none]

theorem store?_eq_some_iff :
    d.store? blockOf b ofs m = some m' ↔
      d.AlignedAt ofs ∧ ∃ data, d.image? blockOf = some data ∧ m.storeBytes? b ofs data = some m' := by
  cases d with
  | space n => simp [store?, AlignedAt, isSpace, image?]
  | addrOf symbol delta =>
      cases found : blockOf symbol with
      | none => simp [store?, image?, found]
      | some target =>
          simp [store?, AlignedAt, isSpace, image?, found, Mem.store?_eq_some_iff_dvd, size, Chunk.size]
  | _ => simp [store?, AlignedAt, isSpace, image?, Mem.store?_eq_some_iff_dvd, size, Chunk.size]

/-- The bytes of an initialiser point to blocks of symbols. -/
theorem pointsInto_image? (here : d.image? blockOf = some data) :
    ∀ byte ∈ data, byte.PointsInto fun b => ∃ symbol, blockOf symbol = some b := by
  cases d with
  | space n =>
      cases here
      intro byte mem
      rw [List.eq_of_mem_replicate mem]
      intro target pointer
      cases pointer
  | addrOf symbol delta =>
      obtain ⟨target, found, rfl⟩ := Option.map_eq_some_iff.mp here
      exact Chunk.pointsInto_encode _ ⟨symbol, found⟩
  | _ =>
      cases here
      exact Chunk.pointsInto_encode _ trivial

/-! ### One after the other -/

/-- Whether each initialiser is as it should be at the offset where it starts, the first one
at `ofs`. -/
def EachAt (P : Int → InitData → Prop) : Int → List InitData → Prop
  | _, [] => True
  | ofs, d :: rest => P ofs d ∧ EachAt P (ofs + d.size) rest

instance decidableEachAt {P : Int → InitData → Prop} [∀ ofs d, Decidable (P ofs d)] :
    ∀ ofs init, Decidable (EachAt P ofs init)
  | _, [] => .isTrue trivial
  | ofs, d :: rest =>
      have := decidableEachAt (P := P) (ofs + d.size) rest
      inferInstanceAs (Decidable (_ ∧ _))

theorem EachAt.imp {P Q : Int → InitData → Prop} (weaker : ∀ ofs d, P ofs d → Q ofs d)
    (each : EachAt P ofs init) : EachAt Q ofs init := by
  induction init generalizing ofs with
  | nil => trivial
  | cons d rest ih => exact ⟨weaker ofs d each.1, ih each.2⟩

theorem eachAt_and {P Q : Int → InitData → Prop} :
    EachAt (fun ofs d => P ofs d ∧ Q ofs d) ofs init ↔ EachAt P ofs init ∧ EachAt Q ofs init := by
  induction init generalizing ofs with
  | nil => simp [EachAt]
  | cons d rest ih => simp [EachAt, ih, and_and_and_comm]

/-- The offsets do not matter to what is asked of the initialisers alone. -/
theorem eachAt_const {P : InitData → Prop} :
    EachAt (fun _ => P) ofs init ↔ ∀ d ∈ init, P d := by
  induction init generalizing ofs with
  | nil => simp [EachAt]
  | cons d rest ih => simp [EachAt, ih]

theorem sumSizes_nonneg (init : List InitData) : 0 ≤ sumSizes init := by
  induction init with
  | nil => exact Int.le_refl 0
  | cons d rest ih => exact Int.add_nonneg d.size_nonneg ih

theorem totalSize_nonneg (init : List InitData) : 0 ≤ totalSize init :=
  Int.le_min.mpr ⟨sumSizes_nonneg init, by decide⟩

/-- Sizes that are small enough for a block have been added up in full. -/
theorem sumSizes_le_totalSize (small : totalSize init ≤ Mem.maxBlockSize) :
    sumSizes init ≤ totalSize init := by
  unfold totalSize maxSize Mem.maxBlockSize at *
  omega

theorem storeAll_cons_eq_ok_iff :
    storeAll blockOf name b ofs (d :: init) m = .ok m' ↔
      d.AlignedAt ofs ∧ ∃ data mid, d.image? blockOf = some data ∧
        m.storeBytes? b ofs data = some mid ∧
        storeAll blockOf name b (ofs + d.size) init mid = .ok m' := by
  constructor
  · intro stored
    obtain ⟨-, -, stored⟩ := bind_eq_ok_iff.mp stored
    split at stored
    · rename_i mid here
      obtain ⟨aligned, data, image, written⟩ := store?_eq_some_iff.mp here
      exact ⟨aligned, data, mid, image, written, stored⟩
    · cases stored
  · rintro ⟨aligned, data, mid, image, written, stored⟩
    have checked := check_eq_ok_iff.mpr (Option.isSome_of_eq_some image)
    have here := store?_eq_some_iff.mpr ⟨aligned, data, image, written⟩
    refine bind_eq_ok_iff.mpr ⟨(), checked, ?_⟩
    simp only [here, stored]

theorem withinBlock_storeAll (stored : storeAll blockOf name b ofs init m = .ok m') :
    WithinBlock b m m' := by
  induction init generalizing ofs m with
  | nil =>
      cases stored
      exact .refl _
  | cons d rest ih =>
      obtain ⟨-, data, mid, -, written, stored⟩ := storeAll_cons_eq_ok_iff.mp stored
      exact (WithinBlock.of_storeBytes? written).trans (ih stored)

/-- Initialisers do not disturb what lies before them. -/
theorem loadBytes?_storeAll {start len : Int}
    (stored : storeAll blockOf name b ofs init m = .ok m') (before : start + len ≤ ofs) :
    m'.loadBytes? b start len = m.loadBytes? b start len := by
  induction init generalizing ofs m with
  | nil =>
      cases stored
      rfl
  | cons d rest ih =>
      obtain ⟨-, data, mid, -, written, stored⟩ := storeAll_cons_eq_ok_iff.mp stored
      have nonneg := d.size_nonneg
      rw [ih stored (by omega)]
      exact Mem.loadBytes?_storeBytes?_apart written fun _ => .of_le (.inl before)

/-- Whether an initialiser is found where it starts. -/
structure Stored (blockOf : Symbols) (m : Mem) (b : BlockId) (ofs : Int) (d : InitData) : Prop where
  aligned : d.AlignedAt ofs
  bytes : ∃ data, d.image? blockOf = some data ∧ m.loadBytes? b ofs data.length = some data

/-- Every initialiser is found where it starts. -/
theorem eachAt_stored (stored : storeAll blockOf name b ofs init m = .ok m') :
    EachAt (Stored blockOf m' b) ofs init := by
  induction init generalizing ofs m with
  | nil => trivial
  | cons d rest ih =>
      obtain ⟨aligned, data, mid, image, written, stored⟩ := storeAll_cons_eq_ok_iff.mp stored
      refine ⟨⟨aligned, data, image, ?_⟩, ih stored⟩
      rw [loadBytes?_storeAll stored (Int.le_of_eq (congrArg _ (length_image? image)))]
      exact Mem.loadBytes?_storeBytes?_same written

/-- The initialisers of a block with room for them are written if each is in order. -/
theorem exists_storeAll_iff {hi : Int} (live : m.liveBounds? b = some (0, hi)) (first : 0 ≤ ofs)
    (last : ofs + sumSizes init ≤ hi) :
    (∃ m', storeAll blockOf name b ofs init m = .ok m') ↔
      EachAt (fun ofs d => d.AlignedAt ofs ∧ (d.image? blockOf).isSome) ofs init := by
  induction init generalizing ofs m with
  | nil => exact iff_of_true ⟨m, rfl⟩ trivial
  | cons d rest ih =>
      have nonneg := d.size_nonneg
      have room := sumSizes_nonneg rest
      rw [sumSizes] at last
      constructor
      · rintro ⟨m', stored⟩
        obtain ⟨aligned, data, mid, image, written, stored⟩ := storeAll_cons_eq_ok_iff.mp stored
        have live' := (Mem.liveBounds?_storeBytes? written b).trans live
        exact ⟨⟨aligned, Option.isSome_of_eq_some image⟩,
          (ih live' (by omega) (by omega)).mp ⟨m', stored⟩⟩
      · rintro ⟨⟨aligned, known⟩, each⟩
        obtain ⟨data, image⟩ := Option.isSome_iff_exists.mp known
        have length := length_image? image
        have covered : m.covers b ofs data.length :=
          Mem.covers_iff.mpr ⟨0, hi, live, Int.natCast_nonneg _, first, by omega⟩
        have written := Mem.storeBytes?_eq_some_iff.mpr ⟨covered, rfl⟩
        have live' := (Mem.liveBounds?_storeBytes? written b).trans live
        obtain ⟨m', stored⟩ := (ih live' (by omega) (by omega)).mpr each
        exact ⟨m', storeAll_cons_eq_ok_iff.mpr ⟨aligned, data, _, image, written, stored⟩⟩

/-- No initialiser brings in a pointer to anything but blocks of symbols. -/
theorem pointsInto_storeAll (points : m.PointsInto fun b => ∃ symbol, blockOf symbol = some b)
    (stored : storeAll blockOf name b ofs init m = .ok m') :
    m'.PointsInto fun b => ∃ symbol, blockOf symbol = some b := by
  induction init generalizing ofs m with
  | nil =>
      cases stored
      exact points
  | cons d rest ih =>
      obtain ⟨-, data, mid, image, written, stored⟩ := storeAll_cons_eq_ok_iff.mp stored
      exact ih (points.storeBytes? (pointsInto_image? image) written) stored

end InitData

end LateIR
