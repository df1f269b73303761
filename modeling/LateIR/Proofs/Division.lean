import LateIR.Value.Arith

/-!
Quotients and remainders. A division has a result for exactly the operands that admit one, a
quotient and a remainder for the same ones, and together they make up the dividend without
wrapping around, both for signed integers, where quotients are rounded toward zero, and for
unsigned ones (`divisions_exact`).
-/

namespace LateIR

/-- Whether `q` and `r` are the quotient of `x` by `y`, rounded toward zero, and the remainder. -/
structure QuotRem (x y q r : Int) : Prop where
  whole : q * y + r = x
  small : r.natAbs < y.natAbs
  sign : r = 0 ∨ r.sign = x.sign

theorem quotRem_tdiv_tmod (x : Int) {y : Int} (nonzero : y ≠ 0) :
    QuotRem x y (x.tdiv y) (x.tmod y) where
  whole := Int.tdiv_mul_add_tmod x y
  small := by
    rw [Int.natAbs_tmod]
    exact Nat.mod_lt _ (Int.natAbs_pos.mpr nonzero)
  sign := by
    by_cases divides : y ∣ x
    · exact .inl (Int.tmod_eq_zero_of_dvd divides)
    · exact .inr ((Int.sign_tmod x y).trans (if_neg divides))

namespace QuotRem

variable {x y q r : Int}

theorem side (divided : QuotRem x y q r) : (0 ≤ x → 0 ≤ r) ∧ (x ≤ 0 → r ≤ 0) := by
  rcases divided.sign with rfl | same
  · exact ⟨fun _ => Int.le_refl 0, fun _ => Int.le_refl 0⟩
  · constructor
    · intro nonneg
      exact Int.sign_nonneg_iff.mp (same ▸ Int.sign_nonneg_iff.mpr nonneg)
    · intro nonpos
      exact Int.sign_nonpos_iff.mp (same ▸ Int.sign_nonpos_iff.mpr nonpos)

/-- The part of the dividend that the quotient accounts for lies between zero and the dividend:
the multiple of the divisor next to it on the other side of zero would be too far away. -/
theorem product_between (divided : QuotRem x y q r) : min x 0 ≤ q * y ∧ q * y ≤ max x 0 := by
  have whole := divided.whole
  have small := divided.small
  obtain ⟨nonneg, nonpos⟩ := divided.side
  by_cases zero : q = 0
  · subst zero
    omega
  · have far : y.natAbs ≤ (q * y).natAbs := by
      rw [Int.natAbs_mul]
      exact Nat.le_mul_of_pos_left _ (Int.natAbs_pos.mpr zero)
    omega

end QuotRem

/-! ### Words of any width -/

section Words

variable {w : Nat} {x y : BitVec w}

theorem quotRem_sdiv_srem (nonzero : y ≠ 0#w) (fits : x ≠ BitVec.intMin w ∨ y ≠ -1#w) :
    QuotRem x.toInt y.toInt (x.sdiv y).toInt (x.srem y).toInt := by
  rw [BitVec.toInt_sdiv_of_ne_or_ne x y fits, BitVec.toInt_srem]
  exact quotRem_tdiv_tmod x.toInt fun zero => nonzero (BitVec.toInt_inj.mp (by simpa using zero))

/-- The product of a quotient and its divisor does not wrap around. -/
theorem toInt_mul_of_quotRem {q r : BitVec w}
    (divided : QuotRem x.toInt y.toInt q.toInt r.toInt) :
    (q * y).toInt = q.toInt * y.toInt := by
  obtain ⟨lower, upper⟩ := divided.product_between
  have least := BitVec.le_two_mul_toInt (x := x)
  have most := BitVec.two_mul_toInt_lt (x := x)
  rw [BitVec.toInt_mul]
  apply Int.bmod_eq_of_le_mul_two
  · simp only [Int.natCast_pow, Int.cast_ofNat_Int]
    omega
  · simp only [Int.natCast_pow, Int.cast_ofNat_Int]
    omega

/-- Quotient and remainder make up the dividend as words too. -/
theorem mul_add_of_quotRem {q r : BitVec w}
    (divided : QuotRem x.toInt y.toInt q.toInt r.toInt) : q * y + r = x := by
  apply BitVec.toInt_inj.mp
  rw [BitVec.toInt_add, toInt_mul_of_quotRem divided, divided.whole, BitVec.toInt_bmod_cancel]

end Words

namespace Val

variable {a b v w : Val}

/-! ### Operands that can be divided -/

theorem divideInt?_eq_some_iff {overflows : Int32 → Int32 → Bool} {f : Int32 → Int32 → Int32} :
    divideInt? overflows f a b = some v ↔
      ∃ x y, a = int x ∧ b = int y ∧ (y ≠ 0 ∧ overflows x y = false) ∧ v = int (f x y) := by
  constructor
  · intro divided
    unfold divideInt? at divided
    split at divided
    · rename_i x y
      obtain ⟨apart, same⟩ := Option.ite_none_left_eq_some.mp divided
      cases same
      exact ⟨x, y, rfl, rfl, by simpa using apart, rfl⟩
    · cases divided
  · rintro ⟨x, y, rfl, rfl, ⟨nonzero, fits⟩, rfl⟩
    simp [divideInt?, nonzero, fits]

theorem divLong?_eq_some_iff :
    a.divLong? b = some v ↔
      ∃ x y, a = long x ∧ b = long y ∧ (y ≠ 0 ∧ overflowsLong x y = false) ∧
        v = long (x / y) := by
  constructor
  · intro divided
    unfold divLong? at divided
    split at divided
    · rename_i x y
      obtain ⟨apart, same⟩ := Option.ite_none_left_eq_some.mp divided
      cases same
      exact ⟨x, y, rfl, rfl, by simpa using apart, rfl⟩
    · cases divided
  · rintro ⟨x, y, rfl, rfl, ⟨nonzero, fits⟩, rfl⟩
    simp [divLong?, nonzero, fits]

/-- An operation has a result when its operands meet the condition on which it has one. -/
theorem isSome_iff_exists_operands {α : Type} {kind : α → Val} {P : α → α → Prop}
    {result : α → α → Val} {o : Option Val}
    (spec : ∀ v, o = some v ↔ ∃ x y, a = kind x ∧ b = kind y ∧ P x y ∧ v = result x y) :
    o.isSome ↔ ∃ x y, a = kind x ∧ b = kind y ∧ P x y := by
  simp only [Option.isSome_iff_exists, spec]
  constructor
  · rintro ⟨v, x, y, first, second, divisible, -⟩
    exact ⟨x, y, first, second, divisible⟩
  · rintro ⟨x, y, first, second, divisible⟩
    exact ⟨result x y, x, y, first, second, divisible, rfl⟩

theorem isSome_divideInt?_iff {overflows : Int32 → Int32 → Bool}
    {f : Int32 → Int32 → Int32} :
    (divideInt? overflows f a b).isSome ↔
      ∃ x y, a = int x ∧ b = int y ∧ y ≠ 0 ∧ overflows x y = false :=
  isSome_iff_exists_operands fun _ => divideInt?_eq_some_iff

theorem isSome_divLong?_iff :
    (a.divLong? b).isSome ↔
      ∃ x y, a = long x ∧ b = long y ∧ y ≠ 0 ∧ overflowsLong x y = false :=
  isSome_iff_exists_operands fun _ => divLong?_eq_some_iff

theorem overflowsInt_eq_false_iff {x y : Int32} :
    overflowsInt x y = false ↔ ¬ (x = Int32.minValue ∧ y = -1) := by
  simp [overflowsInt]

theorem overflowsLong_eq_false_iff {x y : Int64} :
    overflowsLong x y = false ↔ ¬ (x = Int64.minValue ∧ y = -1) := by
  simp [overflowsLong]

/-! ### Results -/

theorem quotRem_int {x y : Int32} (nonzero : y ≠ 0) (fits : overflowsInt x y = false) :
    QuotRem x.toInt y.toInt (x / y).toInt (x % y).toInt := by
  have apart := overflowsInt_eq_false_iff.mp fits
  rw [← Int32.toBitVec_inj, ← Int32.toBitVec_inj, Classical.not_and_iff_not_or_not] at apart
  rw [ne_eq, ← Int32.toBitVec_inj] at nonzero
  exact quotRem_sdiv_srem nonzero apart

theorem quotRem_long {x y : Int64} (nonzero : y ≠ 0) (fits : overflowsLong x y = false) :
    QuotRem x.toInt y.toInt (x / y).toInt (x % y).toInt := by
  have apart := overflowsLong_eq_false_iff.mp fits
  rw [← Int64.toBitVec_inj, ← Int64.toBitVec_inj, Classical.not_and_iff_not_or_not] at apart
  rw [ne_eq, ← Int64.toBitVec_inj] at nonzero
  exact quotRem_sdiv_srem nonzero apart

theorem quotRem_of_div?_mod? (divided : a.div? b = some v) (rest : a.mod? b = some w) :
    (v.mul b).add w = a ∧ ∃ x y q r : Int32, a = int x ∧ b = int y ∧ v = int q ∧ w = int r ∧
      (q * y).toInt = q.toInt * y.toInt ∧ QuotRem x.toInt y.toInt q.toInt r.toInt := by
  obtain ⟨x, y, rfl, rfl, ⟨nonzero, fits⟩, rfl⟩ := divideInt?_eq_some_iff.mp divided
  obtain ⟨x', y', first, second, -, rfl⟩ := divideInt?_eq_some_iff.mp rest
  cases first
  cases second
  have result := quotRem_int nonzero fits
  constructor
  · exact congrArg int (Int32.toBitVec_inj.mp (mul_add_of_quotRem result))
  · exact ⟨x, y, x / y, x % y, rfl, rfl, rfl, rfl, toInt_mul_of_quotRem result, result⟩

theorem quotRem_of_divUnsigned?_modUnsigned? (divided : a.divUnsigned? b = some v)
    (rest : a.modUnsigned? b = some w) :
    ∃ x y q r : Int32, a = int x ∧ b = int y ∧ v = int q ∧ w = int r ∧
      x.toUInt32.toNat = q.toUInt32.toNat * y.toUInt32.toNat + r.toUInt32.toNat ∧
      r.toUInt32.toNat < y.toUInt32.toNat := by
  obtain ⟨x, y, rfl, rfl, ⟨nonzero, -⟩, rfl⟩ := divideInt?_eq_some_iff.mp divided
  obtain ⟨x', y', first, second, -, rfl⟩ := divideInt?_eq_some_iff.mp rest
  cases first
  cases second
  refine ⟨x, y, _, _, rfl, rfl, rfl, rfl, ?_, ?_⟩
  · rw [UInt32.toUInt32_toInt32, UInt32.toUInt32_toInt32, UInt32.toNat_div, UInt32.toNat_mod]
    exact (Nat.div_add_mod' _ _).symm
  · rw [UInt32.toUInt32_toInt32, UInt32.toNat_mod]
    apply Nat.mod_lt
    apply Nat.pos_of_ne_zero
    intro zero
    exact nonzero (Int32.toBitVec_inj.mp (BitVec.eq_of_toNat_eq zero))

theorem quotRem_of_divLong? (divided : a.divLong? b = some v) :
    ∃ x y q : Int64, a = long x ∧ b = long y ∧ v = long q ∧
      (q * y).toInt = q.toInt * y.toInt ∧
      QuotRem x.toInt y.toInt q.toInt (x.toInt - q.toInt * y.toInt) := by
  obtain ⟨x, y, rfl, rfl, ⟨nonzero, fits⟩, rfl⟩ := divLong?_eq_some_iff.mp divided
  have result := quotRem_long nonzero fits
  have rest : x.toInt - (x / y).toInt * y.toInt = (x % y).toInt := by
    have whole := result.whole
    omega
  refine ⟨x, y, x / y, rfl, rfl, rfl, toInt_mul_of_quotRem result, ?_⟩
  rwa [rest]

end Val

/-- Which operands the divisions accept, and what they make of them. -/
theorem divisions_exact (a b : Val) :
    (((a.div? b).isSome ↔
        ∃ x y, a = .int x ∧ b = .int y ∧ y ≠ 0 ∧ ¬ (x = Int32.minValue ∧ y = -1)) ∧
      ((a.mod? b).isSome ↔ (a.div? b).isSome) ∧
      ∀ v w, a.div? b = some v → a.mod? b = some w →
        (v.mul b).add w = a ∧
        ∃ x y q r : Int32, a = .int x ∧ b = .int y ∧ v = .int q ∧ w = .int r ∧
          (q * y).toInt = q.toInt * y.toInt ∧ QuotRem x.toInt y.toInt q.toInt r.toInt) ∧
    (((a.divUnsigned? b).isSome ↔ ∃ x y, a = .int x ∧ b = .int y ∧ y ≠ 0) ∧
      ((a.modUnsigned? b).isSome ↔ (a.divUnsigned? b).isSome) ∧
      ∀ v w, a.divUnsigned? b = some v → a.modUnsigned? b = some w →
        ∃ x y q r : Int32, a = .int x ∧ b = .int y ∧ v = .int q ∧ w = .int r ∧
          x.toUInt32.toNat = q.toUInt32.toNat * y.toUInt32.toNat + r.toUInt32.toNat ∧
          r.toUInt32.toNat < y.toUInt32.toNat) ∧
    ((a.divLong? b).isSome ↔
      ∃ x y, a = .long x ∧ b = .long y ∧ y ≠ 0 ∧ ¬ (x = Int64.minValue ∧ y = -1)) ∧
    ∀ v, a.divLong? b = some v →
      ∃ x y q : Int64, a = .long x ∧ b = .long y ∧ v = .long q ∧
        (q * y).toInt = q.toInt * y.toInt ∧
        QuotRem x.toInt y.toInt q.toInt (x.toInt - q.toInt * y.toInt) := by
  simp only [← Val.overflowsInt_eq_false_iff, ← Val.overflowsLong_eq_false_iff]
  have alike : ∀ {overflows f g}, (Val.divideInt? overflows f a b).isSome ↔
      (Val.divideInt? overflows g a b).isSome :=
    Val.isSome_divideInt?_iff.trans Val.isSome_divideInt?_iff.symm
  refine ⟨⟨Val.isSome_divideInt?_iff, alike, ?_⟩, ⟨?_, alike, ?_⟩, Val.isSome_divLong?_iff, ?_⟩
  · intro v w divided rest
    exact Val.quotRem_of_div?_mod? divided rest
  · exact Val.isSome_divideInt?_iff.trans (by simp)
  · intro v w divided rest
    exact Val.quotRem_of_divUnsigned?_modUnsigned? divided rest
  · intro v divided
    exact Val.quotRem_of_divLong? divided

/-- The quotient of a negative number is rounded up, and its remainder is negative, unless the
number is read as unsigned. -/
theorem divisions_exact_negative :
    ((Val.int (-7)).div? (.int 2) = some (.int (-3)) ∧
      (Val.int (-7)).mod? (.int 2) = some (.int (-1)) ∧
      ((Val.int (-3)).mul (.int 2)).add (.int (-1)) = .int (-7)) ∧
    ((Val.int (-7)).divUnsigned? (.int 2) = some (.int 2147483644) ∧
      (Val.int (-7)).modUnsigned? (.int 2) = some (.int 1) ∧
      (-7 : Int32).toUInt32.toNat =
        (2147483644 : Int32).toUInt32.toNat * (2 : Int32).toUInt32.toNat +
          (1 : Int32).toUInt32.toNat) ∧
    (Val.long Int64.minValue).divLong? (.long (-2)) = some (.long 4611686018427387904) ∧
      (4611686018427387904 * -2 : Int64).toInt =
        (4611686018427387904 : Int64).toInt * (-2 : Int64).toInt := by
  have signed : (Val.int (-7)).div? (.int 2) = some (.int (-3)) := by decide
  have signedRest : (Val.int (-7)).mod? (.int 2) = some (.int (-1)) := by decide
  have unsigned : (Val.int (-7)).divUnsigned? (.int 2) = some (.int 2147483644) := by decide
  have unsignedRest : (Val.int (-7)).modUnsigned? (.int 2) = some (.int 1) := by decide
  have wide : (Val.long Int64.minValue).divLong? (.long (-2)) =
    some (.long 4611686018427387904) := by decide
  obtain ⟨⟨-, -, ofSigned⟩, ⟨-, -, ofUnsigned⟩, -⟩ := divisions_exact (.int (-7)) (.int 2)
  obtain ⟨-, -, -, ofWide⟩ := divisions_exact (.long Int64.minValue) (.long (-2))
  refine ⟨⟨signed, signedRest, (ofSigned _ _ signed signedRest).1⟩,
    ⟨unsigned, unsignedRest, ?_⟩, wide, ?_⟩
  · obtain ⟨x, y, q, r, first, second, quotient, rest, whole, -⟩ :=
      ofUnsigned _ _ unsigned unsignedRest
    cases first
    cases second
    cases quotient
    cases rest
    exact whole
  · obtain ⟨x, y, q, first, second, quotient, product, -⟩ := ofWide _ wide
    cases first
    cases second
    cases quotient
    exact product

end LateIR
