import LateIR.Proofs.Location.Slots
import Mathlib.Data.List.Sort

/-!
Slot maps by their entries. Two maps with the same entries, or in which the same is found at
every place, are equal (`SlotMap.ext_mem`, `SlotMap.ext_find?`). An entry that is put in its
place leaves no trace of the one that was there before.
-/

namespace LateIR

namespace SlotEntry

theorem not_before_self (e : SlotEntry) : ¬ e.Before e :=
  not_before_of_samePlace ⟨rfl, rfl⟩

instance : Std.Irrefl Before := ⟨not_before_self⟩

instance : Std.Antisymm Before where
  antisymm a _ before after := absurd (before.trans after) a.not_before_self

end SlotEntry

namespace SlotMap

open SlotEntry

theorem ext_mem {m m' : SlotMap} (same : ∀ e, e ∈ m.entries ↔ e ∈ m'.entries) : m = m' :=
  ext_entries (m.sorted.eq_of_mem_iff m'.sorted same)

/-- A map is known by what is found in it, place by place. -/
theorem ext_find? {m m' : SlotMap} (same : ∀ kind ofs, m.find? kind ofs = m'.find? kind ofs) :
    m = m' := by
  have mem_iff : ∀ (m : SlotMap) (e : SlotEntry),
      e ∈ m.entries ↔ m.find? e.kind e.ofs = some e := by
    intro m e
    rw [find?_eq_some_iff, and_iff_left ⟨rfl, rfl⟩]
  apply ext_mem
  intro e
  rw [mem_iff, mem_iff, same]

/-- Only the later one of two entries for one place is kept. -/
theorem insert_insert (m : SlotMap) {e e' : SlotEntry} (place : e.SamePlace e') :
    (m.insert e).insert e' = m.insert e' := by
  apply ext_find?
  intro kind ofs
  rw [find?_insert, find?_insert, find?_insert]
  by_cases here : e'.kind = kind ∧ e'.ofs = ofs
  · rw [if_pos here, if_pos here]
  · have elsewhere : ¬ (e.kind = kind ∧ e.ofs = ofs) := by rwa [place.1, place.2]
    rw [if_neg here, if_neg here, if_neg elsewhere]

/-- It does not matter what was put in a place that is cleared. -/
theorem filter_insert (m : SlotMap) {e : SlotEntry} {keep : SlotEntry → Bool}
    (cleared : ∀ x : SlotEntry, x.SamePlace e → keep x = false) :
    (m.insert e).filter keep = m.filter keep := by
  apply ext_find?
  intro kind ofs
  rw [find?_filter, find?_filter, find?_insert]
  split
  · rename_i here
    rw [Option.filter_some, cleared e ⟨rfl, rfl⟩]
    cases found : m.find? kind ofs with
    | none => rfl
    | some x =>
        obtain ⟨-, kind', ofs'⟩ := find?_eq_some_iff.mp found
        have place : x.SamePlace e := ⟨kind'.trans here.1.symm, ofs'.trans here.2.symm⟩
        rw [Option.filter_some, cleared x place]
        rfl
  · rfl

end SlotMap

end LateIR
