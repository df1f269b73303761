import LateIR.Proofs.Convention.Layout

/-!
The layout of arguments is injective and stable. Every argument has a location of its own,
which suits its type and depends on the arguments before it only, and the stack words that a
signature needs are those that its locations use (`argument_layout`).
-/

namespace LateIR

/-- Where the arguments of a signature travel, and how much of the stack they need. -/
theorem argument_layout (s : Signature) :
    List.Forall₂ s.Suits s.args s.argLocs ∧
    (∀ i, s.argLocs[i]? = s.args[i]?.map (s.argLocAt i)) ∧
    s.argLocs.Nodup ∧ (s.argLocs.Pairwise fun l l' => l.overlaps l' = false) ∧
    s.argWords = 2 * (max 0 ((s.args.countP (·.isFloat = false) : Int) - 6) +
      max 0 ((s.args.countP (·.isFloat = true) : Int) - 8)) ∧
    ∀ more res conv, s.argLocs <+: Signature.argLocs ⟨s.args ++ more, res, conv⟩ :=
  ⟨s.suits_argLocs, s.getElem?_argLocs, s.nodup_argLocs, s.pairwise_argLocs, s.argWords_eq,
    s.argLocs_prefix⟩

/-- Integers and floating-point numbers share the stack. -/
example : (Signature.argLocs ⟨.replicate 7 .int ++ .replicate 9 .single, none, .standard⟩).filter
    Loc.isSlot = [.slot .outgoing 0 .int, .slot .outgoing 2 .single] := by
  decide

end LateIR
