/-!
# Ranked types

A ranked type is one whose values are told apart, and put in order, by a natural number.
-/

namespace QubitRouting

/-- A type whose values are ordered by an injective rank. -/
class Ranked (K : Type) where
  /-- The number that orders the value. -/
  rank : K → Nat
  /-- Values of the same rank are the same value. -/
  rank_inj : ∀ {a b : K}, rank a = rank b → a = b

export Ranked (rank)

instance : Ranked Nat where
  rank n := n
  rank_inj h := h

instance : Ranked UInt32 where
  rank w := w.toNat
  rank_inj h := UInt32.toNat_inj.mp h

namespace Ranked

variable {K : Type} [Ranked K]

/-- Keys of the same rank are the same. -/
theorem rank_eq_iff {a b : K} : rank a = rank b ↔ a = b :=
  ⟨rank_inj, congrArg rank⟩

end Ranked

end QubitRouting
