import QubitRouting.Ranked

/-!
# Qubit identifiers

The same identifiers name logical qubits on the way into the router and hardware qubits on the way
out.
-/

namespace QubitRouting

/-- The 32-bit number that names a qubit. -/
structure QubitId where
  index : UInt32
deriving DecidableEq

namespace QubitId

/-- The number of a qubit as a natural number. -/
def toNat (q : QubitId) : Nat := q.index.toNat

/-- The qubit with the given number, which is taken modulo `2 ^ 32`. -/
def ofNat (n : Nat) : QubitId := ⟨UInt32.ofNat n⟩

/-- The short name of a qubit, such as `q3`. -/
def label (q : QubitId) : String := "q" ++ toString q.toNat

/-- The name of a qubit inside the description of a command. -/
def describe (q : QubitId) : String := "QubitId(" ++ toString q.toNat ++ ")"

/-- Qubits with the same number are the same. -/
theorem toNat_inj {a b : QubitId} : a.toNat = b.toNat ↔ a = b := by
  cases a
  cases b
  simp [toNat, UInt32.toNat_inj]

/-- The number of a qubit fits a 32-bit word. -/
theorem toNat_lt (q : QubitId) : q.toNat < UInt32.size := q.index.toNat_lt

/-- A qubit is the one made from its number. -/
theorem ofNat_toNat (q : QubitId) : ofNat q.toNat = q := by
  cases q
  simp [ofNat, toNat]

/-- The qubit made from a number that fits a word has that number. -/
theorem toNat_ofNat {n : Nat} (h : n < UInt32.size) : (ofNat n).toNat = n := by
  simpa [ofNat, toNat] using h

instance : Ranked QubitId where
  rank := toNat
  rank_inj := toNat_inj.mp

/-- Qubits are compared by their numbers. -/
instance : LT QubitId := ⟨fun a b => a.toNat < b.toNat⟩

instance (a b : QubitId) : Decidable (a < b) := inferInstanceAs (Decidable (a.toNat < b.toNat))

end QubitId

end QubitRouting
