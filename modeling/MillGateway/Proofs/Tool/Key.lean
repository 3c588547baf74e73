import MillGateway.Tool.Key

/-! The letters of the fields. Main statement: a character names a field if and only if it is the
field's letter, capital or small. -/

namespace MillGateway.Tool.Key

def small (k : Key) : Char :=
  k.symbol.toLower

theorem toNat_toUpper (c : Char) :
    c.toUpper.toNat = if 97 ≤ c.toNat ∧ c.toNat ≤ 122 then c.toNat - 32 else c.toNat := by
  change Char.toNat (dite _ _ _) = _
  split
  next h =>
    have hfirst : 97 ≤ c.val.toNat := UInt32.le_iff_toNat_le.1 h.1
    have hlast : c.val.toNat ≤ 122 := UInt32.le_iff_toNat_le.1 h.2
    rw [if_pos ⟨hfirst, hlast⟩]
    show (c.val + 4294967264).toNat = c.val.toNat - 32
    rw [UInt32.toNat_add]
    simp only [UInt32.reduceToNat]
    omega
  next h =>
    rw [if_neg]
    exact fun hlower => h ⟨UInt32.le_iff_toNat_le.2 hlower.1, UInt32.le_iff_toNat_le.2 hlower.2⟩

theorem toNat_symbol (k : Key) : 65 ≤ k.symbol.toNat ∧ k.symbol.toNat ≤ 90 ∧
    k.small.toNat = k.symbol.toNat + 32 ∨ k.symbol.toNat = 59 ∧ k.small.toNat = 59 := by
  cases k <;> decide

theorem symbol_eq_toUpper_iff {c : Char} {k : Key} :
    k.symbol = c.toUpper ↔ c = k.symbol ∨ c = k.small := by
  rw [← Char.toNat_inj, ← Char.toNat_inj, ← Char.toNat_inj, toNat_toUpper]
  rcases toNat_symbol k with h | h
  · split <;> omega
  · split <;> omega

theorem ofSymbol?_eq_some_iff {c : Char} {k : Key} :
    ofSymbol? c = some k ↔ c = k.symbol ∨ c = k.small := by
  rw [← symbol_eq_toUpper_iff]
  constructor
  · intro h
    have hk := List.find?_some h
    exact beq_iff_eq.1 hk
  · intro h
    have hself : k.symbol.toUpper = k.symbol := (symbol_eq_toUpper_iff.2 (.inl rfl)).symm
    have hk := ofSymbol?_symbol k
    rw [ofSymbol?, hself, h] at hk
    exact hk

end MillGateway.Tool.Key
