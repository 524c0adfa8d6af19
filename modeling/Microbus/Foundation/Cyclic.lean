import Mathlib.Data.Nat.ModEq
import Mathlib.Tactic.Ring

/-! Distances on a circle of `m` residues, and the intervals of naturals they stand for. -/
namespace Cyclic

/-- How far `b` lies ahead of `a` on the circle. -/
def dist (m a b : Nat) : Nat := (b + m - a) % m

/-- On residues of numbers less than a turn apart the distance is the difference. -/
theorem dist_mod {m a b : Nat} (hab : a ≤ b) (hb : b < a + m) : dist m (a % m) (b % m) = b - a := by
  have hm : 0 < m := by omega
  have ha : a % m < m := Nat.mod_lt _ hm
  obtain ⟨k, rfl⟩ := Nat.exists_eq_add_of_le hab
  have hk : k < m := by omega
  have hcast : a % m + k = (a + k) % m ∨ a % m + k = (a + k) % m + m := by
    rcases Nat.lt_or_ge (a % m + k) m with h | h
    · left
      rw [Nat.add_mod, Nat.mod_eq_of_lt hk, Nat.mod_eq_of_lt h]
    · right
      have hr : (a % m + k) % m = a % m + k - m := by
        rw [Nat.mod_eq_sub_mod h, Nat.mod_eq_of_lt (by omega)]
      rw [Nat.add_mod, Nat.mod_eq_of_lt hk, hr]
      omega
  unfold dist
  rcases hcast with h | h
  · rw [← h, show a % m + k + m - a % m = k + m by omega, Nat.add_mod_right, Nat.mod_eq_of_lt hk]
    omega
  · rw [show (a + k) % m + m - a % m = k by omega, Nat.mod_eq_of_lt hk]
    omega

theorem eq_of_mod_eq {m a b : Nat} (h : a % m = b % m) (hab : a < b + m) (hba : b < a + m) : a = b := by
  rcases Nat.le_total a b with hle | hle
  · have hd := dist_mod hle hba
    rw [h] at hd
    have hz : dist m (b % m) (b % m) = 0 := by
      unfold dist
      rw [show b % m + m - b % m = m by omega, Nat.mod_self]
    omega
  · have hd := dist_mod hle hab
    rw [h] at hd
    have hz : dist m (b % m) (b % m) = 0 := by
      unfold dist
      rw [show b % m + m - b % m = m by omega, Nat.mod_self]
    omega

end Cyclic
