import Mathlib.Algebra.Order.Ring.Nat
import Mathlib.Tactic.Ring

/-!
# Little-endian numbers of a fixed width

`leBytes k n` is the number `n` as `k` bytes, least significant first, and `ofLeBytes` reads such a
list back.  A number that does not fit is cut down to its last `k` bytes, as a store into a
fixed-width integer does; `ofLeBytes_leBytes` says so, and `ofLeBytes_leBytes_of_lt` is the case
everyone wants.
-/

set_option autoImplicit false

namespace Codec

/-- The `k` low bytes of `n`, least significant first. -/
def leBytes : ℕ → ℕ → List UInt8
  | 0, _ => []
  | k + 1, n => UInt8.ofNat (n % 256) :: leBytes k (n / 256)

/-- The number a little-endian list of bytes stands for. -/
def ofLeBytes : List UInt8 → ℕ
  | [] => 0
  | b :: bs => b.toNat + 256 * ofLeBytes bs

@[simp] theorem length_leBytes (k n : ℕ) : (leBytes k n).length = k := by
  induction k generalizing n with
  | zero => rfl
  | succ k ih => rw [leBytes, List.length_cons, ih]

theorem ofLeBytes_leBytes (k n : ℕ) : ofLeBytes (leBytes k n) = n % 256 ^ k := by
  induction k generalizing n with
  | zero => simp [leBytes, ofLeBytes, Nat.mod_one]
  | succ k ih =>
    have hb : (UInt8.ofNat (n % 256)).toNat = n % 256 := by
      rw [UInt8.toNat_ofNat']
      exact Nat.mod_eq_of_lt (Nat.mod_lt n (by norm_num))
    rw [leBytes, ofLeBytes, ih, hb, pow_succ', Nat.mod_mul]

theorem ofLeBytes_leBytes_of_lt {k n : ℕ} (h : n < 256 ^ k) : ofLeBytes (leBytes k n) = n := by
  rw [ofLeBytes_leBytes, Nat.mod_eq_of_lt h]

theorem leBytes_ofLeBytes (bs : List UInt8) : leBytes bs.length (ofLeBytes bs) = bs := by
  induction bs with
  | nil => rfl
  | cons b bs ih =>
    have hb : b.toNat < 256 := b.toNat_lt
    have hmod : (b.toNat + 256 * ofLeBytes bs) % 256 = b.toNat := by omega
    have hdiv : (b.toNat + 256 * ofLeBytes bs) / 256 = ofLeBytes bs := by omega
    rw [List.length_cons, ofLeBytes, leBytes, hmod, hdiv, ih, UInt8.ofNat_toNat]

theorem ofLeBytes_lt (bs : List UInt8) : ofLeBytes bs < 256 ^ bs.length := by
  have h := ofLeBytes_leBytes bs.length (ofLeBytes bs)
  rw [leBytes_ofLeBytes] at h
  rw [h]
  exact Nat.mod_lt _ (Nat.pow_pos (by norm_num))

/-- A number behind some data, and the data, can be told from one another. -/
theorem append_leBytes_inj {data data' : List UInt8} {k m n : ℕ} (hm : m < 256 ^ k)
    (hn : n < 256 ^ k) : data ++ leBytes k m = data' ++ leBytes k n ↔ data = data' ∧ m = n := by
  constructor
  · intro h
    obtain ⟨hdata, hnumber⟩ := List.append_inj' h (by rw [length_leBytes, length_leBytes])
    refine ⟨hdata, ?_⟩
    rw [← ofLeBytes_leBytes_of_lt hm, hnumber, ofLeBytes_leBytes_of_lt hn]
  · rintro ⟨rfl, rfl⟩
    rfl

end Codec
