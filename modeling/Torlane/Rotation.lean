import Mathlib.Data.Int.CardIntervalMod

/-!
# Turns of a wrapping counter

A counter takes the values `start`, `start + 1` and so on, modulo `m`, and each value takes the
turn of its residue modulo `n`. Where the counter does not wrap, the residues take as many turns as
each other, up to one (`count_turns`). A wrap, after which the residues start again from zero, can
add one turn or take one away (`count_turns_of_wrap`).
-/

namespace Rotation

variable {m n r start k : ℕ}

/-- The residues of `k` consecutive values of a counter that wraps at `m`. -/
def turns (m n start k : ℕ) : List ℕ := (List.range k).map fun i => (start + i) % m % n

/-- One more turn. -/
theorem turns_succ : turns m n start (k + 1) = turns m n start k ++ [(start + k) % m % n] := by
  simp [turns, List.range_succ]

/-- Among consecutive numbers, each residue occurs as often as the others, up to one. -/
theorem count_residues (hr : r < n) (start k : ℕ) :
    k / n ≤ ((List.range k).map fun i => (start + i) % n).count r ∧
      ((List.range k).map fun i => (start + i) % n).count r ≤ (k + (n - 1)) / n := by
  have hn : 0 < n := Nat.zero_lt_of_lt hr
  -- The positions of a residue are a residue class themselves.
  have hclass (i : ℕ) : ((start + i) % n == r) = decide (i ≡ r + (n - start % n) [MOD n]) := by
    have hstart : start % n < n := Nat.mod_lt _ hn
    have hshift : i ≡ r + (n - start % n) [MOD n] ↔ start % n + i ≡ r + n [MOD n] := by
      have hsum : r + n = start % n + (r + (n - start % n)) := by omega
      rw [hsum]
      exact ⟨fun h => h.add_left _, fun h => h.add_left_cancel' _⟩
    have hmod : (start + i) % n = r ↔ start % n + i ≡ r + n [MOD n] := by
      unfold Nat.ModEq
      rw [Nat.mod_add_mod, Nat.add_mod_right, Nat.mod_eq_of_lt hr]
    rw [Bool.eq_iff_iff, beq_iff_eq, decide_eq_true_eq, hmod, hshift]
  have hcount : ((List.range k).map fun i => (start + i) % n).count r =
      k / n + if (r + (n - start % n)) % n < k % n then 1 else 0 := by
    rw [← Nat.count_modEq_card k hn, List.count, List.countP_map]
    show _ = (List.range k).countP _
    exact List.countP_congr fun i _ => by simp [hclass i]
  rw [hcount]
  have hdiv : n * (k / n) + k % n = k := Nat.div_add_mod k n
  split_ifs with hlt
  · refine ⟨Nat.le_add_right _ _, (Nat.le_div_iff_mul_le hn).mpr ?_⟩
    rw [Nat.add_mul, Nat.mul_comm (k / n)]
    omega
  · exact ⟨Nat.le_refl _, Nat.div_le_div_right (Nat.le_add_right k (n - 1))⟩

/-- Without a wrap, each residue takes between `⌊k / n⌋` and `⌈k / n⌉` of `k` turns. -/
theorem count_turns (hr : r < n) (hwrap : start + k ≤ m) :
    k / n ≤ (turns m n start k).count r ∧ (turns m n start k).count r ≤ (k + (n - 1)) / n := by
  have heq : turns m n start k = (List.range k).map fun i => (start + i) % n := by
    unfold turns
    refine List.map_congr_left fun i hi => ?_
    have hlt : start + i < m := by
      have := List.mem_range.mp hi
      omega
    rw [Nat.mod_eq_of_lt hlt]
  rw [heq]
  exact count_residues hr start k

/-- The turns before a wrap, and those after it. -/
theorem turns_of_wrap (hstart : start < m) (hwrap : m < start + k) :
    turns m n start k = turns m n start (m - start) ++ turns m n 0 (k - (m - start)) := by
  have hsplit : k = (m - start) + (k - (m - start)) := by omega
  unfold turns
  conv_lhs => rw [hsplit, List.range_add, List.map_append, List.map_map]
  congr 1
  refine List.map_congr_left fun i _ => ?_
  have hsum : start + (m - start + i) = m + (0 + i) := by omega
  show (start + (m - start + i)) % m % n = (0 + i) % m % n
  rw [hsum, Nat.add_mod_left]

/-- A wrap changes the number of turns by one at most. -/
theorem count_turns_of_wrap (hr : r < n) (hstart : start < m) (hk : k ≤ m)
    (hwrap : m < start + k) :
    k / n - 1 ≤ (turns m n start k).count r ∧
      (turns m n start k).count r ≤ (k + (n - 1)) / n + 1 := by
  have hn : 0 < n := Nat.zero_lt_of_lt hr
  rw [turns_of_wrap hstart hwrap, List.count_append]
  obtain ⟨hlow, hhigh⟩ : (m - start) / n ≤ (turns m n start (m - start)).count r ∧
      (turns m n start (m - start)).count r ≤ (m - start + (n - 1)) / n :=
    count_turns hr (by omega)
  obtain ⟨hlow', hhigh'⟩ : (k - (m - start)) / n ≤ (turns m n 0 (k - (m - start))).count r ∧
      (turns m n 0 (k - (m - start))).count r ≤ (k - (m - start) + (n - 1)) / n :=
    count_turns hr (by omega)
  constructor
  · have hfloor : k / n ≤ (m - start) / n + (k - (m - start)) / n + 1 := by
      have hsum : (m - start) + (k - (m - start)) = k := by omega
      rw [← hsum, Nat.add_div hn, hsum]
      split_ifs <;> omega
    omega
  · have hceil : (m - start + (n - 1)) / n + (k - (m - start) + (n - 1)) / n ≤
        (k + (n - 1)) / n + 1 :=
      calc (m - start + (n - 1)) / n + (k - (m - start) + (n - 1)) / n
          ≤ ((m - start + (n - 1)) + (k - (m - start) + (n - 1))) / n :=
            Nat.div_add_div_le_add_div
        _ ≤ (k + (n - 1) + n) / n := Nat.div_le_div_right (by omega)
        _ = (k + (n - 1)) / n + 1 := Nat.add_div_right _ hn
    omega

end Rotation
