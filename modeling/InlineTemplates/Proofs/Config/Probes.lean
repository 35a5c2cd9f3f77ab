import InlineTemplates.Config.TableOrder
import Mathlib.Algebra.Group.Nat.Even
import Mathlib.Data.Fintype.EquivFin
import Mathlib.Data.Nat.Prime.Basic
import Mathlib.Tactic.Ring

/-! # The slots that a hash leads to

A table has as many slots as a power of two. The groups that a hash leads to are apart by triangular
numbers, and these meet every remainder of a power of two. So a hash leads to every slot. -/

namespace InlineTemplates.Config.Table

/-! ## Triangular numbers -/

/-- How far a group is from the first one, in groups. -/
def triangle (n : Nat) : Nat := n * (n + 1) / 2

theorem two_mul_triangle (n : Nat) : 2 * triangle n = n * (n + 1) :=
  Nat.mul_div_cancel' (Nat.even_mul_succ_self n).two_dvd

theorem two_pow_dvd_of_odd_add {m a b : Nat} (hodd : (a + b) % 2 = 1) (h : 2 ^ m ∣ a * b) :
    2 ^ m ∣ a ∨ 2 ^ m ∣ b := by
  rcases Nat.mod_two_eq_zero_or_one a with ha | ha
  · have hb : Nat.Coprime 2 b := Nat.coprime_two_left.2 (Nat.odd_iff.2 (by omega))
    exact .inl ((Nat.Coprime.pow_left m hb).dvd_of_dvd_mul_right h)
  · have ha : Nat.Coprime 2 a := Nat.coprime_two_left.2 (Nat.odd_iff.2 ha)
    exact .inr ((Nat.Coprime.pow_left m ha).dvd_of_dvd_mul_left h)

theorem triangle_injective {k r s : Nat} (hr : r < 2 ^ k) (hs : s < 2 ^ k)
    (h : triangle r % 2 ^ k = triangle s % 2 ^ k) : r = s := by
  wlog hle : s ≤ r generalizing r s
  · exact (this hs hr h.symm (by omega)).symm
  obtain ⟨d, rfl⟩ := Nat.exists_eq_add_of_le hle
  -- Twice the difference of the triangles is a product of two factors with an odd sum.
  have hdouble : 2 ^ (k + 1) ∣ d * (2 * s + d + 1) := by
    have hsum : 2 * triangle (s + d) = 2 * triangle s + d * (2 * s + d + 1) := by
      rw [two_mul_triangle, two_mul_triangle]
      ring
    have hdvd : 2 ^ k ∣ triangle (s + d) - triangle s :=
      Nat.dvd_of_mod_eq_zero (Nat.sub_mod_eq_zero_of_mod_eq h)
    have heq : d * (2 * s + d + 1) = 2 * (triangle (s + d) - triangle s) := by omega
    rw [heq, Nat.pow_succ']
    exact Nat.mul_dvd_mul_left 2 hdvd
  have hpow : 2 ^ (k + 1) = 2 * 2 ^ k := Nat.pow_succ'
  rcases two_pow_dvd_of_odd_add (by omega) hdouble with hd | hd
  · have hzero := Nat.eq_zero_of_dvd_of_lt hd (by omega)
    omega
  · have hzero := Nat.eq_zero_of_dvd_of_lt hd (by omega)
    omega

theorem exists_triangle (k q : Nat) : ∃ r < 2 ^ k, triangle r % 2 ^ k = q % 2 ^ k := by
  have hpos : 0 < 2 ^ k := Nat.two_pow_pos k
  let f : Fin (2 ^ k) → Fin (2 ^ k) := fun r => ⟨triangle r % 2 ^ k, Nat.mod_lt _ hpos⟩
  have hinj : Function.Injective f := fun r s h =>
    Fin.ext (triangle_injective r.isLt s.isLt (congrArg Fin.val h))
  obtain ⟨r, hr⟩ := Finite.surjective_of_injective hinj ⟨q % 2 ^ k, Nat.mod_lt _ hpos⟩
  exact ⟨r, r.isLt, congrArg Fin.val hr⟩

/-! ## Slots -/

def IsSize (n : Nat) : Prop := ∃ k, 2 ≤ k ∧ n = 2 ^ k

theorem IsSize.pos {n : Nat} (h : IsSize n) : 0 < n := by
  obtain ⟨k, -, rfl⟩ := h
  exact Nat.two_pow_pos k

theorem mem_probes_iff {n hash j : Nat} :
    j ∈ probes n hash ↔ ∃ r < n / 16 + 1, ∃ i < 16, (hash + 16 * triangle r + i) % n = j := by
  simp [probes, triangle]

theorem head?_probes (n hash : Nat) : (probes n hash).head? = some (hash % n) := by
  simp [probes, List.range_succ_eq_map]

theorem exists_group {n : Nat} (hn : IsSize n) {d : Nat} (hd : d < n) :
    ∃ r < n / 16 + 1, ∃ i < 16, (16 * triangle r + i) % n = d := by
  obtain ⟨k, -, rfl⟩ := hn
  rcases Nat.lt_or_ge k 4 with hk | hk
  · have hsmall : 2 ^ k ≤ 2 ^ 4 := Nat.pow_le_pow_right (by decide) (by omega)
    exact ⟨0, by omega, d, by omega, by simpa [triangle] using Nat.mod_eq_of_lt hd⟩
  · obtain ⟨l, rfl⟩ := Nat.exists_eq_add_of_le hk
    rw [Nat.pow_add] at *
    obtain ⟨r, hr, htriangle⟩ := exists_triangle l (d / 16)
    have hq : d / 16 < 2 ^ l := by omega
    rw [Nat.mod_eq_of_lt hq] at htriangle
    refine ⟨r, by omega, d % 16, Nat.mod_lt _ (by decide), ?_⟩
    have hgroup : 16 * triangle r % (2 ^ 4 * 2 ^ l) = 16 * (d / 16) := by
      rw [← htriangle]
      exact Nat.mul_mod_mul_left 16 _ _
    rw [← Nat.mod_add_mod, hgroup, Nat.div_add_mod, Nat.mod_eq_of_lt hd]

theorem mem_probes {n j : Nat} (hn : IsSize n) (hj : j < n) (hash : Nat) : j ∈ probes n hash := by
  have hpos := hn.pos
  obtain ⟨r, hr, i, hi, heq⟩ := exists_group hn (Nat.mod_lt (j + n - hash % n) hpos)
  refine mem_probes_iff.2 ⟨r, hr, i, hi, ?_⟩
  have hhash := Nat.mod_lt hash hpos
  rw [Nat.add_assoc, Nat.add_mod, heq, Nat.add_mod_mod,
    show hash % n + (j + n - hash % n) = j + n by omega, Nat.add_mod_right, Nat.mod_eq_of_lt hj]

end InlineTemplates.Config.Table
