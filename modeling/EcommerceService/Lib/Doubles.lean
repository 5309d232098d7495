import Mathlib.Algebra.Order.Floor.Ring
import Mathlib.Algebra.Order.Floor.Semiring
import Mathlib.Data.Int.Log
import Mathlib.Data.Rat.Floor
import Mathlib.Tactic.FieldSimp
import Mathlib.Tactic.Linarith

namespace EcommerceService.Doubles

/-- The nearest integer, and of two the even one. -/
def roundEven (x : ℚ) : ℤ :=
  if x - ⌊x⌋ < 1 / 2 then ⌊x⌋ else if 1 / 2 < x - ⌊x⌋ then ⌊x⌋ + 1 else ⌊x⌋ + ⌊x⌋ % 2

def place (p : ℕ) (x : ℚ) : ℤ := Int.log 2 |x| - (p - 1)

/-- The nearest number of `p` binary digits, whatever its exponent. -/
def round (p : ℕ) (x : ℚ) : ℚ := roundEven (x / 2 ^ place p x) * 2 ^ place p x

/-- The number that JavaScript makes of an exact result. -/
def double (x : ℚ) : ℚ := round 53 x

section Integers

theorem roundEven_near (x : ℚ) : |x - roundEven x| ≤ 1 / 2 := by
  have hlow := Int.floor_le x
  have hhigh := Int.lt_floor_add_one x
  rw [roundEven, abs_le]
  split_ifs with hbelow habove
  · constructor <;> linarith
  · push_cast
    constructor <;> linarith
  · obtain heven | hodd := Int.emod_two_eq_zero_or_one ⌊x⌋
    · rw [heven, add_zero]
      constructor <;> linarith
    · rw [hodd]
      push_cast
      constructor <;> linarith

theorem roundEven_mono {x y : ℚ} (hxy : x ≤ y) : roundEven x ≤ roundEven y := by
  by_contra hlt
  have hgap : (roundEven y : ℚ) + 1 ≤ roundEven x := by exact_mod_cast Int.not_le.mp hlt
  obtain ⟨_, hx⟩ := abs_le.mp (roundEven_near x)
  obtain ⟨hlow, _⟩ := abs_le.mp (roundEven_near x)
  obtain ⟨_, hhigh⟩ := abs_le.mp (roundEven_near y)
  have heq : x = y := by linarith
  exact hlt (heq ▸ le_rfl)

@[simp] theorem roundEven_intCast (n : ℤ) : roundEven n = n := by
  simp [roundEven]

end Integers

section Rounding

variable {p : ℕ} {x y : ℚ} {n k : ℤ}

theorem two_zpow_pos (e : ℤ) : (0 : ℚ) < 2 ^ e := zpow_pos two_pos e

theorem grid_eq {e : ℤ} (h : e ≤ k) : ∃ m : ℤ, (n : ℚ) * 2 ^ k = m * 2 ^ e := by
  refine ⟨n * 2 ^ (k - e).toNat, ?_⟩
  have hk : k = e + (k - e).toNat := by omega
  conv_lhs => rw [hk]
  rw [zpow_add₀ two_ne_zero, zpow_natCast]
  push_cast
  ring

theorem le_round (hk : place p x ≤ k) (h : (n : ℚ) * 2 ^ k ≤ x) : (n : ℚ) * 2 ^ k ≤ round p x := by
  obtain ⟨m, hm⟩ := grid_eq (n := n) hk
  rw [hm] at h ⊢
  have hle : roundEven (m : ℚ) ≤ roundEven (x / 2 ^ place p x) :=
    roundEven_mono ((le_div_iff₀ (two_zpow_pos _)).mpr h)
  rw [roundEven_intCast] at hle
  exact mul_le_mul_of_nonneg_right (by exact_mod_cast hle) (two_zpow_pos _).le

theorem round_le (hk : place p x ≤ k) (h : x ≤ (n : ℚ) * 2 ^ k) : round p x ≤ (n : ℚ) * 2 ^ k := by
  obtain ⟨m, hm⟩ := grid_eq (n := n) hk
  rw [hm] at h ⊢
  have hle : roundEven (x / 2 ^ place p x) ≤ roundEven (m : ℚ) :=
    roundEven_mono ((div_le_iff₀ (two_zpow_pos _)).mpr h)
  rw [roundEven_intCast] at hle
  exact mul_le_mul_of_nonneg_right (by exact_mod_cast hle) (two_zpow_pos _).le

@[simp] theorem round_zero : round p 0 = 0 := by simp [round, roundEven]

theorem place_le_log (hp : 0 < p) (x : ℚ) : place p x ≤ Int.log 2 |x| := by
  rw [place]
  omega

theorem abs_lt_next (x : ℚ) : |x| < 2 ^ (Int.log 2 |x| + 1) := by
  exact_mod_cast Int.lt_zpow_succ_log_self (b := 2) one_lt_two |x|

theorem log_le_abs (hx : x ≠ 0) : (2 : ℚ) ^ Int.log 2 |x| ≤ |x| := by
  exact_mod_cast Int.zpow_log_le_self (b := 2) one_lt_two (abs_pos.mpr hx)

theorem round_le_round_of_log (hp : 0 < p) (hx : x ≠ 0) (hy : y ≠ 0)
    (hne : Int.log 2 |x| ≠ Int.log 2 |y|) (h : x ≤ y) : round p x ≤ round p y := by
  have hpow : ∀ {a b : ℤ}, a < b → (2 : ℚ) ^ (a + 1) ≤ 2 ^ b :=
    fun hab => zpow_le_zpow_right₀ one_le_two hab
  obtain hlt | hlt := lt_or_gt_of_ne hne
  · have habs : |x| < 2 ^ Int.log 2 |y| := (abs_lt_next x).trans_le (hpow hlt)
    have hbound : 2 ^ Int.log 2 |y| ≤ y := by
      have hylow := log_le_abs hy
      obtain hpos | hneg := abs_choice y
      · rwa [hpos] at hylow ⊢
      · obtain ⟨hxlow, _⟩ := abs_lt.mp (habs.trans_le hylow)
        rw [hneg] at hxlow
        linarith
    have hxb : x ≤ ((1 : ℤ) : ℚ) * 2 ^ Int.log 2 |y| := by
      rw [Int.cast_one, one_mul]
      exact (le_abs_self x).trans habs.le
    have hyb : ((1 : ℤ) : ℚ) * 2 ^ Int.log 2 |y| ≤ y := by rwa [Int.cast_one, one_mul]
    exact (round_le ((place_le_log hp x).trans hlt.le) hxb).trans (le_round (place_le_log hp y) hyb)
  · have habs : |y| < 2 ^ Int.log 2 |x| := (abs_lt_next y).trans_le (hpow hlt)
    have hbound : x ≤ -2 ^ Int.log 2 |x| := by
      have hxlow := log_le_abs hx
      obtain hpos | hneg := abs_choice x
      · obtain ⟨_, hyhigh⟩ := abs_lt.mp (habs.trans_le hxlow)
        rw [hpos] at hyhigh
        linarith
      · rw [hneg] at hxlow ⊢
        linarith
    have hyb : ((-1 : ℤ) : ℚ) * 2 ^ Int.log 2 |x| ≤ y := by
      rw [Int.cast_neg, Int.cast_one, neg_one_mul]
      exact (abs_lt.mp habs).1.le
    have hxb : x ≤ ((-1 : ℤ) : ℚ) * 2 ^ Int.log 2 |x| := by
      rwa [Int.cast_neg, Int.cast_one, neg_one_mul]
    exact (round_le (place_le_log hp x) hxb).trans (le_round ((place_le_log hp y).trans hlt.le) hyb)

/-- Rounding keeps the order. -/
theorem round_mono (hp : 0 < p) : Monotone (round p) := by
  intro x y h
  have hzero : ∀ z : ℚ, (((0 : ℤ) : ℚ) * 2 ^ place p z) = 0 := by simp
  by_cases hx : x = 0
  · have hy := le_round (n := 0) (le_refl (place p y)) (by rwa [hzero, ← hx])
    rwa [hx, round_zero, ← hzero y]
  · by_cases hy : y = 0
    · have hx := round_le (n := 0) (le_refl (place p x)) (by rwa [hzero, ← hy])
      rwa [hy, round_zero, ← hzero x]
    · by_cases hlog : Int.log 2 |x| = Int.log 2 |y|
      · rw [round, round, place, place, hlog]
        refine mul_le_mul_of_nonneg_right ?_ (two_zpow_pos _).le
        exact_mod_cast roundEven_mono (div_le_div_of_nonneg_right h (two_zpow_pos _).le)
      · exact round_le_round_of_log hp hx hy hlog h

end Rounding

section Numbers

theorem double_mono : Monotone double := round_mono (by norm_num)

theorem double_eq {x : ℚ} {k m : ℤ} (hlow : 2 ^ k ≤ x) (hhigh : x < 2 ^ (k + 1))
    (hm : roundEven (x / 2 ^ (k - 52)) = m) : double x = m * 2 ^ (k - 52) := by
  have hpos : 0 < x := (two_zpow_pos k).trans_le hlow
  have hle : k ≤ Int.log 2 x :=
    (Int.zpow_le_iff_le_log one_lt_two hpos).mp (by exact_mod_cast hlow)
  have hlt : Int.log 2 x < k + 1 :=
    (Int.lt_zpow_iff_log_lt one_lt_two hpos).mp (by exact_mod_cast hhigh)
  have hplace : place 53 x = k - 52 := by
    rw [place, abs_of_pos hpos]
    omega
  rw [double, round, hplace, hm]

end Numbers

end EcommerceService.Doubles
