import Mathlib.Data.Int.Log
import Mathlib.Data.Rat.Floor
import Mathlib.Tactic

/-! Roundings of a floating-point arithmetic. They keep the order and the whole numbers of so many bits;
one of them goes to the nearest number, and to an even one in the middle. -/
namespace FloatingPoint

structure Rounding (precision : ℕ) where
  round : ℚ → ℚ
  mono : Monotone round
  natCast : ∀ n : ℕ, n < 2^precision → round n = n

namespace Rounding

variable {precision : ℕ} (r : Rounding precision) {x y : ℚ} {n : ℕ}

/-- A whole number times a factor, both the factor and the product rounded. -/
def product (n : ℕ) (factor : ℚ) : ℚ := r.round (n*r.round factor)

theorem round_zero : r.round 0 = 0 := by
  simpa using r.natCast 0 (Nat.two_pow_pos precision)

theorem round_nonneg (hx : 0 ≤ x) : 0 ≤ r.round x := r.round_zero ▸ r.mono hx

theorem round_one (hprecision : 0 < precision) : r.round 1 = 1 := by
  simpa using r.natCast 1 (Nat.one_lt_two_pow hprecision.ne')

theorem product_nonneg (n : ℕ) (hx : 0 ≤ x) : 0 ≤ r.product n x :=
  r.round_nonneg (mul_nonneg (Nat.cast_nonneg n) (r.round_nonneg hx))

theorem product_mono (n : ℕ) (h : x ≤ y) : r.product n x ≤ r.product n y :=
  r.mono (mul_le_mul_of_nonneg_left (r.mono h) (Nat.cast_nonneg n))

theorem le_product (hn : n < 2^precision) (hprecision : 0 < precision) (hx : 1 ≤ x) :
    (n : ℚ) ≤ r.product n x := by
  have hone : 1 ≤ r.round x := r.round_one hprecision ▸ r.mono hx
  rw [← r.natCast n hn]
  exact r.mono (le_mul_of_one_le_right (Nat.cast_nonneg n) hone)

theorem product_le (hn : n < 2^precision) (hprecision : 0 < precision) (hx : x ≤ 1) :
    r.product n x ≤ n := by
  have hone : r.round x ≤ 1 := r.round_one hprecision ▸ r.mono hx
  calc r.product n x ≤ r.round n := r.mono (mul_le_of_le_one_right (Nat.cast_nonneg n) hone)
    _ = n := r.natCast n hn

def exact (precision : ℕ) : Rounding precision := ⟨id,monotone_id,fun _ _ => rfl⟩

theorem product_of_exact (h : ∀ x, r.round x = x) (n : ℕ) (factor : ℚ) :
    r.product n factor = n*factor := by
  rw [product,h,h]

end Rounding

/-! Rounding to nearest. -/

/-- The nearest whole number, in the middle the even one. -/
def toEven (x : ℚ) : ℤ :=
  if x-⌊x⌋ < 1/2 then ⌊x⌋
  else if 1/2 < x-⌊x⌋ then ⌊x⌋+1
  else if ⌊x⌋ % 2 = 0 then ⌊x⌋ else ⌊x⌋+1

theorem toEven_intCast (n : ℤ) : toEven n = n := by
  simp [toEven]

theorem floor_le_toEven (x : ℚ) : ⌊x⌋ ≤ toEven x ∧ toEven x ≤ ⌊x⌋+1 := by
  unfold toEven
  split_ifs <;> omega

theorem toEven_mono : Monotone toEven := by
  intro x y hxy
  rcases (Int.floor_mono hxy).eq_or_lt with hsame | hlt
  · unfold toEven
    rw [hsame]
    split_ifs <;> first | omega | linarith
  · exact (floor_le_toEven x).2.trans (hlt.trans_le (floor_le_toEven y).1)

variable {precision : ℕ} {x y : ℚ}

def lastPlace (precision : ℕ) (x : ℚ) : ℤ := Int.log 2 x-(precision-1 : ℕ)

/-- The nearest number to one that is not negative. -/
def nearestAbove (precision : ℕ) (x : ℚ) : ℚ :=
  toEven (x/2^lastPlace precision x)*2^lastPlace precision x

def nearest (precision : ℕ) (x : ℚ) : ℚ :=
  if 0 ≤ x then nearestAbove precision x else -nearestAbove precision (-x)

theorem two_zpow_pos (e : ℤ) : (0 : ℚ) < 2^e := zpow_pos (by norm_num) e

theorem scaled_mono {n m : ℤ} (e : ℤ) (h : n ≤ m) : (n : ℚ)*2^e ≤ m*2^e := by
  have hcast : (n : ℚ) ≤ m := by exact_mod_cast h
  exact mul_le_mul_of_nonneg_right hcast (two_zpow_pos e).le

theorem nearestAbove_zero (precision : ℕ) : nearestAbove precision 0 = 0 := by
  have hzero : toEven 0 = 0 := by simpa using toEven_intCast 0
  rw [nearestAbove,zero_div,hzero,Int.cast_zero,zero_mul]

theorem nearestAbove_bounds (precision : ℕ) (hx : 0 < x) :
    (2 : ℚ)^Int.log 2 x ≤ nearestAbove precision x ∧ nearestAbove precision x ≤ 2^(Int.log 2 x+1) := by
  have hlow : (2 : ℚ)^Int.log 2 x ≤ x := by exact_mod_cast Int.zpow_log_le_self one_lt_two hx
  have hhigh : x < (2 : ℚ)^(Int.log 2 x+1) := by exact_mod_cast Int.lt_zpow_succ_log_self one_lt_two x
  have hplace := two_zpow_pos (lastPlace precision x)
  have hpow : ∀ k : ℕ, ((2^k : ℤ) : ℚ)*2^lastPlace precision x = 2^(lastPlace precision x+k) := by
    intro k
    rw [zpow_add₀ (by norm_num),zpow_natCast,mul_comm]
    norm_num
  have hmantissa : ∀ k : ℕ, toEven (2^k : ℚ) = 2^k := by
    intro k
    have hint := toEven_intCast (2^k)
    simpa using hint
  constructor
  · have hle : (2^(precision-1) : ℤ) ≤ toEven (x/2^lastPlace precision x) := by
      rw [← hmantissa]
      refine toEven_mono ((le_div_iff₀ hplace).mpr ?_)
      have h := hpow (precision-1)
      rw [lastPlace,sub_add_cancel] at h
      push_cast at h
      rw [lastPlace,h]
      exact hlow
    have h := scaled_mono (lastPlace precision x) hle
    rw [hpow,lastPlace,sub_add_cancel] at h
    exact h
  · have hle : toEven (x/2^lastPlace precision x) ≤ 2^(precision-1+1) := by
      rw [← hmantissa]
      refine toEven_mono ((div_le_iff₀ hplace).mpr ?_)
      have h := hpow (precision-1+1)
      rw [Nat.cast_succ,← add_assoc,lastPlace,sub_add_cancel] at h
      push_cast at h
      rw [lastPlace,h]
      exact hhigh.le
    have h := scaled_mono (lastPlace precision x) hle
    rw [hpow,Nat.cast_succ,← add_assoc,lastPlace,sub_add_cancel] at h
    exact h

theorem nearestAbove_nonneg (precision : ℕ) (hx : 0 ≤ x) : 0 ≤ nearestAbove precision x := by
  rcases hx.eq_or_lt with rfl | hpos
  · exact (nearestAbove_zero precision).ge
  · exact (two_zpow_pos _).le.trans (nearestAbove_bounds precision hpos).1

theorem nearestAbove_mono (precision : ℕ) (hx : 0 ≤ x) (hxy : x ≤ y) :
    nearestAbove precision x ≤ nearestAbove precision y := by
  rcases hx.eq_or_lt with rfl | hpos
  · rw [nearestAbove_zero]
    exact nearestAbove_nonneg precision hxy
  · rcases (Int.log_mono_right (b:=2) hpos hxy).eq_or_lt with hsame | hlt
    · have hplace : lastPlace precision x = lastPlace precision y := by rw [lastPlace,lastPlace,hsame]
      rw [nearestAbove,nearestAbove,hplace]
      exact scaled_mono _ (toEven_mono (div_le_div_of_nonneg_right hxy (two_zpow_pos _).le))
    · calc nearestAbove precision x ≤ 2^(Int.log 2 x+1) := (nearestAbove_bounds precision hpos).2
        _ ≤ 2^Int.log 2 y := zpow_le_zpow_right₀ (by norm_num) hlt
        _ ≤ nearestAbove precision y := (nearestAbove_bounds precision (hpos.trans_le hxy)).1

theorem nearest_mono (precision : ℕ) : Monotone (nearest precision) := by
  intro x y hxy
  unfold nearest
  split_ifs with hx hy hy
  · exact nearestAbove_mono precision hx hxy
  · exact absurd (hx.trans hxy) hy
  · have hneg := nearestAbove_nonneg precision (neg_nonneg.mpr (not_le.mp hx).le)
    exact (neg_nonpos.mpr hneg).trans (nearestAbove_nonneg precision hy)
  · exact neg_le_neg (nearestAbove_mono precision (neg_nonneg.mpr (not_le.mp hy).le) (neg_le_neg hxy))

theorem nearest_natCast {n : ℕ} (hn : n < 2^precision) : nearest precision (n : ℚ) = n := by
  rw [nearest,if_pos (Nat.cast_nonneg n)]
  rcases Nat.eq_zero_or_pos n with rfl | hpos
  · exact_mod_cast nearestAbove_zero precision
  · have hlog : Nat.log 2 n ≤ precision-1 :=
      Nat.le_sub_one_of_lt (Nat.log_lt_of_lt_pow hpos.ne' hn)
    have hplace : lastPlace precision (n : ℚ) = -((precision-1-Nat.log 2 n : ℕ) : ℤ) := by
      rw [lastPlace,Int.log_natCast]
      omega
    have hwhole : (n : ℚ)/2^lastPlace precision (n : ℚ) = ((n*2^(precision-1-Nat.log 2 n) : ℤ) : ℚ) := by
      rw [hplace,zpow_neg,div_inv_eq_mul,zpow_natCast]
      push_cast
      rfl
    rw [nearestAbove,hwhole,toEven_intCast,← hwhole,div_mul_cancel₀ _ (two_zpow_pos _).ne']

def Rounding.nearest (precision : ℕ) : Rounding precision where
  round := FloatingPoint.nearest precision
  mono := nearest_mono precision
  natCast _ hn := nearest_natCast hn

/-- The double next to `0.7` is below it, and yet ten times `1.7` comes out whole. -/
example : (Rounding.nearest 53).product 10 (1+6305039478318694/2^53) = 17 := by decide +kernel

end FloatingPoint
