import GeoAlmanac.Proofs.Binary64.Value

/-! Interval arithmetic of doubles. An operation keeps the order of its operands, so that the
intervals of two operands give that of the result by the same operation on their ends. -/

namespace GeoAlmanac.Binary64
open Float.Model
open Float.Model.UnpackedFloat (Sign)

/-- `x` lies between two finite doubles; a NaN lies between none. -/
structure Between (a b x : Float) : Prop where
  finite_left : a.isFinite = true
  finite_right : b.isFinite = true
  left : a ≤ x
  right : x ≤ b

theorem Between.isFinite {a b x : Float} (h : Between a b x) : x.isFinite = true :=
  isFinite_of_le_of_le h.finite_left h.finite_right h.left h.right

theorem Between.value_left {a b x : Float} (h : Between a b x) : value a ≤ value x :=
  (le_iff_value h.finite_left h.isFinite).mp h.left

theorem Between.value_right {a b x : Float} (h : Between a b x) : value x ≤ value b :=
  (le_iff_value h.isFinite h.finite_right).mp h.right

theorem Between.pos {a b x : Float} (h : Between a b x) (ha : 0.0 < a) : 0.0 < x := by
  rw [lt_iff_value rfl h.finite_left] at ha
  exact (lt_iff_value rfl h.isFinite).mpr (ha.trans_le h.value_left)

theorem between_iff_isWithin {a b x : Float} (ha : a.isFinite = true) (hb : b.isFinite = true) :
    Between a b x ↔ isWithin a b x = true := by
  unfold isWithin
  rw [Bool.and_eq_true, decide_eq_true_iff, decide_eq_true_iff]
  exact ⟨fun h => ⟨h.left, h.right⟩, fun h => ⟨ha, hb, h.1, h.2⟩⟩

/-- A double equals itself. -/
theorem between_self {x : Float} (hx : x.isFinite = true) : Between x x x :=
  ⟨hx, hx, (le_iff_value hx hx).mpr le_rfl, (le_iff_value hx hx).mpr le_rfl⟩

theorem Between.widen {a b c d x : Float} (h : Between a b x) (hc : c.isFinite = true)
    (hd : d.isFinite = true) (hca : c ≤ a) (hbd : b ≤ d) : Between c d x where
  finite_left := hc
  finite_right := hd
  left := (le_iff_value hc h.isFinite).mpr
    (((le_iff_value hc h.finite_left).mp hca).trans h.value_left)
  right := (le_iff_value h.isFinite hd).mpr
    (h.value_right.trans ((le_iff_value h.finite_right hd).mp hbd))

/-- A result that lies between two doubles before rounding does so afterwards. -/
theorem Rounds.between {a b x : Float} {r : ℝ} (hx : Rounds x r) (ha : a.isFinite = true)
    (hb : b.isFinite = true) (hl : value a ≤ r) (hr : r ≤ value b) : Between a b x :=
  ⟨ha, hb, (rounds_value ha).mono hx hl, hx.mono (rounds_value hb) hr⟩

section
variable {a b c d x y : Float} (hx : Between a b x) (hy : Between c d y)
include hx

theorem Between.mul_const {k : Float} (hk : k.isFinite = true) (hpos : 0.0 ≤ k)
    (ha : (a * k).isFinite = true) (hb : (b * k).isFinite = true) :
    Between (a * k) (b * k) (x * k) := by
  have hpos : 0 ≤ value k := (le_iff_value rfl hk).mp hpos
  exact ⟨ha, hb, (mul_rounds hx.finite_left hk).mono (mul_rounds hx.isFinite hk)
      (mul_le_mul_of_nonneg_right hx.value_left hpos),
    (mul_rounds hx.isFinite hk).mono (mul_rounds hx.finite_right hk)
      (mul_le_mul_of_nonneg_right hx.value_right hpos)⟩

theorem Between.sqrt (hpos : 0.0 ≤ a) (ha : a.sqrt.isFinite = true) (hb : b.sqrt.isFinite = true) :
    Between a.sqrt b.sqrt x.sqrt := by
  have hpos : 0 ≤ value a := (le_iff_value rfl hx.finite_left).mp hpos
  exact ⟨ha, hb, (sqrt_rounds hx.finite_left hpos).mono
      (sqrt_rounds hx.isFinite (hpos.trans hx.value_left)) (Real.sqrt_le_sqrt hx.value_left),
    (sqrt_rounds hx.isFinite (hpos.trans hx.value_left)).mono
      (sqrt_rounds hx.finite_right ((hpos.trans hx.value_left).trans hx.value_right))
      (Real.sqrt_le_sqrt hx.value_right)⟩

include hy

theorem Between.add (ha : (a + c).isFinite = true) (hb : (b + d).isFinite = true) :
    Between (a + c) (b + d) (x + y) :=
  ⟨ha, hb, (add_rounds hx.finite_left hy.finite_left).mono (add_rounds hx.isFinite hy.isFinite)
      (add_le_add hx.value_left hy.value_left),
    (add_rounds hx.isFinite hy.isFinite).mono (add_rounds hx.finite_right hy.finite_right)
      (add_le_add hx.value_right hy.value_right)⟩

theorem Between.sub (ha : (a - d).isFinite = true) (hb : (b - c).isFinite = true) :
    Between (a - d) (b - c) (x - y) :=
  ⟨ha, hb, (sub_rounds hx.finite_left hy.finite_right).mono (sub_rounds hx.isFinite hy.isFinite)
      (sub_le_sub hx.value_left hy.value_right),
    (sub_rounds hx.isFinite hy.isFinite).mono (sub_rounds hx.finite_right hy.finite_left)
      (sub_le_sub hx.value_right hy.value_left)⟩

end

/-- `x` is at most `b` in magnitude. -/
abbrev Bounded (b x : Float) : Prop :=
  Between (-b) b x

theorem bounded_iff {b x : Float} (hb : b.isFinite = true) :
    Bounded b x ↔ x.isFinite = true ∧ |value x| ≤ value b := by
  obtain ⟨hneg, hvalue⟩ := isFinite_neg hb
  rw [abs_le, ← hvalue]
  exact ⟨fun h => ⟨h.isFinite, h.value_left, h.value_right⟩, fun ⟨hx, hl, hr⟩ =>
    ⟨hneg, hb, (le_iff_value hneg hx).mpr hl, (le_iff_value hx hb).mpr hr⟩⟩

theorem Bounded.abs_value_le {b x : Float} (h : Bounded b x) : |value x| ≤ value b :=
  ((bounded_iff h.finite_right).mp h).2

/-- A result bounded before rounding is bounded by the rounded bound. -/
theorem Rounds.bounded {b x : Float} {p r : ℝ} (hx : Rounds x r) (hb : Rounds b p)
    (hfinite : b.isFinite = true) (h : |r| ≤ p) : Bounded b x := by
  obtain ⟨hneg, hvalue⟩ := isFinite_neg hfinite
  have hbneg : Rounds (-b) (-p) := .finite hneg (by rw [hvalue, rounded_neg, hb.value_eq hfinite])
  obtain ⟨hl, hr⟩ := abs_le.mp h
  exact ⟨hneg, hfinite, hbneg.mono hx hl, hx.mono hb hr⟩

theorem Bounded.neg {b x : Float} (hx : Bounded b x) : Bounded b (-x) := by
  obtain ⟨hneg, hvalue⟩ := isFinite_neg hx.isFinite
  rw [bounded_iff hx.finite_right, hvalue, abs_neg]
  exact ⟨hneg, hx.abs_value_le⟩

theorem Bounded.add {b c x y : Float} (hx : Bounded b x) (hy : Bounded c y)
    (h : (b + c).isFinite = true) : Bounded (b + c) (x + y) :=
  (add_rounds hx.isFinite hy.isFinite).bounded (add_rounds hx.finite_right hy.finite_right) h
    ((abs_add_le _ _).trans (add_le_add hx.abs_value_le hy.abs_value_le))

theorem Bounded.sub {b c x y : Float} (hx : Bounded b x) (hy : Bounded c y)
    (h : (b + c).isFinite = true) : Bounded (b + c) (x - y) :=
  (sub_rounds hx.isFinite hy.isFinite).bounded (add_rounds hx.finite_right hy.finite_right) h
    ((abs_sub _ _).trans (add_le_add hx.abs_value_le hy.abs_value_le))

theorem Bounded.mul {b c x y : Float} (hx : Bounded b x) (hy : Bounded c y)
    (h : (b * c).isFinite = true) : Bounded (b * c) (x * y) := by
  refine (mul_rounds hx.isFinite hy.isFinite).bounded
    (mul_rounds hx.finite_right hy.finite_right) h ?_
  rw [abs_mul]
  exact mul_le_mul hx.abs_value_le hy.abs_value_le (abs_nonneg _)
    ((abs_nonneg _).trans hx.abs_value_le)

theorem div_infinity {x y : Float} {s : Sign} (hx : x.isFinite = true)
    (hy : y.toModel.unpack = .infinity s) : Rounds (x / y) 0 := by
  have hzero :
      ∃ t, UnpackedFloat.div Format.binary64 x.toModel.unpack y.toModel.unpack = .zero t := by
    rw [hy]
    rcases (represents hx).cases with ⟨t, hu, _⟩ | ⟨t, m, e, hm, hu, _⟩ <;> rw [hu]
    · exact ⟨_, rfl⟩
    · exact ⟨_, rfl⟩
  obtain ⟨t, ht⟩ := hzero
  refine rounds_pack ?_
  rw [ht, rounded_zero]
  exact .zero t

theorem Bounded.div {b k x y : Float} (hx : Bounded b x) (hk : k.isFinite = true) (hpos : 0.0 < k)
    (hy : k < y.abs) (h : (b / k).isFinite = true) : Bounded (b / k) (x / y) := by
  have hk0 : 0 < value k := (lt_iff_value rfl hk).mp hpos
  have hbk := div_rounds hx.finite_right hk hk0.ne'
  have hb0 : 0 ≤ value b := (abs_nonneg _).trans hx.abs_value_le
  by_cases hfinite : y.isFinite = true
  · obtain ⟨habs, hvalue⟩ := isFinite_abs hfinite
    have hky := (lt_iff_value hk habs).mp hy
    rw [hvalue] at hky
    have hy0 : value y ≠ 0 := abs_pos.mp (hk0.trans hky)
    refine (div_rounds hx.isFinite hfinite hy0).bounded hbk h ?_
    rw [abs_div]
    exact div_le_div₀ hb0 hx.abs_value_le hk0 hky.le
  · cases hu : y.toModel.unpack with
    | infinity s =>
      refine (div_infinity hx.isFinite hu).bounded hbk h ?_
      rw [abs_zero]
      exact div_nonneg hb0 hk0.le
    | notANumber =>
      have habs : y.abs.toModel.unpack = .notANumber := by
        change (pack y.toModel.unpack.abs).unpack = _
        rw [hu]
        rfl
      rw [lt_iff_unpack, habs, compare_notANumber] at hy
      exact absurd hy (by simp)
    | _ => exact absurd (congrArg UnpackedFloat.isFinite hu) hfinite

section
variable {x y : Float} (hx : x.isFinite = true) (hy : y.isFinite = true)
include hx

theorem square_nonneg : 0.0 ≤ x * x :=
  (rounds_value rfl).mono (mul_rounds hx hx) (mul_self_nonneg (value x))

include hy

theorem sum_nonneg (hx0 : 0.0 ≤ x) (hy0 : 0.0 ≤ y) : 0.0 ≤ x + y :=
  (rounds_value rfl).mono (add_rounds hx hy)
    (add_nonneg ((le_iff_value rfl hx).mp hx0) ((le_iff_value rfl hy).mp hy0))

theorem mul_square_nonneg (hx0 : 0.0 ≤ x) (h : (x * y).isFinite = true) : 0.0 ≤ x * y * y := by
  have hx0 : 0 ≤ value x := (le_iff_value rfl hx).mp hx0
  refine (rounds_value rfl).mono (mul_rounds h hy) ?_
  rw [(mul_rounds hx hy).value_eq h]
  rcases le_total 0 (value y) with hy0 | hy0
  · exact mul_nonneg (rounded_nonneg (mul_nonneg hx0 hy0)) hy0
  · have hle := rounded_mono (mul_nonpos_of_nonneg_of_nonpos hx0 hy0)
    rw [rounded_zero] at hle
    exact mul_nonneg_of_nonpos_of_nonpos hle hy0

theorem quotient_nonneg (hx0 : 0.0 ≤ x) (hy0 : 0.0 < y) : 0.0 ≤ x / y := by
  have hx0 : 0 ≤ value x := (le_iff_value rfl hx).mp hx0
  have hy0 : 0 < value y := (lt_iff_value rfl hy).mp hy0
  exact (rounds_value rfl).mono (div_rounds hx hy hy0.ne') (div_nonneg hx0 hy0.le)

end

theorem quotient_zero_nonneg {x : Float} (hx : x.isFinite = true) (hx0 : 0.0 < x) :
    0.0 ≤ x / 0.0 := by
  have hx0 : 0 < value x := (lt_iff_value rfl hx).mp hx0
  apply le_of_unpack_eq_infinity (rounds_value rfl).not_nan
  rcases (represents hx).cases with ⟨s, _, hzero⟩ | ⟨s, m, e, hm, hu, hvalue, _⟩
  · exact absurd hzero hx0.ne'
  · cases s with
    | positive =>
      change (pack (UnpackedFloat.div _ x.toModel.unpack (.zero .positive))).unpack = _
      rw [hu]
      exact unpack_pack (u := .infinity .positive) trivial
    | negative =>
      have hneg : (0 : ℝ) < m * 2 ^ e := by positivity
      rw [hvalue] at hx0
      simp only [signFactor] at hx0
      linarith

theorem clamp_between {a b x : Float} (ha : a.isFinite = true) (hb : b.isFinite = true)
    (hx : x.isFinite = true) (hab : a ≤ b) : Between a b (clamp a b x) := by
  have hab := (le_iff_value ha hb).mp hab
  unfold clamp
  split_ifs with hlow hhigh
  · exact ⟨ha, hb, (le_iff_value ha ha).mpr le_rfl, (le_iff_value ha hb).mpr hab⟩
  · exact ⟨ha, hb, (le_iff_value ha hb).mpr hab, (le_iff_value hb hb).mpr le_rfl⟩
  · rw [lt_iff_value hx ha, not_lt] at hlow
    rw [lt_iff_value hb hx, not_lt] at hhigh
    exact ⟨ha, hb, (le_iff_value ha hx).mpr hlow, (le_iff_value hx hb).mpr hhigh⟩

end GeoAlmanac.Binary64
