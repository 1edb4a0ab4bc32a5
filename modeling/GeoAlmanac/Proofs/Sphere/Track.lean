import GeoAlmanac.Proofs.Sphere.Metric
import Mathlib.Analysis.Calculus.MeanValue
import Mathlib.Analysis.SpecialFunctions.Trigonometric.InverseDeriv

/-! Ways over the sphere. A way whose speed is bounded leads over no larger central angle: a short
piece of it is hardly longer than its chord, and the angles of all pieces add up to at least the
angle between its ends. -/

namespace GeoAlmanac
open scoped Real
open Set Filter Topology

theorem Vector3.hasDerivAt_toEuclidean {x y z : ℝ → ℝ} {v : Vector3 ℝ} {t : ℝ}
    (hx : HasDerivAt x v.x t) (hy : HasDerivAt y v.y t) (hz : HasDerivAt z v.z t) :
    HasDerivAt (fun t => (⟨x t, y t, z t⟩ : Vector3 ℝ).toEuclidean) v.toEuclidean t := by
  have hbasis (w : Vector3 ℝ) : w.toEuclidean = w.x • (⟨1, 0, 0⟩ : Vector3 ℝ).toEuclidean +
      w.y • (⟨0, 1, 0⟩ : Vector3 ℝ).toEuclidean + w.z • (⟨0, 0, 1⟩ : Vector3 ℝ).toEuclidean := by
    simp [smul_toEuclidean, add_toEuclidean]
  rw [funext fun t => hbasis ⟨x t, y t, z t⟩, hbasis v]
  exact ((hx.smul_const _).add (hy.smul_const _)).add (hz.smul_const _)

namespace Sphere

theorem hasDerivAt_line (x rate t : ℝ) : HasDerivAt (fun t => x + t * rate) rate t := by
  simpa using ((hasDerivAt_id t).mul_const rate).const_add x

theorem norm_direction_sub (a b : Coordinate ℝ) :
    ‖a.direction - b.direction‖ = 2 * Real.sin (centralAngle a b / 2) := by
  have hhalf : 0 ≤ Real.sin (centralAngle a b / 2) :=
    Real.sin_nonneg_of_nonneg_of_le_pi (by linarith [centralAngle_nonneg a b])
      (by linarith [centralAngle_le_pi a b, Real.pi_pos])
  have hdouble := Real.sin_sq_eq_half_sub (centralAngle a b / 2)
  rw [mul_div_cancel₀ _ two_ne_zero, cos_centralAngle] at hdouble
  have hsquare : ‖a.direction - b.direction‖ ^ 2 = (2 * Real.sin (centralAngle a b / 2)) ^ 2 := by
    rw [norm_sub_sq_real, a.norm_direction, b.norm_direction]
    linarith
  exact (pow_left_inj₀ (norm_nonneg _) (by positivity) two_ne_zero).mp hsquare

theorem centralAngle_le_of_chord {a b : Coordinate ℝ} {d : ℝ}
    (h : ‖a.direction - b.direction‖ ≤ d) : centralAngle a b ≤ 2 * Real.arcsin (d / 2) := by
  have hsin : Real.sin (centralAngle a b / 2) ≤ d / 2 := by
    rw [norm_direction_sub] at h
    linarith
  have hle := Real.monotone_arcsin hsin
  rw [Real.arcsin_sin (by linarith [centralAngle_nonneg a b, Real.pi_pos])
    (by linarith [centralAngle_le_pi a b])] at hle
  linarith

/-- A way over the sphere in the time from 0 to 1: latitude and longitude in radians with their
rates, and a bound on the speed that they make. -/
structure Track (speed : ℝ) where
  latitude : ℝ → ℝ
  longitude : ℝ → ℝ
  latitudeRate : ℝ → ℝ
  longitudeRate : ℝ → ℝ
  hasDerivAt_latitude : ∀ t ∈ Icc (0 : ℝ) 1, HasDerivAt latitude (latitudeRate t) t
  hasDerivAt_longitude : ∀ t ∈ Icc (0 : ℝ) 1, HasDerivAt longitude (longitudeRate t) t
  speed_nonneg : 0 ≤ speed
  speed_le : ∀ t ∈ Icc (0 : ℝ) 1,
    latitudeRate t ^ 2 + (Real.cos (latitude t) * longitudeRate t) ^ 2 ≤ speed ^ 2

namespace Track
variable {speed : ℝ} (w : Track speed)

/-- Where the way has come. -/
noncomputable def place (t : ℝ) : Coordinate ℝ :=
  ⟨toDegrees (w.latitude t), toDegrees (w.longitude t)⟩

/-- The velocity, in space. -/
noncomputable def velocity (t : ℝ) : Vector3 ℝ where
  x := -Real.sin (w.latitude t) * w.latitudeRate t * Real.cos (w.longitude t) +
    Real.cos (w.latitude t) * (-Real.sin (w.longitude t) * w.longitudeRate t)
  y := -Real.sin (w.latitude t) * w.latitudeRate t * Real.sin (w.longitude t) +
    Real.cos (w.latitude t) * (Real.cos (w.longitude t) * w.longitudeRate t)
  z := Real.cos (w.latitude t) * w.latitudeRate t

theorem hasDerivAt_direction {t : ℝ} (ht : t ∈ Icc (0 : ℝ) 1) :
    HasDerivAt (fun t => (w.place t).direction) (w.velocity t).toEuclidean t := by
  have hφ := w.hasDerivAt_latitude t ht
  have hl := w.hasDerivAt_longitude t ht
  have hplace : (fun t => (w.place t).direction) = fun t =>
      (⟨Real.cos (w.latitude t) * Real.cos (w.longitude t),
        Real.cos (w.latitude t) * Real.sin (w.longitude t),
        Real.sin (w.latitude t)⟩ : Vector3 ℝ).toEuclidean := by
    funext t
    simp [place, Coordinate.direction, Coordinate.unitVector]
  rw [hplace]
  exact Vector3.hasDerivAt_toEuclidean (hφ.cos.mul hl.cos) (hφ.cos.mul hl.sin) hφ.sin

theorem norm_velocity_le {t : ℝ} (ht : t ∈ Icc (0 : ℝ) 1) :
    ‖(w.velocity t).toEuclidean‖ ≤ speed := by
  have hφ := Real.sin_sq_add_cos_sq (w.latitude t)
  have hl := Real.sin_sq_add_cos_sq (w.longitude t)
  have hdot : (w.velocity t).dot (w.velocity t) =
      w.latitudeRate t ^ 2 + (Real.cos (w.latitude t) * w.longitudeRate t) ^ 2 := by
    unfold velocity Vector3.dot
    linear_combination w.latitudeRate t ^ 2 * hφ +
      (Real.sin (w.latitude t) ^ 2 * w.latitudeRate t ^ 2 +
        Real.cos (w.latitude t) ^ 2 * w.longitudeRate t ^ 2) * hl
  rw [norm_eq_sqrt_real_inner, Vector3.inner_toEuclidean, hdot]
  exact Real.sqrt_le_iff.mpr ⟨w.speed_nonneg, w.speed_le t ht⟩

theorem chord_le {s t : ℝ} (hs : 0 ≤ s) (hst : s ≤ t) (ht : t ≤ 1) :
    ‖(w.place s).direction - (w.place t).direction‖ ≤ speed * (t - s) := by
  rw [norm_sub_rev]
  have hmem {x : ℝ} (hx : x ∈ Icc s t) : x ∈ Icc (0 : ℝ) 1 := ⟨hs.trans hx.1, hx.2.trans ht⟩
  have hderiv : ∀ x ∈ Icc s t, HasDerivWithinAt (fun t => (w.place t).direction)
      (w.velocity x).toEuclidean (Icc s t) x := by
    intro x hx
    exact (w.hasDerivAt_direction (hmem hx)).hasDerivWithinAt
  have hbound : ∀ x ∈ Ico s t, ‖(w.velocity x).toEuclidean‖ ≤ speed := by
    intro x hx
    exact w.norm_velocity_le (hmem (Ico_subset_Icc_self hx))
  exact norm_image_sub_le_of_norm_deriv_le_segment' hderiv hbound t ⟨hst, le_rfl⟩

theorem centralAngle_pieces {n : ℕ} (hn : 0 < n) {k : ℕ} (hk : k ≤ n) :
    centralAngle (w.place 0) (w.place (k / n)) ≤ k * (2 * Real.arcsin (speed * (1 / n) / 2)) := by
  induction k with
  | zero =>
    have hzero : centralAngle (w.place 0) (w.place 0) = 0 := centralAngle_eq_zero.mpr rfl
    simp [hzero]
  | succ k ih =>
    have hpos : (0 : ℝ) < n := by exact_mod_cast hn
    have hnext : ((k + 1 : ℕ) : ℝ) ≤ n := by exact_mod_cast hk
    have hlast := w.chord_le (s := k / n) (t := (k + 1 : ℕ) / n) (by positivity)
      (by gcongr; simp) ((div_le_one hpos).mpr hnext)
    have hpiece : ((k + 1 : ℕ) : ℝ) / n - k / n = 1 / n := by
      push_cast
      ring
    rw [hpiece] at hlast
    have htriangle := centralAngle_triangle (w.place 0) (w.place (k / n))
      (w.place ((k + 1 : ℕ) / n))
    have hstep := centralAngle_le_of_chord hlast
    have hbefore := ih (by omega)
    push_cast at *
    linarith

theorem tendsto_pieces (speed : ℝ) :
    Tendsto (fun n : ℕ => ((n + 1 : ℕ) : ℝ) * (2 * Real.arcsin (speed * (1 / (n + 1 : ℕ)) / 2)))
      atTop (𝓝 speed) := by
  have hderiv : HasDerivAt (fun d => 2 * Real.arcsin (speed * d / 2)) speed 0 := by
    have hchord : HasDerivAt (fun d => speed * d / 2) (speed * 1 / 2) (0 : ℝ) :=
      ((hasDerivAt_id 0).const_mul speed).div_const 2
    have harcsin := (Real.hasDerivAt_arcsin (x := speed * 0 / 2) (by norm_num) (by norm_num)).comp
      (0 : ℝ) hchord
    apply (harcsin.const_mul 2).congr_deriv
    simp
    ring
  have hsmall : Tendsto (fun n : ℕ => 1 / ((n + 1 : ℕ) : ℝ)) atTop (𝓝[>] 0) := by
    apply tendsto_nhdsWithin_iff.mpr ⟨?_, .of_forall fun n => ?_⟩
    · push_cast
      exact tendsto_one_div_add_atTop_nhds_zero_nat
    · apply mem_Ioi.mpr
      positivity
  have hslope := hderiv.tendsto_slope_zero_right.comp hsmall
  apply hslope.congr
  intro n
  simp

theorem centralAngle_le : centralAngle (w.place 0) (w.place 1) ≤ speed := by
  apply ge_of_tendsto' (tendsto_pieces speed)
  intro n
  have hpieces := w.centralAngle_pieces (n := n + 1) n.succ_pos le_rfl
  rwa [div_self (by positivity)] at hpieces

end Track
end Sphere
end GeoAlmanac
