import GeoAlmanac.Globe
import GeoAlmanac.Proofs.Reals.Numbers

/-! The unit of length of a run does not matter. Where every radius, every distance to travel and
every height is multiplied by one factor, so is every distance that is answered, and the points are
the same. The radius that an answer is computed with is the last one set before it. -/

namespace GeoAlmanac

def Radius.scale (k : ℝ) (r : Radius ℝ) : Radius ℝ :=
  ⟨k * r.value, r.unit⟩

namespace Globe

def scale (k : ℝ) (g : Globe ℝ) : Globe ℝ :=
  ⟨g.radius.scale k⟩

/-- The question with the lengths it gives multiplied; places and azimuths are none. -/
def Query.scale (k : ℝ) : Query ℝ → Query ℝ
  | .destination start azimuth distance => .destination start azimuth (k * distance)
  | .horizon height => .horizon (k * height)
  | q => q

def Step.scale (k : ℝ) : Step ℝ → Step ℝ
  | .setRadius r => .setRadius (r.scale k)
  | .ask q => .ask (q.scale k)

def Reading.scale (k : ℝ) : Reading ℝ → Reading ℝ
  | .radius r => .radius (r.scale k)
  | .distance d => .distance (k * d)
  | .horizon d => .horizon (k * d)
  | .point p => .point p

variable {k : ℝ}

theorem haversineDistance_scale (g : Globe ℝ) (a b : Coordinate ℝ) :
    (g.scale k).haversineDistance a b = k * g.haversineDistance a b :=
  mul_left_comm _ _ _

theorem equirectangularDistance_scale (g : Globe ℝ) (a b : Coordinate ℝ) :
    (g.scale k).equirectangularDistance a b = k * g.equirectangularDistance a b :=
  mul_left_comm _ _ _

theorem loxodromeDistance_scale (g : Globe ℝ) (a b : Coordinate ℝ) :
    (g.scale k).loxodromeDistance a b = k * g.loxodromeDistance a b :=
  mul_left_comm _ _ _

theorem destination_scale (hk : k ≠ 0) (g : Globe ℝ) (start : Coordinate ℝ)
    (azimuth distance : ℝ) :
    (g.scale k).destination start azimuth (k * distance) =
      g.destination start azimuth distance := by
  have hangle : k * distance / (k * g.radius.value) = distance / g.radius.value :=
    mul_div_mul_left _ _ hk
  simp only [destination, scale, Radius.scale, hangle]

theorem horizonDistance_scale (hk : 0 ≤ k) (g : Globe ℝ) (height : ℝ) :
    (g.scale k).horizonDistance (k * height) = k * g.horizonDistance height := by
  have hradicand (two R h c : ℝ) :
      two * (k * R) * (k * h / c) + k * h / c * (k * h / c) =
        k * k * (two * R * (h / c) + h / c * (h / c)) := by
    ring
  simp only [horizonDistance, scale, Radius.scale, sqrt_eq]
  rw [hradicand, Real.sqrt_mul (mul_self_nonneg k), Real.sqrt_mul_self hk]

theorem answer_scale (hk : 0 < k) (g : Globe ℝ) (q : Query ℝ) :
    (g.scale k).answer (q.scale k) = (g.answer q).scale k := by
  cases q with
  | radius => rfl
  | haversine a b => exact congrArg Reading.distance (g.haversineDistance_scale a b)
  | equirectangular a b => exact congrArg Reading.distance (g.equirectangularDistance_scale a b)
  | loxodrome a b => exact congrArg Reading.distance (g.loxodromeDistance_scale a b)
  | destination start azimuth distance =>
    exact congrArg Reading.point (g.destination_scale hk.ne' start azimuth distance)
  | horizon height => exact congrArg Reading.horizon (g.horizonDistance_scale hk.le height)

theorem step_scale (hk : 0 < k) (g : Globe ℝ) (s : Step ℝ) :
    (g.scale k).step (s.scale k) = ((g.step s).1.scale k, (g.step s).2.scale k) := by
  cases s with
  | setRadius r => rfl
  | ask q => exact congrArg (g.scale k, ·) (g.answer_scale hk q)

theorem run_scale (hk : 0 < k) (g : Globe ℝ) (steps : List (Step ℝ)) :
    (g.scale k).run (steps.map (Step.scale k)) = (g.run steps).map (Reading.scale k) := by
  induction steps generalizing g with
  | nil => rfl
  | cons s steps ih => simp only [run, List.map_cons, step_scale hk, ih]

section
variable {α : Type}

def Step.radius? : Step α → Option (Radius α)
  | .setRadius r => some r
  | .ask _ => none

/-- The last radius that steps set, or the one they start from. -/
def lastRadius (initial : Radius α) (steps : List (Step α)) : Radius α :=
  (steps.filterMap Step.radius?).getLast?.getD initial

variable [Geometric α] [Elementary α]

theorem lastRadius_cons (g : Globe α) (s : Step α) (steps : List (Step α)) :
    lastRadius g.radius (s :: steps) = lastRadius (g.step s).1.radius steps := by
  cases s with
  | setRadius r => simp [lastRadius, Step.radius?, step, List.getLast?_cons]
  | ask q => rfl

theorem getElem?_run (g : Globe α) (steps : List (Step α)) (i : ℕ) :
    (g.run steps)[i]? =
      steps[i]?.map fun s => (step ⟨lastRadius g.radius (steps.take i)⟩ s).2 := by
  induction steps generalizing g i with
  | nil => rfl
  | cons s steps ih =>
    cases i with
    | zero => rfl
    | succ i =>
      rw [List.take_succ_cons, lastRadius_cons]
      exact ih (g.step s).1 i

end

/-- A run with every radius, every distance to travel and every height multiplied by one factor
answers the same points and distances multiplied by that factor, step by step. Each answer is that
of a globe with the last radius set before it. -/
theorem run_homogeneous (hk : 0 < k) (g : Globe ℝ) (steps : List (Step ℝ)) :
    (g.scale k).run (steps.map (Step.scale k)) = (g.run steps).map (Reading.scale k) ∧
      ∀ i, (g.run steps)[i]? =
        steps[i]?.map fun s => (step ⟨lastRadius g.radius (steps.take i)⟩ s).2 :=
  ⟨g.run_scale hk steps, g.getElem?_run steps⟩

theorem run_homogeneous_doubled :
    let g : Globe ℝ := ⟨⟨1, .kilometres⟩⟩
    let steps : List (Step ℝ) := [.ask (.horizon 2), .setRadius ⟨3, .miles⟩, .ask (.horizon 4)]
    (0 : ℝ) < 2 ∧
      (g.scale 2).run (steps.map (Step.scale 2)) = (g.run steps).map (Reading.scale 2) ∧
      ∀ i, (g.run steps)[i]? =
        steps[i]?.map fun s => (step ⟨lastRadius g.radius (steps.take i)⟩ s).2 :=
  ⟨two_pos, run_homogeneous two_pos _ _⟩

end Globe
end GeoAlmanac
