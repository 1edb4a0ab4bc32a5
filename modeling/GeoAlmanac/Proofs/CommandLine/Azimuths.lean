import GeoAlmanac.Proofs.Sphere.WestOfNorth
import GeoAlmanac.Proofs.Sphere.Ranges
import GeoAlmanac.Proofs.Decimal.FixedReading
import GeoAlmanac.Proofs.CommandLine.Place
import GeoAlmanac.CommandLine.SphereProgram

/-! The azimuths that the program prints. Each is computed in `[0, 360)` but rounded to hundredths
of a degree afterwards, so that within half a hundredth of north on its western side a full turn is
written. -/

namespace GeoAlmanac.CommandLine

namespace Command
variable {σ : Type} {c : Command σ} {rest : List String} {p p' : Progress σ} {o : OptionRule σ}

theorem scan_option {arg n : String} {l : Char} {ls : List Char}
    (harg : arg.toList = '-' :: '-' :: l :: ls) (hname : splitAtEquals (l :: ls) = (n, none))
    (hfind : c.options.find? (fun o => o.name == n) = some o) (hnone : p.awaited = none)
    (hsettle : p.settle = .ok p') :
    c.scan [] (arg :: rest) p = c.scan [] rest { p' with current := some (o, none) } := by
  rw [scan.eq_def]
  simp [hnone, harg, hname, readLong, hfind, hsettle]

theorem scan_value (given : List (OptionRule σ)) (change : σ → σ) (hdashes : o.takesDashes = true)
    (value : String) : c.scan [] (value :: rest) ⟨given, change, some (o, none)⟩ =
      c.scan [] rest ⟨given, change, some (o, some value)⟩ := by
  rw [scan.eq_def]
  simp [Progress.awaited, hdashes]

end Command

namespace SphereProgram
open Binary64 Sphere
open scoped Real

def fromOption : OptionRule Settings :=
  ⟨"from", true, fun v => (placeValue v).map fun c s => { s with start := c }⟩

def toOption : OptionRule Settings :=
  ⟨"to", true, fun v => (placeValue v).map fun c s => { s with finish := c }⟩

section
variable {p q : String} {a b : Coordinate Float}

theorem settle_from (hp : placeValue p = .ok a) :
    (⟨[], id, some (fromOption, some p)⟩ : Progress Settings).settle =
      .ok ⟨[fromOption], fun s => { s with start := a }, none⟩ := by
  simp [Progress.settle, Progress.accept, Progress.has, fromOption, hp, Except.map]

theorem settle_to (hq : placeValue q = .ok b) (change : Settings → Settings) :
    (⟨[fromOption], change, some (toOption, some q)⟩ : Progress Settings).settle =
      .ok ⟨[fromOption, toOption], fun s => { change s with finish := b }, none⟩ := by
  simp [Progress.settle, Progress.accept, Progress.has, fromOption, toOption, hq, Except.map]
  rfl

theorem scan_pair (hp : placeValue p = .ok a) (q : String) :
    pairCommand.scan [] ["--from", p, "--to", q] .empty =
      .ok (⟨[fromOption], fun s => { s with start := a }, some (toOption, some q)⟩, none) := by
  rw [Command.scan_option (n := "from") (o := fromOption) rfl rfl rfl rfl rfl]
  rw [Progress.empty, Command.scan_value _ _ rfl,
    Command.scan_option (n := "to") (o := toOption) rfl rfl rfl rfl (settle_from hp),
    Command.scan_value _ _ rfl]
  rfl

theorem finish_pair (hq : placeValue q = .ok b) (change : Settings → Settings) :
    pairCommand.finish ⟨[fromOption], change, some (toOption, some q)⟩ =
      .ok fun s => { change s with finish := b } := by
  rw [Command.finish, settle_to hq]
  rfl

theorem read_bearing (hp : placeValue p = .ok a) (hq : placeValue q = .ok b) :
    program.read ["bearing", "--from", p, "--to", q] =
      .ok (some "bearing", fun s => { s with start := a, finish := b }) := by
  have hroot : program.root.scan program.names ["bearing", "--from", p, "--to", q] .empty =
      .ok (.empty, some ("bearing", ["--from", p, "--to", q])) := rfl
  have hcommand : program.commands.lookup "bearing" = some pairCommand := rfl
  rw [Program.read, hroot]
  simp only [bind, Except.bind, hcommand, scan_pair hp, finish_pair hq]
  rfl

end

section
variable [Elementary Float]

/-- The azimuths of departure and of arrival on the great circle, and that of the loxodrome. -/
def azimuths (a b : Coordinate Float) : List Float :=
  [departureAzimuth a b, arrivalAzimuth a b, loxodromeAzimuth a b]

theorem departureAzimuth_mem_azimuths (a b : Coordinate Float) :
    departureAzimuth a b ∈ azimuths a b :=
  List.mem_cons_self

def azimuthLines (a b : Coordinate Float) : List String :=
  List.zipWith labelled ["Initial bearing", "Final bearing", "Rhumb bearing"]
    ((azimuths a b).map bearing)

theorem azimuths_mem (h : AngleBounds) {a b : Coordinate Float} (ha : a.Accepted) (hb : b.Accepted) :
    ∀ azimuth ∈ azimuths a b, 0.0 ≤ azimuth ∧ azimuth < 360.0 := by
  simp only [azimuths, List.forall_mem_cons, List.not_mem_nil, IsEmpty.forall_iff, implies_true,
    and_true]
  exact ⟨departureAzimuth_mem h.toCircularBounds ha hb, arrivalAzimuth_mem h.toCircularBounds ha hb,
    loxodromeAzimuth_mem h ha hb⟩

end

theorem run_bearing {p q : String} {a b : Coordinate Float} (hp : placeValue p = .ok a)
    (hq : placeValue q = .ok b) (files : FileTree) :
    run files ["bearing", "--from", p, "--to", q] =
      ⟨0, lines ([labelled "From" a.text, labelled "To" b.text] ++ azimuthLines a b), "", files⟩ := by
  rw [run, read_bearing hp hq]
  rfl

theorem accepted_of_placeValue {text : String} {c : Coordinate Float}
    (h : placeValue text = .ok c) : c.Accepted := by
  have hread : readPlace text.toList = .ok c := by
    unfold placeValue at h
    cases hplace : readPlace text.toList with
    | error e =>
      rw [hplace] at h
      cases h
    | ok c' =>
      rw [hplace] at h
      exact congrArg Except.ok (Except.ok.inj h)
  cases readPlace_eq_iff.mp hread with
  | place _ _ _ hlatitude hlongitude => exact Coordinate.accepted_iff.mpr ⟨hlatitude, hlongitude⟩

theorem exists_hundredths {azimuth : Float} (hfinite : azimuth.isFinite = true)
    (h0 : 0 ≤ value azimuth) (h360 : value azimuth < 360) : ∃ (n : ℕ) (x : Float),
      Decimal.read? (Decimal.fixed 2 azimuth) = some x ∧ Rounds x (n / 100) ∧
        |(n : ℝ) - value azimuth * 100| ≤ 1 / 2 ∧ n ≤ 36000 ∧
        (359.995 ≤ value azimuth → n = 36000) := by
  obtain ⟨s, n, x, hread, hnearest, hsign, hnear, heven⟩ :=
    Decimal.read?_fixed hfinite (two_ne_zero : (2 : ℕ) ≠ 0)
  rw [abs_of_nonneg h0] at hsign hnear heven
  obtain ⟨hlower, hupper⟩ := abs_le.mp hnear
  norm_num at hlower hupper
  have hle : n ≤ 36000 := by
    have hlt : (n : ℝ) < 36001 := by linarith
    exact Nat.lt_succ_iff.mp (by exact_mod_cast hlt)
  have hrounds : Rounds x (n / 100) := by
    have h := hnearest.rounds
    norm_num at h
    cases s with
    | positive => rwa [signFactor, one_mul, mul_one_div] at h
    | negative =>
      have hlt : (n : ℝ) < 1 := by
        rw [signFactor] at hsign
        linarith
      have hzero : n = 0 := Nat.lt_one_iff.mp (by exact_mod_cast hlt)
      simpa [hzero] using h
  refine ⟨n, x, hread, hrounds, by norm_num at hnear; exact hnear, hle, fun hlast => ?_⟩
  have hgap : ((36000 : ℕ) : ℝ) - 1 / 2 ≤ value azimuth * 10 ^ 2 := by
    norm_num at hlast ⊢
    linarith
  exact le_antisymm hle (heven 36000 (by decide) hgap)

theorem exists_reading {azimuth : Float} (h0 : 0.0 ≤ azimuth) (h360 : azimuth < 360.0) :
    ∃ x, Decimal.read? (Decimal.fixed 2 azimuth) = some x ∧ Between 0.0 360.0 x ∧
      |value x - value azimuth| ≤ 0.0051 ∧ (x < 360.0 ↔ value azimuth < 359.995) := by
  have hfinite := isFinite_of_le_of_le rfl rfl h0 (Binary64.le_of_lt h360)
  have hzero : value (0.0 : Float) = 0 := rfl
  have hnonneg : 0 ≤ value azimuth := (le_iff_value rfl hfinite).mp h0
  obtain ⟨n, x, hread, hrounds, hnear, hle, hfull⟩ :=
    exists_hundredths hfinite hnonneg (value_turn ▸ (lt_iff_value hfinite rfl).mp h360)
  have hle' : (n : ℝ) ≤ 36000 := by exact_mod_cast hle
  obtain ⟨hx, hclose⟩ := hrounds.near (n := 9) (by norm_num) (by norm_num) (by
    rw [abs_of_nonneg (by positivity)]
    norm_num
    linarith)
  obtain ⟨hlower, hupper⟩ := abs_le.mp hnear
  obtain ⟨hlow, hhigh⟩ := abs_le.mp hclose
  norm_num at hlow hhigh
  refine ⟨x, hread, hrounds.between rfl rfl (hzero ▸ by positivity) ?_, ?_, ?_⟩
  · rw [value_turn]
    linarith
  · rw [abs_le]
    norm_num
    constructor <;> linarith
  · rw [lt_iff_value hx rfl, value_turn]
    constructor
    · intro hlt
      by_contra hge
      rw [hrounds.value_eq hx, hfull (not_lt.mp hge)] at hlt
      norm_num [rounded_turn] at hlt
    · intro hlt
      have hless : (n : ℝ) < 36000 := by
        norm_num at hlt
        linarith
      have hless' : (n : ℝ) ≤ 35999 := by
        exact_mod_cast Nat.lt_succ_iff.mp (by exact_mod_cast hless : n < 35999 + 1)
      linarith

/-- The text says a number of degrees in `[0, 360)`. -/
def SaysAzimuth (text : String) : Prop :=
  ∃ number x, text = number ++ "°" ∧ Decimal.read? number = some x ∧ 0.0 ≤ x ∧ x < 360.0

theorem saysAzimuth_iff {azimuth : Float} (h0 : 0.0 ≤ azimuth) (h360 : azimuth < 360.0) :
    SaysAzimuth (bearing azimuth) ↔ value azimuth < 359.995 := by
  obtain ⟨x, hread, hbetween, -, hiff⟩ := exists_reading h0 h360
  rw [← hiff]
  constructor
  · rintro ⟨number, y, htext, hread', -, hlt⟩
    obtain rfl : Decimal.fixed 2 azimuth = number := by
      rw [bearing] at htext
      exact (String.append_left_inj _).mp htext
    rw [hread] at hread'
    exact Option.some.inj hread' ▸ hlt
  · intro hlt
    exact ⟨Decimal.fixed 2 azimuth, x, rfl, hread, hbetween.left, hlt⟩

/-- Three azimuths are printed for any two places. Each is read back within about half a hundredth
of a degree, from zero to a full turn, and is a number in `[0, 360)` exactly if less than 359.995
degrees were computed. -/
theorem printed_azimuth_iff {p q : String} {a b : Coordinate Float} (hp : placeValue p = .ok a)
    (hq : placeValue q = .ok b) :
    (∀ files : FileTree, run files ["bearing", "--from", p, "--to", q] =
      ⟨0, lines ([labelled "From" a.text, labelled "To" b.text] ++ azimuthLines a b), "", files⟩) ∧
    ∀ [Elementary Float], AngleBounds → ∀ azimuth ∈ azimuths a b,
      (∃ number x, bearing azimuth = number ++ "°" ∧ Decimal.read? number = some x ∧
        0.0 ≤ x ∧ x ≤ 360.0 ∧ |value x - value azimuth| ≤ 0.0051) ∧
      (SaysAzimuth (bearing azimuth) ↔ value azimuth < 359.995) := by
  refine ⟨run_bearing hp hq, fun {_} h azimuth hmem => ?_⟩
  obtain ⟨h0, h360⟩ := azimuths_mem h (accepted_of_placeValue hp) (accepted_of_placeValue hq)
    azimuth hmem
  obtain ⟨x, hread, hbetween, hnear, -⟩ := exists_reading h0 h360
  exact ⟨⟨_, x, rfl, hread, hbetween.left, hbetween.right, hnear⟩, saysAzimuth_iff h0 h360⟩

/-- Due north from the south pole to the equator, over the other spelling of the antimeridian. -/
theorem printed_azimuth_iff_southPole :
    placeValue "-90,180" = .ok southPole ∧ placeValue "0,-180" = .ok dateLine ∧
      @AngleBounds fewAngles ∧ @azimuths fewAngles southPole dateLine = [0.0, 0.0, 0.0] ∧
      SaysAzimuth (bearing 0.0) := by
  have hp : placeValue "-90,180" = .ok southPole := rfl
  have hq : placeValue "0,-180" = .ok dateLine := rfl
  have hazimuths : @azimuths fewAngles southPole dateLine = [0.0, 0.0, 0.0] := by decide +kernel
  obtain ⟨-, hprinted⟩ := printed_azimuth_iff hp hq
  obtain ⟨-, hsays⟩ := @hprinted fewAngles angleBounds_fewAngles 0.0 (by simp [hazimuths])
  refine ⟨hp, hq, angleBounds_fewAngles, hazimuths, hsays.mpr ?_⟩
  rw [show value 0.0 = 0 from rfl]
  norm_num

section
variable [Elementary Float] (h : NearestCircular) {b : Coordinate Float}
  (hlatitude : b.latitude.isFinite = true) (hlongitude : b.longitude.isFinite = true)
  (hnorth : value b.latitude ∈ Set.Icc (43 : ℝ) 46)
  (hwest : value b.longitude ∈ Set.Icc (-0.0008 : ℝ) (-0.00045))
include h hlatitude hlongitude hnorth hwest

/-- Slightly west of north, seen from the crossing of the equator and the prime meridian, with sine,
cosine and the angle of a point correctly rounded. -/
theorem bearing_of_west : bearing (departureAzimuth ⟨0.0, 0.0⟩ b) = "360.00°" := by
  obtain ⟨hfinite, hlow, hhigh⟩ := departureAzimuth_mem_of_west h hlatitude hlongitude hnorth hwest
  have hfixed : Decimal.fixed 2 (departureAzimuth ⟨0.0, 0.0⟩ b) = Decimal.withPoint 2 36000 := by
    refine Decimal.fixed_eq hfinite (by linarith) ?_
    rw [abs_lt]
    norm_num at *
    constructor <;> linarith
  rw [bearing, hfixed]
  rfl

theorem not_saysAzimuth_of_west : ¬SaysAzimuth (bearing (departureAzimuth ⟨0.0, 0.0⟩ b)) := by
  obtain ⟨hfinite, hlow, hhigh⟩ := departureAzimuth_mem_of_west h hlatitude hlongitude hnorth hwest
  have h0 : 0.0 ≤ departureAzimuth ⟨0.0, 0.0⟩ b := by
    rw [le_iff_value rfl hfinite, show value 0.0 = 0 from rfl]
    linarith
  have h360 : departureAzimuth ⟨0.0, 0.0⟩ b < 360.0 := by
    rw [lt_iff_value hfinite rfl, value_turn]
    linarith
  rw [saysAzimuth_iff h0 h360]
  norm_num at *
  linarith

end

/-- The azimuth of departure is a full turn in the text, where it should be below one. -/
theorem full_turn_printed :
    placeValue "0,0" = .ok ⟨0.0, 0.0⟩ ∧
      placeValue "45,-0.00048828125" = .ok ⟨45.0, -0.00048828125⟩ ∧
      bearing (@departureAzimuth Float _ Sun.nearestFunctions ⟨0.0, 0.0⟩
        ⟨45.0, -0.00048828125⟩) = "360.00°" ∧
      ¬∀ p q a b, placeValue p = .ok a → placeValue q = .ok b →
        ∀ azimuth ∈ @azimuths Sun.nearestFunctions a b, SaysAzimuth (bearing azimuth) := by
  have hp : placeValue "0,0" = .ok ⟨0.0, 0.0⟩ := rfl
  have hq : placeValue "45,-0.00048828125" = .ok ⟨45.0, -0.00048828125⟩ := rfl
  have hnorth : value 45.0 ∈ Set.Icc (43 : ℝ) 46 := by
    rw [show value 45.0 = 45 from (ofInt_natCast (n := 45) (by decide)).2]
    norm_num
  have hwest : value (-0.00048828125) ∈ Set.Icc (-0.0008 : ℝ) (-0.00045) := by
    change -1 * (((4503599627370496 : ℕ) : ℝ) * 2 ^ (-63 : ℤ)) ∈ _
    norm_num
  refine ⟨hp, hq, @bearing_of_west Sun.nearestFunctions nearestCircular_nearestFunctions
    ⟨45.0, -0.00048828125⟩ rfl rfl hnorth hwest, fun hall => ?_⟩
  exact @not_saysAzimuth_of_west Sun.nearestFunctions nearestCircular_nearestFunctions
    ⟨45.0, -0.00048828125⟩ rfl rfl hnorth hwest
    (hall _ _ _ _ hp hq _ (@departureAzimuth_mem_azimuths Sun.nearestFunctions _ _))

end SphereProgram
end GeoAlmanac.CommandLine
