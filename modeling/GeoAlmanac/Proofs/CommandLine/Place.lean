import GeoAlmanac.CommandLine.Values
import GeoAlmanac.Proofs.Decimal.Shortest
import GeoAlmanac.Proofs.Sphere.Doubles
import GeoAlmanac.Proofs.Text.Blanks

/-! Places on the command line. The text of a place is two numbers with a comma between them and any
blanks around them; the first defect of any other text is named. A place is read back from the
shortest texts of its latitude and its longitude. -/

namespace GeoAlmanac
open Binary64
open Float.Model.UnpackedFloat (Sign)

namespace Decimal

/-- Neither a blank nor the comma between two numbers. -/
def IsMark (c : Char) : Prop :=
  Text.isBlank c = false ∧ c ≠ ','

theorem isMark_of_isDigit {c : Char} (hc : c.isDigit = true) : IsMark c := by
  refine ⟨Text.isBlank_of_isDigit hc, ?_⟩
  rintro rfl
  exact absurd hc (by decide)

theorem isMark_of_isAlpha {c : Char} (hc : c.isAlpha = true) : IsMark c := by
  have hrange : 65 ≤ c.toNat ∧ c.toNat ≤ 122 := by
    simp [Char.isAlpha, Char.isUpper, Char.isLower, UInt32.le_iff_toNat_le] at hc
    omega
  refine ⟨?_, ?_⟩
  · simp only [Text.isBlank]
    simp
    omega
  · rintro rfl
    exact absurd hrange.1 (by decide)

theorem SignText.isMark {cs : List Char} {s : Sign} (h : SignText cs s) : ∀ c ∈ cs, IsMark c := by
  cases h with
  | none => simp
  | plus | minus => simp [IsMark, Text.isBlank]

theorem AllDigits.isMark {ds : List Char} (h : AllDigits ds) : ∀ c ∈ ds, IsMark c :=
  fun c hc => isMark_of_isDigit (h c hc)

theorem DigitsText.isMark {cs : List Char} {n places : ℕ} (h : DigitsText cs n places) :
    ∀ c ∈ cs, IsMark c := by
  cases h with
  | whole hds => exact hds.isMark
  | point hds hfs =>
    rw [List.forall_mem_append, List.forall_mem_cons]
    exact ⟨hds.isMark, by simp [IsMark, Text.isBlank], hfs.isMark⟩

theorem ExponentText.isMark {cs : List Char} {e : ℤ} (h : ExponentText cs e) :
    ∀ c ∈ cs, IsMark c := by
  cases h with
  | none => simp
  | some hmark hsign hds =>
    rw [List.forall_mem_cons, List.forall_mem_append]
    refine ⟨?_, hsign.isMark, hds.isMark⟩
    rcases hmark with rfl | rfl <;> simp [IsMark, Text.isBlank]

/-- In the text of a number there are no blanks and no comma. -/
theorem Numeral.isMark {cs : List Char} {x : Float} (h : Numeral cs x) : ∀ c ∈ cs, IsMark c := by
  have hletters {name : List Char}
      (h : (Spells "inf" name ∨ Spells "infinity" name) ∨ Spells "nan" name) :
      ∀ c ∈ name, IsMark c :=
    fun c hc => isMark_of_isAlpha ((isAlpha_of_special h).2 c hc)
  cases h with
  | number hsign hdigits hexponent =>
    rw [List.forall_mem_append, List.forall_mem_append]
    exact ⟨hsign.isMark, hdigits.isMark, hexponent.isMark⟩
  | infinity hsign hname =>
    exact List.forall_mem_append.mpr ⟨hsign.isMark, hletters (.inl hname)⟩
  | notANumber hsign hname =>
    exact List.forall_mem_append.mpr ⟨hsign.isMark, hletters (.inr hname)⟩

/-- A text stands for one double at most. -/
theorem Numeral.unique {cs : List Char} {x y : Float} (hx : Numeral cs x) (hy : Numeral cs y) :
    x = y := by
  rw [← String.toList_ofList (l := cs), ← read?_eq_some_iff] at hx hy
  exact Option.some_inj.mp (hx.symm.trans hy)

end Decimal

namespace CommandLine
open Decimal Text

/-- The two sides of the first comma of a text. -/
structure SplitsAtComma (cs before after : List Char) : Prop where
  eq_append : cs = before ++ ',' :: after
  not_mem : ',' ∉ before

/-- What a text is answered with: the place of its two numbers, or the first of the five defects a
text can have. -/
inductive PlaceAnswer (cs : List Char) : Except PlaceError (Coordinate Float) → Prop
  | noComma : ',' ∉ cs → PlaceAnswer cs (.error .noComma)
  | noLatitude {before after : List Char} : SplitsAtComma cs before after →
      (¬∃ x, Numeral (trim before) x) → PlaceAnswer cs (.error (.latitude (trim before)))
  | noLongitude {before after : List Char} {x : Float} : SplitsAtComma cs before after →
      Numeral (trim before) x → (¬∃ y, Numeral (trim after) y) →
      PlaceAnswer cs (.error (.longitude (trim after)))
  | outsideLatitude {before after : List Char} {x y : Float} : SplitsAtComma cs before after →
      Numeral (trim before) x → Numeral (trim after) y → ¬Bounded 90.0 x →
      PlaceAnswer cs (.error (.outside (.latitude x)))
  | outsideLongitude {before after : List Char} {x y : Float} : SplitsAtComma cs before after →
      Numeral (trim before) x → Numeral (trim after) y → Bounded 90.0 x → ¬Bounded 180.0 y →
      PlaceAnswer cs (.error (.outside (.longitude y)))
  | place {before after : List Char} {c : Coordinate Float} : SplitsAtComma cs before after →
      Numeral (trim before) c.latitude → Numeral (trim after) c.longitude →
      Bounded 90.0 c.latitude → Bounded 180.0 c.longitude → PlaceAnswer cs (.ok c)

theorem SplitsAtComma.span_eq {cs before after : List Char} (h : SplitsAtComma cs before after) :
    cs.span (· ≠ ',') = (before, ',' :: after) := by
  rw [h.eq_append]
  refine span_digits (fun c hc => decide_eq_true ?_) ',' (by decide) after
  rintro rfl
  exact h.not_mem hc

theorem exists_splitsAtComma {cs : List Char} (h : ',' ∈ cs) :
    ∃ before after, SplitsAtComma cs before after := by
  obtain ⟨before, after, heq, hnot⟩ := List.eq_append_cons_of_mem h
  exact ⟨before, after, heq, hnot⟩

theorem readPlace_of_not_mem {cs : List Char} (h : ',' ∉ cs) : readPlace cs = .error .noComma := by
  have hspan : cs.span (· ≠ ',') = (cs, []) := by
    have hall : ∀ c ∈ cs, decide (c ≠ ',') = true := fun c hc =>
      decide_eq_true fun hcomma => h (hcomma ▸ hc)
    rw [List.span_eq_takeWhile_dropWhile, List.takeWhile_eq_self_iff.mpr hall,
      List.dropWhile_eq_nil_iff.mpr hall]
  unfold readPlace
  rw [hspan]

section
variable {cs : List Char} {x y : Float}

theorem readDegrees_of_numeral (refuse : List Char → PlaceError) (h : Numeral (trim cs) x) :
    readDegrees refuse cs = .ok x := by
  rw [← String.toList_ofList (l := trim cs), ← read?_eq_some_iff] at h
  simp only [readDegrees, h]

theorem readDegrees_of_not_numeral (refuse : List Char → PlaceError)
    (h : ¬∃ x, Numeral (trim cs) x) : readDegrees refuse cs = .error (refuse (trim cs)) := by
  have hnone : read? (String.ofList (trim cs)) = none := by
    rw [Option.eq_none_iff_forall_ne_some]
    intro x hx
    rw [read?_eq_some_iff, String.toList_ofList] at hx
    exact h ⟨x, hx⟩
  simp only [readDegrees, hnone]

variable {before after : List Char} (h : SplitsAtComma cs before after)
include h

theorem readPlace_of_numerals (hx : Numeral (trim before) x) (hy : Numeral (trim after) y) :
    readPlace cs = (Coordinate.validate? x y).mapError .outside := by
  unfold readPlace
  rw [h.span_eq]
  dsimp only
  rw [readDegrees_of_numeral _ hx, readDegrees_of_numeral _ hy]
  rfl

theorem readPlace_of_no_latitude (hx : ¬∃ x, Numeral (trim before) x) :
    readPlace cs = .error (.latitude (trim before)) := by
  unfold readPlace
  rw [h.span_eq]
  dsimp only
  rw [readDegrees_of_not_numeral _ hx]
  rfl

theorem readPlace_of_no_longitude (hx : Numeral (trim before) x)
    (hy : ¬∃ y, Numeral (trim after) y) : readPlace cs = .error (.longitude (trim after)) := by
  unfold readPlace
  rw [h.span_eq]
  dsimp only
  rw [readDegrees_of_numeral _ hx, readDegrees_of_not_numeral _ hy]
  rfl

end

theorem validate?_of_not_latitude {x : Float} (y : Float) (hx : ¬Bounded 90.0 x) :
    Coordinate.validate? x y = .error (.latitude x) := by
  rw [show Bounded 90.0 x ↔ _ from between_iff_isWithin rfl rfl] at hx
  simp [Coordinate.validate?, hx]

theorem validate?_of_not_longitude {x y : Float} (hx : Bounded 90.0 x) (hy : ¬Bounded 180.0 y) :
    Coordinate.validate? x y = .error (.longitude y) := by
  rw [show Bounded 90.0 x ↔ _ from between_iff_isWithin rfl rfl] at hx
  rw [show Bounded 180.0 y ↔ _ from between_iff_isWithin rfl rfl] at hy
  simp [Coordinate.validate?, hx, hy]

theorem readPlace_eq_of_answer {cs : List Char} {answer : Except PlaceError (Coordinate Float)}
    (h : PlaceAnswer cs answer) : readPlace cs = answer := by
  cases h with
  | noComma hcomma => exact readPlace_of_not_mem hcomma
  | noLatitude h hx => exact readPlace_of_no_latitude h hx
  | noLongitude h hx hy => exact readPlace_of_no_longitude h hx hy
  | @outsideLatitude before after x y h hx hy hout =>
    rw [readPlace_of_numerals h hx hy, validate?_of_not_latitude y hout]
    rfl
  | outsideLongitude h hx hy hin hout =>
    rw [readPlace_of_numerals h hx hy, validate?_of_not_longitude hin hout]
    rfl
  | @place before after c h hx hy hlatitude hlongitude =>
    rw [readPlace_of_numerals h hx hy,
      show Coordinate.validate? _ _ = _ from Coordinate.accepted_iff.mpr ⟨hlatitude, hlongitude⟩]
    rfl

theorem exists_placeAnswer (cs : List Char) : ∃ answer, PlaceAnswer cs answer := by
  by_cases hcomma : ',' ∈ cs
  · obtain ⟨before, after, h⟩ := exists_splitsAtComma hcomma
    by_cases hlatitude : ∃ x, Numeral (trim before) x
    · obtain ⟨x, hx⟩ := hlatitude
      by_cases hlongitude : ∃ y, Numeral (trim after) y
      · obtain ⟨y, hy⟩ := hlongitude
        by_cases hinside : Bounded 90.0 x
        · by_cases hinside' : Bounded 180.0 y
          · exact ⟨.ok ⟨x, y⟩, .place h hx hy hinside hinside'⟩
          · exact ⟨_, .outsideLongitude h hx hy hinside hinside'⟩
        · exact ⟨_, .outsideLatitude h hx hy hinside⟩
      · exact ⟨_, .noLongitude h hx hlongitude⟩
    · exact ⟨_, .noLatitude h hlatitude⟩
  · exact ⟨_, .noComma hcomma⟩

theorem readPlace_eq_iff {cs : List Char} {answer : Except PlaceError (Coordinate Float)} :
    readPlace cs = answer ↔ PlaceAnswer cs answer := by
  constructor
  · rintro rfl
    obtain ⟨answer, h⟩ := exists_placeAnswer cs
    exact readPlace_eq_of_answer h ▸ h
  · exact readPlace_eq_of_answer

theorem not_mem_of_trim {cs : List Char} {x : Float} (h : Numeral (trim cs) x) : ',' ∉ cs :=
  fun hcomma => (h.isMark ',' (mem_trim (by decide) hcomma)).2 rfl

theorem count_comma_of_answer {cs : List Char} {c : Coordinate Float}
    (h : PlaceAnswer cs (.ok c)) : cs.count ',' = 1 := by
  cases h with
  | place hsplit hx hy =>
    rw [hsplit.eq_append, List.count_append, List.count_cons_self,
      List.count_eq_zero_of_not_mem hsplit.not_mem,
      List.count_eq_zero_of_not_mem (not_mem_of_trim hy)]

theorem isFinite_of_answer {cs : List Char} {c : Coordinate Float} (h : PlaceAnswer cs (.ok c)) :
    c.latitude.isFinite = true ∧ c.longitude.isFinite = true := by
  cases h with
  | place _ _ _ hlatitude hlongitude => exact ⟨hlatitude.isFinite, hlongitude.isFinite⟩

theorem trim_shortest (x : Float) {before after : List Char} (hbefore : AllBlank before)
    (hafter : AllBlank after) : Numeral (trim (before ++ (shortest x).toList ++ after)) x := by
  have h := numeral_shortest x
  rwa [trim_append hbefore (fun c hc => (h.isMark c hc).1) hafter]

theorem readPlace_shortest {c : Coordinate Float} (hc : c.Accepted) {w₁ w₂ w₃ w₄ : List Char}
    (h₁ : AllBlank w₁) (h₂ : AllBlank w₂) (h₃ : AllBlank w₃) (h₄ : AllBlank w₄) :
    readPlace (w₁ ++ (shortest c.latitude).toList ++ w₂ ++
      ',' :: (w₃ ++ (shortest c.longitude).toList ++ w₄)) = .ok c := by
  have hlatitude := trim_shortest c.latitude h₁ h₂
  have hlongitude := trim_shortest c.longitude h₃ h₄
  exact readPlace_eq_of_answer
    (.place ⟨rfl, not_mem_of_trim hlatitude⟩ hlatitude hlongitude hc.latitude hc.longitude)

/-- A place is read exactly from the texts of its grammar, any other text is answered with its first
defect, and between any blanks the shortest texts of its two numbers are read back bit for bit. -/
theorem place_read_exactly :
    (∀ cs answer, readPlace cs = answer ↔ PlaceAnswer cs answer) ∧
      (∀ cs c, readPlace cs = .ok c →
        cs.count ',' = 1 ∧ c.latitude.isFinite = true ∧ c.longitude.isFinite = true) ∧
      ∀ c : Coordinate Float, c.Accepted →
        ∀ w₁ w₂ w₃ w₄, AllBlank w₁ → AllBlank w₂ → AllBlank w₃ → AllBlank w₄ →
          readPlace (w₁ ++ (shortest c.latitude).toList ++ w₂ ++
            ',' :: (w₃ ++ (shortest c.longitude).toList ++ w₄)) = .ok c := by
  refine ⟨fun cs answer => readPlace_eq_iff, fun cs c hread => ?_,
    fun c hc w₁ w₂ w₃ w₄ h₁ h₂ h₃ h₄ => readPlace_shortest hc h₁ h₂ h₃ h₄⟩
  have hanswer := readPlace_eq_iff.mp hread
  exact ⟨count_comma_of_answer hanswer, isFinite_of_answer hanswer⟩

end CommandLine
end GeoAlmanac
