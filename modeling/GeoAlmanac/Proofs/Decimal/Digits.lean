import GeoAlmanac.Decimal.Reader
import GeoAlmanac.Decimal.Rounding
import Mathlib.Data.List.Basic
import Mathlib.Data.List.TakeDrop
import Mathlib.Tactic.NormNum

/-! Decimal digits written and read back. A number that is filled with zeros to a width, or that is
written with a point before its last places, is the number that its digits say. -/

namespace GeoAlmanac.Decimal

/-- A text of decimal digits only. -/
def AllDigits (cs : List Char) : Prop :=
  ∀ c ∈ cs, c.isDigit = true

theorem natOfDigits_eq (cs : List Char) : natOfDigits cs = Nat.ofDigitChars 10 cs 0 := rfl

theorem digits_toDigits (n : ℕ) : AllDigits (Nat.toDigits 10 n) := fun _ hc =>
  Nat.isDigit_of_mem_toDigits (by norm_num) (by norm_num) hc

theorem toList_toString (n : ℕ) : (toString n).toList = Nat.toDigits 10 n := by
  rw [Nat.toString_eq_ofList_toDigits, String.toList_ofList]

section Padded
variable (width n : ℕ)

theorem toList_padded : (padded width n).toList =
    List.replicate (width - digitCount n) '0' ++ Nat.toDigits 10 n :=
  String.toList_ofList

theorem digits_padded : AllDigits (padded width n).toList := by
  intro c hc
  rw [toList_padded, List.mem_append] at hc
  rcases hc with hc | hc
  · rw [List.eq_of_mem_replicate hc]
    rfl
  · exact digits_toDigits n c hc

theorem natOfDigits_padded : natOfDigits (padded width n).toList = n := by
  rw [natOfDigits_eq, toList_padded, Nat.ofDigitChars_append, Nat.ofDigitChars_replicate_zero,
    mul_zero, Nat.ofDigitChars_ten_toDigits]

theorem padded_ne_nil : (padded width n).toList ≠ [] := by
  rw [toList_padded]
  exact List.append_ne_nil_of_right_ne_nil _ Nat.toDigits_ne_nil

variable {width n}

theorem length_padded (hw : 0 < width) (hn : n < 10 ^ width) :
    (padded width n).toList.length = width := by
  have hcount : digitCount n ≤ width := (Nat.length_toDigits_le_iff (by norm_num) hw).mpr hn
  rw [toList_padded, List.length_append, List.length_replicate]
  exact Nat.sub_add_cancel hcount

end Padded

/-- Two digits, as in the parts of a date and of a time of day. -/
theorem padded_two {n : ℕ} (h : n < 100) : ∃ a b, (padded 2 n).toList = [a, b] :=
  List.length_eq_two.mp (length_padded (by norm_num) h)

/-- A span ends where a text of digits does, if something else follows. -/
theorem span_digits {p : Char → Bool} {ds : List Char} (hds : ∀ c ∈ ds, p c = true) (c : Char)
    (hc : p c = false) (rest : List Char) : (ds ++ c :: rest).span p = (ds, c :: rest) := by
  rw [List.span_eq_takeWhile_dropWhile, List.takeWhile_append_of_pos hds,
    List.dropWhile_append_of_pos hds, List.takeWhile_cons_of_neg (by simp [hc]),
    List.dropWhile_cons_of_neg (by simp [hc]), List.append_nil]

/-- The number of units of the last place in a text with `places` digits after its point. -/
def units? (places : ℕ) (cs : List Char) : Option ℕ :=
  match cs.span (· ≠ '.') with
  | (whole, _ :: fraction) =>
    if fraction.length = places then some (natOfDigits (whole ++ fraction)) else none
  | _ => none

theorem toList_withPoint {places : ℕ} (hp : places ≠ 0) (n : ℕ) : (withPoint places n).toList =
    Nat.toDigits 10 (n / tenTo places) ++ '.' :: (padded places (n % tenTo places)).toList := by
  rw [withPoint, if_neg hp, String.toList_append, String.toList_append, toList_toString,
    List.append_assoc]
  rfl

theorem ne_point_of_isDigit {c : Char} (hc : c.isDigit = true) : c ≠ '.' := by
  rintro rfl
  exact absurd hc (by decide)

theorem ne_sign_of_isDigit {c : Char} (hc : c.isDigit = true) : c ≠ '-' ∧ c ≠ '+' := by
  constructor <;> rintro rfl <;> exact absurd hc (by decide)

theorem length_fraction {places : ℕ} (hp : places ≠ 0) (n : ℕ) :
    (padded places (n % tenTo places)).toList.length = places :=
  length_padded (Nat.pos_of_ne_zero hp) (Nat.mod_lt n (Nat.pow_pos (by norm_num)))

theorem natOfDigits_withPoint {places : ℕ} (hp : places ≠ 0) (n : ℕ) :
    natOfDigits (Nat.toDigits 10 (n / tenTo places) ++
      (padded places (n % tenTo places)).toList) = n := by
  rw [natOfDigits_eq, Nat.ofDigitChars_append, Nat.ofDigitChars_ten_toDigits,
    Nat.ofDigitChars_eq_ofDigitChars_zero, length_fraction hp, ← natOfDigits_eq,
    natOfDigits_padded]
  exact Nat.div_add_mod n (tenTo places)

theorem units?_withPoint {places : ℕ} (hp : places ≠ 0) (n : ℕ) :
    units? places (withPoint places n).toList = some n := by
  have hwhole : ∀ c ∈ Nat.toDigits 10 (n / tenTo places), decide (c ≠ '.') = true := fun c hc =>
    decide_eq_true (ne_point_of_isDigit (digits_toDigits _ c hc))
  unfold units?
  rw [toList_withPoint hp, span_digits hwhole '.' (by decide)]
  change (if _ then _ else _) = _
  rw [if_pos (length_fraction hp n), natOfDigits_withPoint hp]

end GeoAlmanac.Decimal
