import GeoAlmanac.Calendar.Instant
import GeoAlmanac.CommandLine.Values
import GeoAlmanac.Proofs.Calendar.Days
import GeoAlmanac.Proofs.Decimal.Digits
import GeoAlmanac.Proofs.Text.Blanks

/-! Dates and instants read back from their texts, over the whole calendar: with a sign before the
years outside 0 to 9999, and as many digits as these years have. -/

namespace GeoAlmanac
open Decimal CommandLine

theorem trimLeft_digits {ds : List Char} (hds : AllDigits ds) (hne : ds ≠ []) (rest : List Char) :
    Text.trimLeft (ds ++ rest) = ds ++ rest := by
  obtain ⟨c, cs, rfl⟩ := List.exists_cons_of_ne_nil hne
  exact Text.trimLeft_cons (Text.isBlank_of_isDigit (hds c List.mem_cons_self)) _

theorem dateNumber_digits {width : ℕ} {ds rest : List Char} (hds : AllDigits ds) (hne : ds ≠ [])
    (hwidth : ds.length ≤ width)
    (hrest : ds.length = width ∨ ∃ c cs, rest = c :: cs ∧ c.isDigit = false)
    (hbits : natOfDigits ds < 0x8000000000000000) :
    dateNumber width (ds ++ rest) = .ok (natOfDigits ds, rest) := by
  have hdigits : ((ds ++ rest).take width).takeWhile Char.isDigit = ds := by
    rw [List.take_append, List.take_of_length_le hwidth, List.takeWhile_append_of_pos hds]
    rcases hrest with hfull | ⟨c, cs, rfl, hc⟩
    · rw [hfull, Nat.sub_self, List.take_zero, List.takeWhile_nil, List.append_nil]
    · cases width - ds.length with
      | zero => simp
      | succ k => simp [hc]
  unfold dateNumber
  simp only [hdigits]
  rw [if_neg (by simp [hne]), if_neg (by simp [hne]), if_neg (by omega), List.drop_left]

theorem toList_yearText (year : ℤ) : (Date.yearText year).toList =
    (if year < 0 then ['-'] else if 9999 < year then ['+'] else []) ++
      (padded 4 year.natAbs).toList := by
  rw [Date.yearText, String.toList_append]
  split_ifs <;> rfl

theorem trimLeft_yearText (year : ℤ) (rest : List Char) :
    Text.trimLeft ((Date.yearText year).toList ++ rest) = (Date.yearText year).toList ++ rest := by
  rw [toList_yearText, List.append_assoc]
  split_ifs
  · rw [List.singleton_append, Text.trimLeft_cons (by decide)]
  · rw [List.singleton_append, Text.trimLeft_cons (by decide)]
  · rw [List.nil_append, trimLeft_digits (digits_padded _ _) (padded_ne_nil _ _)]

theorem dateYear_yearText {year : ℤ} (hfirst : firstYear ≤ year) (hlast : year ≤ lastYear)
    (rest : List Char) :
    dateYear ((Date.yearText year).toList ++ '-' :: rest) = .ok (year, '-' :: rest) := by
  have hbound : year.natAbs ≤ 262143 := by
    simp only [firstYear, lastYear] at hfirst hlast
    omega
  have hlength : ¬ year < 0 → ¬ 9999 < year → (padded 4 year.natAbs).toList.length = 4 :=
    fun hneg hlong => length_padded (by norm_num) (by omega)
  have hds := digits_padded 4 year.natAbs
  have hne := padded_ne_nil 4 year.natAbs
  have hvalue := natOfDigits_padded 4 year.natAbs
  rw [toList_yearText]
  generalize (padded 4 year.natAbs).toList = ds at *
  have hsigned : dateNumber (ds ++ '-' :: rest).length (ds ++ '-' :: rest) =
      .ok (year.natAbs, '-' :: rest) := by
    rw [dateNumber_digits hds hne (by simp) (.inr ⟨'-', rest, rfl, by decide⟩) (by omega), hvalue]
  split_ifs with hneg hlong
  · have habs : -(year.natAbs : ℤ) = year := by omega
    change dateYear ('-' :: (ds ++ '-' :: rest)) = _
    simp only [dateYear, hsigned, Except.map, bind, Except.bind, habs]
    rw [if_pos (by omega)]
  · have habs : (year.natAbs : ℤ) = year := by omega
    change dateYear ('+' :: (ds ++ '-' :: rest)) = _
    simp only [dateYear, hsigned, Except.map, bind, Except.bind, habs]
    rw [if_pos (by omega)]
  · have habs : (year.natAbs : ℤ) = year := by omega
    have hshort : dateNumber 4 (ds ++ '-' :: rest) = .ok (year.natAbs, '-' :: rest) := by
      have hfour := hlength hneg hlong
      rw [dateNumber_digits hds hne hfour.le (.inl hfour) (by omega), hvalue]
    obtain ⟨c, cs, rfl⟩ := List.exists_cons_of_ne_nil hne
    obtain ⟨hminus, hplus⟩ := ne_sign_of_isDigit (hds c List.mem_cons_self)
    rw [List.nil_append, List.cons_append]
    unfold dateYear
    split
    next heq => exact absurd (List.cons.inj heq).1 hminus
    next heq => exact absurd (List.cons.inj heq).1 hplus
    next =>
      rw [← List.cons_append]
      simp only [hshort, Except.map, bind, Except.bind, habs]
      rw [if_pos (by omega)]

theorem datePart_padded {high n : ℕ} (hlow : 1 ≤ n) (hhigh : n ≤ high) (hn : n < 100)
    (rest : List Char) : datePart high ((padded 2 n).toList ++ rest) = .ok (n, rest) := by
  have hlength : (padded 2 n).toList.length = 2 := length_padded (by norm_num) hn
  have hvalue := natOfDigits_padded 2 n
  have hnumber : dateNumber 2 ((padded 2 n).toList ++ rest) = .ok (n, rest) := by
    rw [dateNumber_digits (digits_padded 2 n) (padded_ne_nil 2 n) hlength.le (.inl hlength)
      (by omega), hvalue]
  simp only [datePart, hnumber, bind, Except.bind]
  rw [if_pos ⟨hlow, hhigh⟩]

theorem toList_dateText (d : Date) : d.text.toList =
    (Date.yearText d.year).toList ++ '-' :: ((padded 2 d.month).toList ++
      '-' :: (padded 2 d.day).toList) := by
  simp [Date.text]

theorem readDate_text (d : Date) : readDate d.text.toList = .ok d := by
  obtain ⟨hfirst, hlast, hday, hlen⟩ := d.valid
  have hmonth := d.month_bounds
  have hlen' := (monthLength_bounds d.year hmonth).2
  have hyear := dateYear_yearText hfirst hlast
  have hm := fun rest => datePart_padded hmonth.1 hmonth.2 (by omega) rest
  have hd := datePart_padded hday (hlen.trans hlen') (by omega) []
  have hparts : Date.ofParts? d.year d.month d.day = some d :=
    Date.ofParts?_eq_some.mpr ⟨rfl, rfl, rfl⟩
  have hhyphen : Text.isBlank '-' = false := by decide
  unfold readDate
  rw [toList_dateText, trimLeft_yearText, hyear]
  simp only [bind, Except.bind, Text.trimLeft_cons hhyphen, afterHyphen, if_true,
    trimLeft_digits (digits_padded _ _) (padded_ne_nil _ _), hm]
  rw [← List.append_nil (padded 2 d.day).toList,
    trimLeft_digits (digits_padded _ _) (padded_ne_nil _ _), hd]
  simp [Text.trimLeft, hparts]

theorem yearText_chars {year : ℤ} {c : Char} (hc : c ∈ (Date.yearText year).toList) :
    c.isDigit = true ∨ c = '-' ∨ c = '+' := by
  rw [toList_yearText, List.mem_append] at hc
  rcases hc with hc | hc
  · split_ifs at hc <;> simp_all
  · exact .inl (digits_padded _ _ c hc)

theorem dateText_chars {d : Date} {c : Char} (hc : c ∈ d.text.toList) :
    c.isDigit = true ∨ c = '-' ∨ c = '+' := by
  simp only [toList_dateText, List.mem_append, List.mem_cons] at hc
  rcases hc with hc | rfl | hc | rfl | hc
  · exact yearText_chars hc
  · exact .inr (.inl rfl)
  · exact .inl (digits_padded _ _ c hc)
  · exact .inr (.inl rfl)
  · exact .inl (digits_padded _ _ c hc)

theorem ne_of_mem_dateText {stop : Char} (hdigit : stop.isDigit = false)
    (hsign : stop ≠ '-' ∧ stop ≠ '+') (d : Date) :
    ∀ c ∈ d.text.toList, decide (c ≠ stop) = true := by
  intro c hc
  refine decide_eq_true ?_
  rintro rfl
  rcases dateText_chars hc with hd | hminus | hplus
  · simp [hdigit] at hd
  · exact hsign.1 hminus
  · exact hsign.2 hplus

namespace Instant

/-- Reads an instant: a date, and after a `T` the hour, minute and second of its day in two digits
each. -/
def read? (cs : List Char) : Option Instant :=
  match cs.span (· ≠ 'T') with
  | (date, ['T', h₁, h₂, ':', m₁, m₂, ':', s₁, s₂, 'Z']) =>
    let second := natOfDigits [h₁, h₂] * 3600 + natOfDigits [m₁, m₂] * 60 + natOfDigits [s₁, s₂]
    match readDate date with
    | .ok date => if h : second < 86400 then some ⟨date, second, h⟩ else none
    | .error _ => none
  | _ => none

theorem toList_text (t : Instant) : t.text.toList =
    t.date.text.toList ++ 'T' :: ((padded 2 (t.secondOfDay / 3600)).toList ++
      ':' :: ((padded 2 (t.secondOfDay / 60 % 60)).toList ++
        ':' :: ((padded 2 (t.secondOfDay % 60)).toList ++ ['Z']))) := by
  simp [text]

/-- The text of an instant is read back. -/
theorem read?_text (t : Instant) : read? t.text.toList = some t := by
  have hday := t.lt_day
  have hdate := ne_of_mem_dateText (by decide : 'T'.isDigit = false) (by decide) t.date
  obtain ⟨h₁, h₂, hhour⟩ := padded_two (n := t.secondOfDay / 3600) (by omega)
  obtain ⟨m₁, m₂, hminute⟩ := padded_two (n := t.secondOfDay / 60 % 60) (by omega)
  obtain ⟨s₁, s₂, hsecond⟩ := padded_two (n := t.secondOfDay % 60) (by omega)
  have hh := natOfDigits_padded 2 (t.secondOfDay / 3600)
  have hm := natOfDigits_padded 2 (t.secondOfDay / 60 % 60)
  have hs := natOfDigits_padded 2 (t.secondOfDay % 60)
  rw [hhour] at hh
  rw [hminute] at hm
  rw [hsecond] at hs
  have hsum : t.secondOfDay / 3600 * 3600 + t.secondOfDay / 60 % 60 * 60 + t.secondOfDay % 60 =
      t.secondOfDay := by omega
  unfold read?
  rw [toList_text, span_digits hdate 'T' (by decide), hhour, hminute, hsecond]
  simp only [List.cons_append, List.nil_append, hh, hm, hs, readDate_text, hsum]
  rw [dif_pos hday]

end Instant
end GeoAlmanac
