import GeoAlmanac.Proofs.Decimal.Digits
import GeoAlmanac.Proofs.Decimal.Nearest

/-! The texts that are read as doubles: a grammar of its own, with what each text stands for. The
reader accepts these texts and no others, and reads the double nearest to the number of the text. -/

namespace GeoAlmanac.Decimal
open Binary64
open Float.Model.UnpackedFloat (Sign)

/-- The sign before a number. -/
inductive SignText : List Char → Sign → Prop
  | none : SignText [] .positive
  | plus : SignText ['+'] .positive
  | minus : SignText ['-'] .negative

/-- The digits of a number, with the number they are together and how many of them stand behind a
point. On one side of the point there can be none. -/
inductive DigitsText : List Char → ℕ → ℕ → Prop
  | whole {ds : List Char} : AllDigits ds → ds ≠ [] → DigitsText ds (natOfDigits ds) 0
  | point {ds fs : List Char} : AllDigits ds → AllDigits fs → ds ++ fs ≠ [] →
      DigitsText (ds ++ '.' :: fs) (natOfDigits (ds ++ fs)) fs.length

/-- The power of ten after a number. -/
inductive ExponentText : List Char → ℤ → Prop
  | none : ExponentText [] 0
  | some {c : Char} {sign ds : List Char} {s : Sign} : c = 'e' ∨ c = 'E' → SignText sign s →
      AllDigits ds → ds ≠ [] → ExponentText (c :: (sign ++ ds)) (s.apply (natOfDigits ds))

/-- A name in small or capital letters. -/
def Spells (name : String) (cs : List Char) : Prop :=
  cs.map Char.toLower = name.toList

/-- A text of the grammar and the double it stands for. -/
inductive Numeral : List Char → Float → Prop
  | number {sign digits exponent : List Char} {s : Sign} {n places : ℕ} {e : ℤ} {x : Float} :
      SignText sign s → DigitsText digits n places → ExponentText exponent e →
      IsNearest s (n * 10 ^ (e - places)) x → Numeral (sign ++ (digits ++ exponent)) x
  | infinity {sign name : List Char} {s : Sign} {x : Float} : SignText sign s →
      Spells "inf" name ∨ Spells "infinity" name → x.toModel.unpack = .infinity s →
      Numeral (sign ++ name) x
  | notANumber {sign name : List Char} {s : Sign} {x : Float} : SignText sign s →
      Spells "nan" name → x.toModel.unpack = .notANumber → Numeral (sign ++ name) x

theorem spanDigits_append {ds rest : List Char} (hds : AllDigits ds)
    (hrest : ∀ c ∈ rest.head?, c.isDigit = false) : spanDigits (ds ++ rest) = (ds, rest) := by
  cases rest with
  | nil =>
    rw [List.append_nil, spanDigits, List.span_eq_takeWhile_dropWhile,
      List.takeWhile_eq_self_iff.mpr hds, List.dropWhile_eq_nil_iff.mpr hds]
  | cons c rest => exact span_digits hds c (hrest c rfl) rest

theorem spanDigits_spec (cs : List Char) :
    ∃ ds rest, cs = ds ++ rest ∧ AllDigits ds ∧ spanDigits cs = (ds, rest) :=
  ⟨cs.takeWhile Char.isDigit, cs.dropWhile Char.isDigit, List.takeWhile_append_dropWhile.symm,
    fun _ hc => List.mem_takeWhile_imp hc, List.span_eq_takeWhile_dropWhile ..⟩

theorem spanSign_spec (cs : List Char) : ∃ sign rest s, cs = sign ++ rest ∧ SignText sign s ∧
    spanSign cs = (s == .negative, rest) := by
  unfold spanSign
  split
  · exact ⟨['-'], _, .negative, rfl, .minus, rfl⟩
  · exact ⟨['+'], _, .positive, rfl, .plus, rfl⟩
  · exact ⟨[], cs, .positive, rfl, .none, rfl⟩

theorem SignText.spanSign_append {sign rest : List Char} {s : Sign} (h : SignText sign s)
    (hrest : ∀ c ∈ rest.head?, c ≠ '-' ∧ c ≠ '+') :
    spanSign (sign ++ rest) = (s == .negative, rest) := by
  cases h with
  | plus | minus => rfl
  | none =>
    cases rest with
    | nil => rfl
    | cons c rest =>
      obtain ⟨hminus, hplus⟩ := hrest c rfl
      simp [spanSign, hminus, hplus]

theorem signed_eq_apply (s : Sign) (n : ℕ) :
    (if (s == .negative) = true then -(n : ℤ) else n) = s.apply n := by
  cases s <;> rfl

theorem exponent?_eq_some_iff {cs : List Char} {e : ℤ} :
    exponent? cs = some e ↔ ExponentText cs e := by
  constructor
  · intro h
    cases cs with
    | nil =>
      obtain rfl : 0 = e := Option.some_inj.mp h
      exact .none
    | cons c rest =>
      obtain ⟨sign, rest, s, rfl, hsign, hspan⟩ := spanSign_spec rest
      obtain ⟨ds, rest, rfl, hds, hspan'⟩ := spanDigits_spec rest
      simp only [exponent?, hspan, hspan', signed_eq_apply] at h
      split_ifs at h with hmark hdefect
      rw [Bool.or_eq_true, List.isEmpty_iff, Bool.not_eq_true', List.isEmpty_eq_false_iff,
        not_or, not_not] at hdefect
      obtain ⟨hne, rfl⟩ := hdefect
      rw [List.append_nil]
      obtain rfl := Option.some_inj.mp h
      exact .some hmark hsign hds hne
  · intro h
    cases h with
    | none => rfl
    | @some c sign ds s hmark hsign hds hne =>
      have hspan : spanSign (sign ++ ds) = (s == .negative, ds) := hsign.spanSign_append fun c hc =>
        ne_sign_of_isDigit (hds c (List.mem_of_mem_head? hc))
      have hspan' : spanDigits ds = (ds, []) := by
        have h := spanDigits_append hds (show ∀ c ∈ ([] : List Char).head?, c.isDigit = false by simp)
        rwa [List.append_nil] at h
      simp only [exponent?, hspan, hspan', signed_eq_apply]
      rw [if_pos hmark, if_neg (by simp [hne])]

theorem ExponentText.head {cs : List Char} {e : ℤ} (h : ExponentText cs e) :
    ∀ c ∈ cs.head?, c.isDigit = false ∧ c ≠ '.' := by
  cases h with
  | none => simp
  | some hmark => rcases hmark with rfl | rfl <;> simp

section
variable {cs ds : List Char}

theorem unsigned?_of_point {r fs rest : List Char} (h : spanDigits cs = (ds, '.' :: r))
    (h' : spanDigits r = (fs, rest)) : unsigned? cs =
      if ds ++ fs = [] then none
      else (exponent? rest).map fun e => nearest (natOfDigits (ds ++ fs)) (e - fs.length) := by
  simp only [unsigned?, h, h', Bool.and_eq_true, List.isEmpty_iff, List.append_eq_nil_iff]

theorem unsigned?_of_no_point {rest : List Char} (h : spanDigits cs = (ds, rest))
    (hrest : ∀ r, rest ≠ '.' :: r) : unsigned? cs =
      if ds = [] then none
      else (exponent? rest).map fun e => nearest (natOfDigits ds) e := by
  simp [unsigned?, h]

end

theorem unsigned?_eq_some_iff {cs : List Char} {x : Float} :
    unsigned? cs = some x ↔ ∃ digits exponent n places e, cs = digits ++ exponent ∧
      DigitsText digits n places ∧ ExponentText exponent e ∧ x = nearest n (e - places) := by
  constructor
  · intro h
    obtain ⟨ds, rest, rfl, hds, hspan⟩ := spanDigits_spec cs
    by_cases hpoint : ∃ r, rest = '.' :: r
    · obtain ⟨r, rfl⟩ := hpoint
      obtain ⟨fs, rest, rfl, hfs, hspan'⟩ := spanDigits_spec r
      rw [unsigned?_of_point hspan hspan'] at h
      split_ifs at h with hempty
      obtain ⟨e, he, rfl⟩ := Option.map_eq_some_iff.mp h
      exact ⟨ds ++ '.' :: fs, rest, _, _, e, by simp, .point hds hfs hempty,
        exponent?_eq_some_iff.mp he, rfl⟩
    · rw [unsigned?_of_no_point hspan (not_exists.mp hpoint)] at h
      split_ifs at h with hempty
      obtain ⟨e, he, rfl⟩ := Option.map_eq_some_iff.mp h
      exact ⟨ds, rest, _, _, e, rfl, .whole hds hempty, exponent?_eq_some_iff.mp he, by simp⟩
  · rintro ⟨digits, exponent, n, places, e, rfl, hdigits, hexponent, rfl⟩
    have hhead := hexponent.head
    have he := exponent?_eq_some_iff.mpr hexponent
    have hspan {ds : List Char} (hds : AllDigits ds) := spanDigits_append hds fun c hc =>
      (hhead c hc).1
    cases hdigits with
    | whole hds hne =>
      have hno (r : List Char) : exponent ≠ '.' :: r := by
        rintro rfl
        exact (hhead '.' rfl).2 rfl
      rw [unsigned?_of_no_point (hspan hds) hno, if_neg hne, he]
      simp
    | @point ds fs hds hfs hne =>
      have hpoint : spanDigits ((ds ++ '.' :: fs) ++ exponent) = (ds, '.' :: (fs ++ exponent)) := by
        rw [List.append_assoc, List.cons_append]
        exact span_digits hds '.' (by decide) _
      rw [unsigned?_of_point hpoint (hspan hfs), if_neg hne, he]
      rfl

theorem special?_eq_some_iff {cs : List Char} {x : Float} :
    special? cs = some x ↔ (Spells "inf" cs ∨ Spells "infinity" cs) ∧ x = 1.0 / 0.0 ∨
      Spells "nan" cs ∧ x = 0.0 / 0.0 := by
  have hspells (name : String) : Spells name cs ↔ String.ofList (cs.map Char.toLower) = name := by
    rw [Spells, String.ofList_eq]
  simp only [hspells, special?]
  split
  next h => simp [h, eq_comm]
  next h => simp [h, eq_comm]
  next h => simp [h, eq_comm]
  next h₁ h₂ h₃ => simp [show ¬_ from h₁, show ¬_ from h₂, show ¬_ from h₃]

/-- A name is written in letters. -/
theorem Spells.isAlpha {name : String} {cs : List Char} (h : Spells name cs)
    (hname : ∀ l ∈ name.toList, l.isLower = true) : ∀ c ∈ cs, c.isAlpha = true := by
  intro c hc
  have hlower := hname c.toLower (h ▸ List.mem_map_of_mem hc)
  rw [Char.isAlpha, Bool.or_eq_true]
  by_cases hupper : c.isUpper = true
  · exact .inl hupper
  · have hsame : c.toLower = c := dif_neg fun h => hupper (decide_eq_true h)
    exact .inr (hsame ▸ hlower)

theorem isAlpha_of_special {cs : List Char}
    (h : (Spells "inf" cs ∨ Spells "infinity" cs) ∨ Spells "nan" cs) :
    cs ≠ [] ∧ ∀ c ∈ cs, c.isAlpha = true := by
  constructor
  · rintro rfl
    simp [Spells] at h
  · rcases h with (h | h) | h <;> exact h.isAlpha (by simp [Char.isLower])

theorem not_isAlpha_of_isDigit {c : Char} (hc : c.isDigit = true) : ¬c.isAlpha = true := by
  simp only [Char.isDigit, Char.isAlpha, Char.isUpper, Char.isLower, Bool.and_eq_true,
    Bool.or_eq_true, decide_eq_true_eq, UInt32.le_iff_toNat_le, ge_iff_le] at hc ⊢
  simp at hc ⊢
  omega

theorem DigitsText.head {cs : List Char} {n places : ℕ} (h : DigitsText cs n places) :
    ∃ c rest, cs = c :: rest ∧ (c.isDigit = true ∨ c = '.') := by
  cases h with
  | whole hds hne =>
    obtain ⟨c, rest, rfl⟩ := List.exists_cons_of_ne_nil hne
    exact ⟨c, rest, rfl, .inl (hds c List.mem_cons_self)⟩
  | @point ds fs hds =>
    cases ds with
    | nil => exact ⟨'.', fs, rfl, .inr rfl⟩
    | cons c ds => exact ⟨c, _, rfl, .inl (hds c List.mem_cons_self)⟩

theorem special?_of_digits {digits : List Char} {n places : ℕ} (h : DigitsText digits n places)
    (rest : List Char) : special? (digits ++ rest) = none := by
  obtain ⟨c, cs, rfl, hc⟩ := h.head
  have hletter : ¬c.isAlpha = true := by
    rcases hc with hc | rfl
    · exact not_isAlpha_of_isDigit hc
    · decide
  by_contra hsome
  obtain ⟨x, hx⟩ := Option.ne_none_iff_exists'.mp hsome
  have hname := (special?_eq_some_iff.mp hx).imp And.left And.left
  exact hletter ((isAlpha_of_special hname).2 c (by simp))

theorem spanSign_name {sign name : List Char} {s : Sign} (hsign : SignText sign s)
    (hname : (Spells "inf" name ∨ Spells "infinity" name) ∨ Spells "nan" name) :
    spanSign (sign ++ name) = (s == .negative, name) := by
  refine hsign.spanSign_append fun c hc => ?_
  have hletter := (isAlpha_of_special hname).2 c (List.mem_of_mem_head? hc)
  constructor <;> rintro rfl <;> exact absurd hletter (by decide)

/-- The number that a sign makes of a magnitude. -/
def signed (s : Sign) (x : Float) : Float :=
  if s == .negative then -x else x

theorem signed_isNearest {r : ℝ} {x : Float} (h : IsNearest .positive r x) (s : Sign) :
    IsNearest s r (signed s x) := by
  cases s with
  | negative => exact h.neg
  | positive => exact h

theorem unpack_signed_infinity (s : Sign) :
    (signed s (1.0 / 0.0)).toModel.unpack = .infinity s := by
  cases s <;> rfl

theorem unpack_signed_notANumber (s : Sign) :
    (signed s (0.0 / 0.0)).toModel.unpack = .notANumber := by
  cases s <;> rfl

theorem read?_eq_signed {text : String} {s : Sign} {rest : List Char}
    (h : spanSign text.toList = (s == .negative, rest)) :
    read? text = ((special? rest).or (unsigned? rest)).map (signed s) := by
  simp only [read?, h]
  rfl

/-- The texts that are read are those of the grammar. -/
theorem read?_eq_some_iff {text : String} {x : Float} :
    read? text = some x ↔ Numeral text.toList x := by
  constructor
  · intro h
    obtain ⟨sign, rest, s, htext, hsign, hspan⟩ := spanSign_spec text.toList
    rw [read?_eq_signed hspan, Option.map_eq_some_iff] at h
    obtain ⟨y, hy, rfl⟩ := h
    rw [htext]
    rw [Option.or_eq_some_iff, special?_eq_some_iff] at hy
    rcases hy with (⟨hname, rfl⟩ | ⟨hname, rfl⟩) | ⟨-, hy⟩
    · exact .infinity hsign hname (unpack_signed_infinity s)
    · exact .notANumber hsign hname (unpack_signed_notANumber s)
    · obtain ⟨digits, exponent, n, places, e, rfl, hdigits, hexponent, rfl⟩ :=
        unsigned?_eq_some_iff.mp hy
      exact .number hsign hdigits hexponent (signed_isNearest (nearest_isNearest n _) s)
  · intro h
    generalize htext : text.toList = cs at h
    cases h with
    | @number sign digits exponent s n places e _ hsign hdigits hexponent hnear =>
      obtain ⟨c, rest, hc, hhead⟩ := hdigits.head
      have hspan : spanSign text.toList = (s == .negative, digits ++ exponent) := by
        rw [htext]
        refine hsign.spanSign_append fun d hd => ?_
        obtain rfl : c = d := by simpa [hc] using hd
        rcases hhead with hdigit | rfl
        · exact ne_sign_of_isDigit hdigit
        · decide
      have hunsigned := unsigned?_eq_some_iff.mpr
        ⟨digits, exponent, n, places, e, rfl, hdigits, hexponent, rfl⟩
      rw [read?_eq_signed hspan, special?_of_digits hdigits, hunsigned, Option.none_or]
      exact congrArg some ((signed_isNearest (nearest_isNearest n _) s).unique hnear)
    | @infinity sign name s _ hsign hname hx =>
      rw [read?_eq_signed (htext ▸ spanSign_name hsign (.inl hname)),
        special?_eq_some_iff.mpr (.inl ⟨hname, rfl⟩)]
      exact congrArg some (eq_of_unpack_eq ((unpack_signed_infinity s).trans hx.symm))
    | @notANumber sign name s _ hsign hname hx =>
      rw [read?_eq_signed (htext ▸ spanSign_name hsign (.inr hname)),
        special?_eq_some_iff.mpr (.inr ⟨hname, rfl⟩)]
      exact congrArg some (eq_of_unpack_eq ((unpack_signed_notANumber s).trans hx.symm))

end GeoAlmanac.Decimal
