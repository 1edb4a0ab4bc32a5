import GeoAlmanac.Text.Blank
import Mathlib.Data.List.Basic
import Mathlib.Data.List.TakeWhile

/-! Blanks around a text. Trimming takes them away and nothing else. -/

namespace GeoAlmanac.Text

theorem isBlank_of_isDigit {c : Char} (hc : c.isDigit = true) : isBlank c = false := by
  have hrange : 48 ≤ c.toNat ∧ c.toNat ≤ 57 := by
    simp only [Char.isDigit, Bool.and_eq_true, decide_eq_true_eq] at hc
    exact ⟨UInt32.le_iff_toNat_le.mp hc.1, UInt32.le_iff_toNat_le.mp hc.2⟩
  simp only [isBlank]
  simp
  omega

theorem trimLeft_cons {c : Char} (hc : isBlank c = false) (cs : List Char) :
    trimLeft (c :: cs) = c :: cs :=
  List.dropWhile_cons_of_neg (by simp [hc])

/-- A text of blanks only. -/
def AllBlank (cs : List Char) : Prop :=
  ∀ c ∈ cs, isBlank c = true

theorem trim_append {before cs after : List Char} (hbefore : AllBlank before)
    (hcs : ∀ c ∈ cs, isBlank c = false) (hafter : AllBlank after) :
    trim (before ++ cs ++ after) = cs := by
  have hreverse : AllBlank after.reverse := fun c hc => hafter c (List.mem_reverse.mp hc)
  have hstop {ds : List Char} (hds : ∀ c ∈ ds, isBlank c = false) (hne : ds ≠ [])
      (rest : List Char) : (ds ++ rest).dropWhile isBlank = ds ++ rest := by
    obtain ⟨c, ds, rfl⟩ := List.exists_cons_of_ne_nil hne
    exact List.dropWhile_cons_of_neg (by simp [hds])
  unfold trim trimRight trimLeft
  rw [List.append_assoc, List.dropWhile_append_of_pos hbefore]
  rcases eq_or_ne cs [] with rfl | hne
  · rw [List.nil_append, List.dropWhile_eq_nil_iff.mpr hafter]
    rfl
  · have hback := hstop (fun c hc => hcs c (List.mem_reverse.mp hc))
      (List.reverse_ne_nil_iff.mpr hne) []
    rw [List.append_nil] at hback
    rw [hstop hcs hne after, List.reverse_append, List.dropWhile_append_of_pos hreverse, hback,
      List.reverse_reverse]

theorem mem_dropWhile {c : Char} (hc : isBlank c = false) {cs : List Char} (h : c ∈ cs) :
    c ∈ cs.dropWhile isBlank := by
  rw [← List.takeWhile_append_dropWhile (p := isBlank) (l := cs), List.mem_append] at h
  refine h.resolve_left fun hblank => ?_
  rw [List.mem_takeWhile_imp hblank] at hc
  exact absurd hc (by decide)

theorem mem_trim {c : Char} (hc : isBlank c = false) {cs : List Char} (h : c ∈ cs) :
    c ∈ trim cs :=
  List.mem_reverse.mpr (mem_dropWhile hc (List.mem_reverse.mpr (mem_dropWhile hc h)))

end GeoAlmanac.Text
