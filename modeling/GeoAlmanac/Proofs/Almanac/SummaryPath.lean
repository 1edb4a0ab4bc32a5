import GeoAlmanac.Proofs.Almanac.Export
import GeoAlmanac.Proofs.Files.Parents

/-! Where the summary of a table is written: in the directory of the table, under a name that only
the stem of the table decides. Each summary of a summary has a longer stem, so that no path comes
back to itself. -/

namespace GeoAlmanac

theorem isSome_textOf?_iff {bytes : List UInt8} :
    (textOf? bytes).isSome = true ↔ (ByteArray.mk bytes.toArray).IsValidUTF8 := by
  unfold textOf? String.fromUTF8?
  split <;> simp_all

theorem isSome_textOf?_append {front back : List UInt8} (hfront : (textOf? front).isSome = true)
    (hback : (textOf? back).isSome = true) : (textOf? (front ++ back)).isSome = true := by
  rw [isSome_textOf?_iff] at hfront hback ⊢
  have hjoined : ByteArray.mk (front ++ back).toArray = .mk front.toArray ++ .mk back.toArray := by
    apply ByteArray.ext
    simp
  rw [hjoined]
  exact hfront.append hback

namespace Path

/-- What stands before the last dot of a name; the whole name if it has no dot but as its first
byte. -/
def IsStem (n stem : Name) : Prop :=
  (∃ extension, 0x2E ∉ extension ∧ stem ≠ [] ∧ n = stem ++ 0x2E :: extension) ∨
    (0x2E ∉ n.tail ∧ stem = n)

theorem splitAtDot?_eq_none_iff {n : Name} : splitAtDot? n = none ↔ 0x2E ∉ n.tail := by
  rw [← not_iff_not, ← ne_eq, Option.ne_none_iff_exists', not_not]
  constructor
  · rintro ⟨⟨before, after⟩, hparts⟩
    obtain ⟨rfl, -, hbefore⟩ := splitAtDot?_eq_some.mp hparts
    rw [List.tail_append_of_ne_nil hbefore]
    simp
  · intro hdot
    cases n with
    | nil => simp at hdot
    | cons b rest =>
      obtain ⟨after, before, hreverse, hafter⟩ :=
        List.eq_append_cons_of_mem (List.mem_reverse.mpr hdot)
      have hrest : rest = before.reverse ++ 0x2E :: after.reverse := by
        simpa using congrArg List.reverse hreverse
      refine ⟨(b :: before.reverse, after.reverse), splitAtDot?_eq_some.mpr ⟨?_, ?_, by simp⟩⟩
      · rw [hrest]
        rfl
      · exact mt List.mem_reverse.mp hafter

theorem stem?_eq_some_iff {p : Path} {stem : Name} :
    p.stem? = some stem ↔ ∃ n, p.fileName? = some n ∧ IsStem n stem := by
  unfold stem?
  rw [Option.map_eq_some_iff]
  refine exists_congr fun n => and_congr_right fun _ => ?_
  unfold IsStem
  cases hparts : splitAtDot? n with
  | none =>
    have hdot := splitAtDot?_eq_none_iff.mp hparts
    constructor
    · intro h
      exact .inr ⟨hdot, h.symm⟩
    · rintro (⟨extension, hextension, hstem, rfl⟩ | ⟨-, rfl⟩)
      · have hsome := splitAtDot?_eq_some.mpr ⟨rfl, hextension, hstem⟩
        exact absurd (hparts.symm.trans hsome) (by simp)
      · rfl
  | some parts =>
    obtain ⟨before, after⟩ := parts
    obtain ⟨hn, hafter, hbefore⟩ := splitAtDot?_eq_some.mp hparts
    constructor
    · rintro rfl
      exact .inl ⟨after, hafter, hbefore, hn⟩
    · rintro (⟨extension, hextension, hstem, heq⟩ | ⟨hdot, -⟩)
      · have hsome := splitAtDot?_eq_some.mpr ⟨heq, hextension, hstem⟩
        exact (Prod.mk.inj (Option.some.inj (hparts.symm.trans hsome))).1
      · exact absurd (hparts.symm.trans (splitAtDot?_eq_none_iff.mpr hdot)) (by simp)

theorem stem?_join (p : Path) {stem extension : Name} (hname : IsName (stem ++ 0x2E :: extension))
    (hextension : 0x2E ∉ extension) (hstem : stem ≠ []) :
    (p.join (stem ++ 0x2E :: extension)).stem? = some stem :=
  stem?_eq_some_iff.mpr ⟨_, fileName?_join p hname, .inl ⟨extension, hextension, hstem, rfl⟩⟩

end Path

namespace Almanac

/-- The stem that a table lends to its summary. -/
def lentStem (table : Path) : Name :=
  match table.stem? with
  | some s => if (textOf? s).isSome then s else bytesOf "almanac"
  | none => bytesOf "almanac"

theorem summaryPath_eq (table : Path) : summaryPath table =
    (table.parent?.getD (.ofText ".")).join (lentStem table ++ bytesOf "_summary.json") := rfl

theorem lentStem_cases (table : Path) :
    (table.stem? = some (lentStem table) ∧ (textOf? (lentStem table)).isSome = true) ∨
      (lentStem table = bytesOf "almanac" ∧
        ∀ stem, table.stem? = some stem → textOf? stem = none) := by
  unfold lentStem
  cases hstem : table.stem? with
  | none => exact .inr ⟨rfl, by simp⟩
  | some s =>
    by_cases hreadable : (textOf? s).isSome = true
    · simp [hreadable]
    · simp_all

theorem isSome_textOf?_lentStem (table : Path) : (textOf? (lentStem table)).isSome = true := by
  rcases lentStem_cases table with ⟨-, hreadable⟩ | ⟨halmanac, -⟩
  · exact hreadable
  · rw [halmanac]
    decide +kernel

theorem slash_notMem_lentStem (table : Path) : Path.slash ∉ lentStem table := by
  rcases lentStem_cases table with ⟨hstem, -⟩ | ⟨halmanac, -⟩
  · obtain ⟨n, hname, hcases⟩ := Path.stem?_eq_some_iff.mp hstem
    have hslash := (Path.isName_of_fileName? hname).slash_notMem
    rcases hcases with ⟨extension, -, -, hn⟩ | ⟨-, hn⟩
    · rw [hn] at hslash
      exact fun hmem => hslash (List.mem_append_left _ hmem)
    · rwa [hn]
  · rw [halmanac]
    decide +kernel

theorem isName_lentStem (table : Path) :
    Path.IsName (lentStem table ++ bytesOf "_summary.json") :=
  isName_summary (slash_notMem_lentStem table)

theorem fileName?_summaryPath (table : Path) :
    (summaryPath table).fileName? = some (lentStem table ++ bytesOf "_summary.json") :=
  Path.fileName?_join _ (isName_lentStem table)

theorem parent?_summaryPath (table : Path) :
    (summaryPath table).parent? = some (table.parent?.getD (.ofText ".")) := by
  rw [summaryPath_eq]
  cases hparent : table.parent? with
  | none =>
    have hhere : Path.ofText "." = .ofSegments false [Path.dot] := by decide +kernel
    rw [Option.getD_none, hhere]
    exact Path.Tidy.parent?_join ⟨by decide, by decide, by decide⟩ (isName_lentStem table)
  | some q =>
    obtain ⟨pieces, htidy, rfl⟩ := Path.exists_tidy_parent hparent
    exact htidy.parent?_join (isName_lentStem table)

theorem lentStem_summaryPath (table : Path) :
    lentStem (summaryPath table) = lentStem table ++ bytesOf "_summary" := by
  have hdotted : bytesOf "_summary.json" = bytesOf "_summary" ++ 0x2E :: bytesOf "json" := by
    decide +kernel
  have hname := isName_lentStem table
  rw [hdotted, ← List.append_assoc] at hname
  have hstem : (summaryPath table).stem? = some (lentStem table ++ bytesOf "_summary") := by
    rw [summaryPath_eq, hdotted, ← List.append_assoc]
    apply Path.stem?_join _ hname
    · decide +kernel
    · exact List.append_ne_nil_of_right_ne_nil _ (by decide +kernel)
  have hreadable : (textOf? (lentStem table ++ bytesOf "_summary")).isSome = true :=
    isSome_textOf?_append (isSome_textOf?_lentStem table) (by decide +kernel)
  unfold lentStem
  rw [hstem]
  exact if_pos hreadable

theorem length_lentStem_iterate (table : Path) (n : ℕ) :
    (lentStem (summaryPath^[n] table)).length = (lentStem table).length + 8 * n := by
  have hmark : (bytesOf "_summary").length = 8 := by decide +kernel
  induction n with
  | zero => rfl
  | succ n ih =>
    rw [Function.iterate_succ_apply', lentStem_summaryPath, List.length_append, ih, hmark]
    omega

theorem lentStem_eq_of_same {p q : Path} (h : p.same q = true) : lentStem p = lentStem q := by
  unfold lentStem Path.stem?
  rw [Path.fileName?_eq_of_same h]

theorem same_summaryPath_iterate (table : Path) (m n : ℕ) :
    (summaryPath^[m] table).same (summaryPath^[n] table) = decide (m = n) := by
  by_cases h : m = n
  · simp [h, Path.same]
  · rw [decide_eq_false h, ← Bool.not_eq_true]
    intro hsame
    have hlength := congrArg List.length (lentStem_eq_of_same hsame)
    rw [length_lentStem_iterate, length_lentStem_iterate] at hlength
    omega

/-- The summary stands beside the table under another name: the stem of the table, if it has a
readable one, and what marks a summary. -/
structure Beside (table summary : Path) : Prop where
  apart : summary.same table = false
  parent : summary.parent? = some (table.parent?.getD (.ofText "."))
  name_of_readable : ∀ n stem, table.fileName? = some n → Path.IsStem n stem →
    (textOf? stem).isSome = true → summary.fileName? = some (stem ++ bytesOf "_summary.json")
  name_of_unreadable : (∀ n stem, table.fileName? = some n → Path.IsStem n stem →
    textOf? stem = none) → summary.fileName? = some (bytesOf "almanac_summary.json")

/-- The summary never takes the place of its table, and no summary of a summary that of one
before. -/
theorem summary_beside_table (table : Path) : Beside table (summaryPath table) ∧
    ∀ m n, (summaryPath^[m] table).same (summaryPath^[n] table) = decide (m = n) := by
  refine ⟨⟨?_, parent?_summaryPath table, ?_, ?_⟩, same_summaryPath_iterate table⟩
  · exact same_summaryPath_iterate table 1 0
  · intro n stem hname hstem hreadable
    have hstem := Path.stem?_eq_some_iff.mpr ⟨n, hname, hstem⟩
    rw [fileName?_summaryPath]
    simp [lentStem, hstem, hreadable]
  · intro h
    rw [fileName?_summaryPath]
    rcases lentStem_cases table with ⟨hstem, hreadable⟩ | ⟨halmanac, -⟩
    · obtain ⟨n, hname, hcut⟩ := Path.stem?_eq_some_iff.mp hstem
      simp [h n _ hname hcut] at hreadable
    · rw [halmanac]
      decide +kernel

end Almanac
end GeoAlmanac
