import GeoAlmanac.Proofs.Files.Tree
import Mathlib.Data.Set.Insert

/-! What operations change in a tree of files. Writing changes the file of its path; making
directories adds them where nothing stood. Whatever the outcome, a tree stays well formed, and all
directories of it remain, so that a path found before is found at the same place afterwards. -/

namespace GeoAlmanac

/-- The paths of the directories above a path. -/
def Path.above (p : Path) : Set Path :=
  {a | Relation.TransGen (fun lower upper : Path => lower.parent? = some upper) p a}

/-- A path and those of the directories above it. -/
def Path.upward (p : Path) : Set Path :=
  {a | Relation.ReflTransGen (fun lower upper : Path => lower.parent? = some upper) p a}

theorem Path.upward_parent {p parent : Path} (h : p.parent? = some parent) :
    parent.upward ⊆ p.upward := fun _ ha => Relation.ReflTransGen.head h ha

theorem Path.upward_parent_above {p parent : Path} (h : p.parent? = some parent) :
    parent.upward ⊆ p.above := fun _ ha => Relation.TransGen.head' h ha

namespace FileTree

/-- Nothing differs between two trees but what stands at the places of `written`, and directories
at places of `made` where nothing stood. All directories remain. -/
structure Touches (t t' : FileTree) (made written : Set Path) : Prop where
  workingDirectory : t'.workingDirectory = t.workingDirectory
  directory : ∀ q, t.entry? q = some .directory → t'.entry? q = some .directory
  entry : ∀ q, t'.entry? q = t.entry? q ∨ (∃ p ∈ written, t'.locate p = .ok q) ∨
    t.entry? q = none ∧ t'.entry? q = some .directory ∧ ∃ p ∈ made, t'.locate p = .ok q

variable {t t' t'' : FileTree} {p : Path} {base q : Location} {n : Name}
  {made made' written written' : Set Path}

theorem Touches.refl (t : FileTree) : Touches t t ∅ ∅ :=
  ⟨rfl, fun _ => id, fun _ => .inl rfl⟩

theorem Touches.mono (h : Touches t t' made written) (hmade : made ⊆ made')
    (hwritten : written ⊆ written') : Touches t t' made' written' := by
  refine ⟨h.workingDirectory, h.directory, fun q => ?_⟩
  rcases h.entry q with hq | ⟨p, hp, hq⟩ | ⟨hnone, hq, p, hp, hlocate⟩
  · exact .inl hq
  · exact .inr (.inl ⟨p, hwritten hp, hq⟩)
  · exact .inr (.inr ⟨hnone, hq, p, hmade hp, hlocate⟩)

/-- A path leads to the same place afterwards. -/
theorem Touches.locate (h : Touches t t' made written) (hq : t.locate p = .ok q) :
    t'.locate p = .ok q := by
  obtain ⟨hbytes, hwalk⟩ := locate_eq_ok.mp hq
  rw [locate_eq_ok, h.workingDirectory]
  exact ⟨hbytes, walk_mono h.directory hwalk⟩

theorem Touches.trans (h : Touches t t' made written) (h' : Touches t' t'' made' written') :
    Touches t t'' (made ∪ made') (written ∪ written') := by
  refine ⟨h'.workingDirectory.trans h.workingDirectory, fun q => h'.directory q ∘ h.directory q,
    fun q => ?_⟩
  rcases h'.entry q with hq' | ⟨p', hp', hq'⟩ | ⟨hnone', hq', p', hp', hlocate'⟩
  · rcases h.entry q with hq | ⟨p, hp, hq⟩ | ⟨hnone, hq, p, hp, hlocate⟩
    · exact .inl (hq'.trans hq)
    · exact .inr (.inl ⟨p, .inl hp, h'.locate hq⟩)
    · exact .inr (.inr ⟨hnone, hq'.trans hq, p, .inl hp, h'.locate hlocate⟩)
  · exact .inr (.inl ⟨p', .inr hp', hq'⟩)
  · rcases h.entry q with hq | ⟨p, hp, hq⟩ | ⟨-, hq, -⟩
    · exact .inr (.inr ⟨hq ▸ hnone', hq', p', .inr hp', hlocate'⟩)
    · exact .inr (.inl ⟨p, .inl hp, h'.locate hq⟩)
    · exact absurd (hnone'.symm.trans hq) (by simp)

theorem WellFormed.isName_of_mem (ht : t.WellFormed) (h : t.entry? q = some .directory)
    (hn : n ∈ q) : Path.IsName n := by
  have hne : t.entry? q ≠ none := by simp [h]
  obtain ⟨x, hx, rfl⟩ := (entry?_ne_none_iff (List.ne_nil_of_mem hn)).mp hne
  exact ht.isName x hx n hn

/-- An entry can be put at a name in a directory, unless a directory is there. -/
theorem WellFormed.insert (ht : t.WellFormed) (hbase : t.entry? base = some .directory)
    (hn : Path.IsName n) (hplace : t.entry? (base ++ [n]) ≠ some .directory) (e : Entry) :
    (t.insert (base ++ [n]) e).WellFormed := by
  have hne : base ++ [n] ≠ [] := by simp
  have hkeep {q : Location} (hq : t.entry? q = some .directory) :
      entry? (t.insert (base ++ [n]) e) q = some .directory := by
    rw [entry?_insert hne, if_neg (by rintro rfl; exact hplace hq), hq]
  have hmem {x : Location × Entry} (hx : x ∈ (t.insert (base ++ [n]) e).entries) :
      x = (base ++ [n], e) ∨ x ∈ t.entries :=
    (List.mem_cons.mp hx).imp_right List.mem_of_mem_filter
  constructor
  · have hsub := (List.filter_sublist (p := fun x => decide (x.1 ≠ base ++ [n]))
      (l := t.entries)).map Prod.fst
    refine List.nodup_cons.mpr ⟨?_, ht.nodup.sublist hsub⟩
    intro h
    obtain ⟨x, hx, hplace⟩ := List.mem_map.mp h
    have := (List.mem_filter.mp hx).2
    simp_all
  · intro x hx m hm
    rcases hmem hx with rfl | hx
    · rcases List.mem_append.mp hm with hm | hm
      · exact ht.isName_of_mem hbase hm
      · rwa [List.mem_singleton.mp hm]
    · exact ht.isName x hx m hm
  · intro x hx
    rcases hmem hx with rfl | hx
    · rw [List.dropLast_concat]
      exact hkeep hbase
    · exact hkeep (ht.parent x hx)
  · exact hkeep ht.home

section
variable (hlocate : t.locate p = .ok q) (hplace : t.entry? q ≠ some .directory)
include hlocate hplace

theorem WellFormed.insert_of_locate (ht : t.WellFormed) (e : Entry) :
    (t.insert q e).WellFormed := by
  obtain ⟨base, n, hbase, hlast, rfl⟩ := (locate_cases ht hlocate).resolve_left hplace
  exact ht.insert hbase (Path.isName_of_mem_steps (List.mem_of_getLast? hlast)) hplace e

theorem touches_insert_of_locate {e : Entry}
    (h : p ∈ written ∨ t.entry? q = none ∧ e = .directory ∧ p ∈ made) :
    Touches t (t.insert q e) made written := by
  have hne := ne_root_of_entry? hplace
  have hkeep : ∀ r, t.entry? r = some .directory → entry? (t.insert q e) r = some .directory := by
    intro r hr
    rw [entry?_insert hne, if_neg (by rintro rfl; exact hplace hr), hr]
  have hafter : (t.insert q e).locate p = .ok q := by
    obtain ⟨hbytes, hwalk⟩ := locate_eq_ok.mp hlocate
    exact locate_eq_ok.mpr ⟨hbytes, walk_mono hkeep hwalk⟩
  refine ⟨rfl, hkeep, fun r => ?_⟩
  rw [entry?_insert hne]
  by_cases hr : r = q
  · subst hr
    rw [if_pos rfl]
    rcases h with hwritten | ⟨hnone, rfl, hmade⟩
    · exact .inr (.inl ⟨p, hwritten, hafter⟩)
    · exact .inr (.inr ⟨hnone, rfl, p, hmade, hafter⟩)
  · exact .inl (if_neg hr)

end

theorem makeDirectory_touches (ht : t.WellFormed) (h : t.makeDirectory p = .ok t') :
    t'.WellFormed ∧ Touches t t' {p} ∅ := by
  unfold makeDirectory at h
  cases hlocate : t.locate p with
  | error e => simp [hlocate] at h
  | ok q =>
    cases hnone : t.entry? q with
    | some e => simp [hlocate, hnone] at h
    | none =>
      obtain rfl : t.insert q .directory = t' := by simpa [hlocate, hnone] using h
      have hplace : t.entry? q ≠ some .directory := by simp [hnone]
      exact ⟨ht.insert_of_locate hlocate hplace _,
        touches_insert_of_locate hlocate hplace (.inr ⟨hnone, rfl, rfl⟩)⟩

theorem write_touches (ht : t.WellFormed) {content : ByteArray}
    (h : t.write p content = .ok t') :
    t'.WellFormed ∧ Touches t t' ∅ {p} ∧ p.endsWithSlash = false ∧ ∃ base n,
      p.steps.getLast? = some (.name n) ∧ t'.locate p = .ok (base ++ [n]) ∧
      t'.entry? (base ++ [n]) = some (.file content) := by
  unfold write at h
  cases hlocate : t.locate p with
  | error e => simp [hlocate] at h
  | ok q =>
    cases hslash : p.endsWithSlash with
    | true => simp [hlocate, hslash] at h
    | false =>
      simp only [hlocate, hslash, Bool.false_eq_true, if_false] at h
      have hplace : t.entry? q ≠ some .directory := by
        intro hq
        simp [hq] at h
      obtain rfl : t.insert q (.file content) = t' := by
        split at h
        next hq => exact absurd hq hplace
        next => cases h
        next => exact Except.ok.inj h
      have htouches : Touches t (t.insert q (.file content)) ∅ {p} :=
        touches_insert_of_locate hlocate hplace (.inl rfl)
      obtain ⟨base, n, -, hlast, rfl⟩ := (locate_cases ht hlocate).resolve_left hplace
      refine ⟨ht.insert_of_locate hlocate hplace _, htouches, rfl, base, n, hlast,
        htouches.locate hlocate, ?_⟩
      rw [entry?_insert (by simp), if_pos rfl]

theorem ensured_touches (ht : t.WellFormed) (p : Path) :
    (t.ensured p (t.makeDirectory p)).1.WellFormed ∧
      Touches t (t.ensured p (t.makeDirectory p)).1 {p} ∅ := by
  unfold ensured
  cases hmake : t.makeDirectory p with
  | ok made => exact makeDirectory_touches ht hmake
  | error e =>
    have hsame : Touches t t {p} ∅ := (Touches.refl t).mono (Set.empty_subset _) subset_rfl
    dsimp only
    split_ifs <;> exact ⟨ht, hsame⟩

theorem makeDirectoriesWithin_touches (ht : t.WellFormed) (p : Path) (levels : ℕ) :
    (t.makeDirectoriesWithin p levels).1.WellFormed ∧
      Touches t (t.makeDirectoriesWithin p levels).1 p.upward ∅ := by
  have hself (p : Path) : {p} ⊆ p.upward := Set.singleton_subset_iff.mpr .refl
  induction levels generalizing p with
  | zero => exact ⟨ht, (Touches.refl t).mono (Set.empty_subset _) subset_rfl⟩
  | succ levels ih =>
    have hsame : t.WellFormed ∧ Touches t t p.upward ∅ :=
      ⟨ht, (Touches.refl t).mono (Set.empty_subset _) subset_rfl⟩
    unfold makeDirectoriesWithin
    split_ifs with hempty
    · exact hsame
    split
    next =>
      cases hparent : p.parent? with
      | none => exact hsame
      | some parent =>
        obtain ⟨habove, htouches⟩ := ih parent
        have htouches := htouches.mono (Path.upward_parent hparent) subset_rfl
        dsimp only
        generalize t.makeDirectoriesWithin parent levels = outcome at *
        obtain ⟨above, failure⟩ := outcome
        cases failure with
        | some e => exact ⟨habove, htouches⟩
        | none =>
          obtain ⟨hmade, hlast⟩ := ensured_touches habove p
          refine ⟨hmade, (htouches.trans hlast).mono ?_ (Set.union_self ∅).subset⟩
          exact Set.union_subset subset_rfl (hself p)
    next =>
      obtain ⟨hmade, htouches⟩ := ensured_touches ht p
      exact ⟨hmade, htouches.mono (hself p) subset_rfl⟩

theorem place_eq (ht : t.WellFormed) (p : Path) (content : ByteArray) :
    ∃ (above : FileTree) (failure : Option IoError),
      above.WellFormed ∧ Touches t above p.above ∅ ∧
      t.place p content = match failure with
        | some e => (above, some e)
        | none => match above.write p content with
          | .ok written => (written, none)
          | .error e => (above, some e) := by
  unfold place
  cases hparent : p.parent? with
  | none => exact ⟨t, none, ht, (Touches.refl t).mono (Set.empty_subset _) subset_rfl, rfl⟩
  | some parent =>
    obtain ⟨hmade, htouches⟩ := makeDirectoriesWithin_touches ht parent (parent.segments.length + 2)
    exact ⟨(t.makeDirectories parent).1, (t.makeDirectories parent).2, hmade,
      htouches.mono (Path.upward_parent_above hparent) subset_rfl, rfl⟩

/-- A file is written after making the directories above it. Where that fails only directories are
made; otherwise the path leads to the file, under the name that the path ends in. -/
theorem place_touches (ht : t.WellFormed) (p : Path) (content : ByteArray) :
    (t.place p content).1.WellFormed ∧ match t.place p content with
      | (t', some _) => Touches t t' p.above ∅
      | (t', none) => Touches t t' p.above {p} ∧ p.endsWithSlash = false ∧ ∃ base n,
          p.fileName? = some n ∧ t'.locate p = .ok (base ++ [n]) ∧
          t'.entry? (base ++ [n]) = some (.file content) := by
  obtain ⟨above, failure, habove, htouches, hplace⟩ := place_eq ht p content
  rw [hplace]
  cases failure with
  | some e => exact ⟨habove, htouches⟩
  | none =>
    cases hwrite : above.write p content with
    | error e => exact ⟨habove, htouches⟩
    | ok written =>
      obtain ⟨hwritten, hlast, hend, base, n, hstep, hlocate, hentry⟩ := write_touches habove hwrite
      have hname := Path.fileName?_of_steps (locate_eq_ok.mp hlocate).1.2.1 hend hstep
      refine ⟨hwritten, (htouches.trans hlast).mono ?_ ?_, hend, base, n, hname, hlocate, hentry⟩
      · rw [Set.union_empty]
      · rw [Set.empty_union]

end FileTree
end GeoAlmanac
