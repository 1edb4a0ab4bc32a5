import GeoAlmanac.Files.Tree
import GeoAlmanac.Proofs.Files.Paths
import Mathlib.Data.List.Nodup
import Mathlib.Data.Set.Basic

/-! What operations leave of a tree of files. A file is written at the place of its path, and
directories are made where nothing stood; everything else stays, so that a path found before is
found at the same place afterwards. -/

namespace GeoAlmanac.FileTree

/-- A tree as it grows from its root: places are entered once, the ways to them are names, and
what stands anywhere stands in a directory. The working directory is a directory. -/
structure WellFormed (t : FileTree) : Prop where
  nodup : (t.entries.map Prod.fst).Nodup
  isName : ∀ x ∈ t.entries, ∀ n ∈ x.1, Path.IsName n
  parent : ∀ x ∈ t.entries, t.entry? x.1.dropLast = some .directory
  home : t.entry? t.workingDirectory = some .directory

variable {t t' t'' : FileTree} {p : Path} {place base q : Location} {n : Name}

@[simp] theorem entry?_root (t : FileTree) : t.entry? [] = some .directory := rfl

theorem entry?_of_ne (hplace : place ≠ []) : t.entry? place = t.entries.lookup place :=
  if_neg hplace

theorem ne_root_of_entry? (h : t.entry? place ≠ some .directory) : place ≠ [] := by
  rintro rfl
  exact h rfl

theorem entry?_ne_none_iff (hplace : place ≠ []) :
    t.entry? place ≠ none ↔ ∃ x ∈ t.entries, x.1 = place := by
  rw [entry?_of_ne hplace, Option.ne_none_iff_isSome, List.lookup_isSome_iff]
  simp only [beq_iff_eq, eq_comm (a := place)]

theorem lookup_filter_ne {e : List (Location × Entry)} (h : q ≠ place) :
    (e.filter fun x => x.1 ≠ place).lookup q = e.lookup q := by
  induction e with
  | nil => rfl
  | cons x e ih =>
    by_cases hx : x.1 = place
    · rw [List.filter_cons_of_neg (by simp [hx]), ih, List.lookup_cons, hx, beq_false_of_ne h]
    · rw [List.filter_cons_of_pos (by simp [hx]), List.lookup_cons, List.lookup_cons, ih]

theorem entry?_insert (hplace : place ≠ []) (e : Entry) :
    entry? (t.insert place e) q = if q = place then some e else t.entry? q := by
  by_cases hroot : q = []
  · rw [hroot, if_neg hplace.symm]
    rfl
  rw [entry?_of_ne hroot, entry?_of_ne hroot]
  split_ifs with h
  · rw [h, insert, List.lookup_cons_self]
  · rw [insert, List.lookup_cons, beq_false_of_ne h]
    exact lookup_filter_ne h

theorem exists_filterMap_eq_names (t : FileTree) (place : Location) :
    ∃ f : Location × Entry → Option Name, t.names place = t.entries.filterMap f ∧
      ∀ x n, f x = some n ↔ x.1 = place ++ [n] := by
  refine ⟨_, rfl, fun x n => ⟨fun h => ?_, fun h => by simp [h]⟩⟩
  split at h
  next m hlast =>
    split_ifs at h with heq
    rwa [← Option.some.inj h]
  next => exact absurd h (by simp)

theorem mem_names : n ∈ t.names place ↔ t.entry? (place ++ [n]) ≠ none := by
  obtain ⟨f, hnames, hf⟩ := exists_filterMap_eq_names t place
  simp only [entry?_ne_none_iff (by simp : place ++ [n] ≠ []), hnames, List.mem_filterMap, hf]

theorem WellFormed.nodup_names (ht : t.WellFormed) (place : Location) : (t.names place).Nodup := by
  obtain ⟨f, hnames, hf⟩ := exists_filterMap_eq_names t place
  rw [hnames]
  refine List.Pairwise.filterMap f ?_ (List.pairwise_map.mp ht.nodup)
  rintro x y hne m hm _ hn rfl
  exact hne (((hf x m).mp hm).trans ((hf y m).mp hn).symm)

section
variable {steps rest : List Component} {step last : Component}

theorem walk_cons_of_directory (hrest : rest ≠ []) (hshort : isTooLong step = false)
    (hstep : t.entry? (move place step) = some .directory) :
    t.walk place (step :: rest) = t.walk (move place step) rest := by
  rw [walk.eq_3 _ _ _ _ hrest, hshort, hstep]
  rfl

theorem walk_cons_eq_ok (hrest : rest ≠ []) : t.walk place (step :: rest) = .ok q ↔
    isTooLong step = false ∧ t.entry? (move place step) = some .directory ∧
      t.walk (move place step) rest = .ok q := by
  constructor
  · intro h
    rw [walk.eq_3 _ _ _ _ hrest] at h
    split_ifs at h with hlong
    split at h
    next hstep => exact ⟨by simpa using hlong, hstep, h⟩
    next => cases h
    next => cases h
  · rintro ⟨hshort, hstep, h⟩
    rw [walk_cons_of_directory hrest hshort hstep, h]

theorem walk_singleton (t : FileTree) (place : Location) (last : Component) :
    t.walk place [last] =
      if isTooLong last then .error .nameTooLong else .ok (move place last) := by
  rw [walk]

theorem exists_base_of_walk (hplace : t.entry? place = some .directory)
    (h : t.walk place (steps ++ [last]) = .ok q) :
    ∃ base, t.entry? base = some .directory ∧ q = move base last := by
  induction steps generalizing place with
  | nil =>
    rw [List.nil_append, walk_singleton] at h
    split_ifs at h
    exact ⟨place, hplace, (Except.ok.inj h).symm⟩
  | cons step steps ih =>
    obtain ⟨-, hstep, hrest⟩ := (walk_cons_eq_ok (by simp)).mp h
    exact ih hstep hrest

theorem walk_append (h : t.walk place steps = .ok base) (hbase : t.entry? base = some .directory)
    (rest : List Component) : t.walk place (steps ++ rest) = t.walk base rest := by
  by_cases hrest : rest = []
  · rw [hrest, List.append_nil, h, walk]
  induction steps generalizing place with
  | nil =>
    rw [Except.ok.inj h]
    rfl
  | cons step steps ih =>
    have hmore : steps ++ rest ≠ [] := List.append_ne_nil_of_right_ne_nil steps hrest
    cases steps with
    | nil =>
      rw [walk_singleton] at h
      split_ifs at h with hlong
      obtain rfl := Except.ok.inj h
      exact walk_cons_of_directory hmore (by simpa using hlong) hbase
    | cons next others =>
      obtain ⟨hshort, hstep, hway⟩ := (walk_cons_eq_ok (by simp)).mp h
      rw [List.cons_append, walk_cons_of_directory hmore hshort hstep]
      exact ih hway

theorem walk_mono (hdirectory : ∀ q, t.entry? q = some .directory → t'.entry? q = some .directory)
    (h : t.walk place steps = .ok q) : t'.walk place steps = .ok q := by
  induction steps generalizing place with
  | nil => exact h
  | cons step rest ih =>
    cases rest with
    | nil => rwa [walk_singleton] at h ⊢
    | cons next others =>
      obtain ⟨hshort, hstep, hrest⟩ := (walk_cons_eq_ok (by simp)).mp h
      exact (walk_cons_eq_ok (by simp)).mpr ⟨hshort, hdirectory _ hstep, ih hrest⟩

end

theorem locate_eq_ok : t.locate p = .ok q ↔
    (0 ∉ p.bytes ∧ p.bytes ≠ [] ∧ p.bytes.length < 4096) ∧
      t.walk t.workingDirectory p.steps = .ok q := by
  unfold locate
  split_ifs with hzero hempty hlong
  · simp [show 0 ∈ p.bytes by simpa using hzero]
  · simp [show p.bytes = [] by simpa using hempty]
  · simp [hlong]
  · simp_all

theorem WellFormed.directory_dropLast (ht : t.WellFormed) (h : t.entry? place = some .directory) :
    t.entry? place.dropLast = some .directory := by
  by_cases hroot : place = []
  · rw [hroot, List.dropLast_nil, entry?_root]
  · have hne : t.entry? place ≠ none := by simp [h]
    obtain ⟨x, hx, rfl⟩ := (entry?_ne_none_iff hroot).mp hne
    exact ht.parent x hx

theorem locate_cases (ht : t.WellFormed) (h : t.locate p = .ok q) :
    t.entry? q = some .directory ∨ ∃ base n, t.entry? base = some .directory ∧
      p.steps.getLast? = some (.name n) ∧ q = base ++ [n] := by
  obtain ⟨-, hwalk⟩ := locate_eq_ok.mp h
  rcases List.eq_nil_or_concat' p.steps with hsteps | ⟨front, last, hsteps⟩
  · rw [hsteps] at hwalk
    rw [← Except.ok.inj hwalk]
    exact .inl ht.home
  rw [hsteps] at hwalk ⊢
  obtain ⟨base, hbase, rfl⟩ := exists_base_of_walk ht.home hwalk
  cases last with
  | root => exact .inl rfl
  | here => exact .inl hbase
  | up => exact .inl (ht.directory_dropLast hbase)
  | name n => exact .inr ⟨base, n, hbase, List.getLast?_concat, rfl⟩

theorem locate_join (h : t.locate p = .ok place) (hplace : t.entry? place = some .directory)
    (hn : Path.IsName n) : t.locate (p.join n) =
      if (p.join n).bytes.contains 0 then .error .zeroByte
      else if 4096 ≤ (p.join n).bytes.length then .error .nameTooLong
      else if 255 < n.length then .error .nameTooLong
      else .ok (place ++ [n]) := by
  obtain ⟨-, hwalk⟩ := locate_eq_ok.mp h
  have hne := Path.join_ne_nil p hn
  rw [locate, Path.steps_join p hn, walk_append hwalk hplace, walk_singleton]
  simp [hne, isTooLong, move]

end GeoAlmanac.FileTree
