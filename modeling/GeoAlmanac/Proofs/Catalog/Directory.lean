import GeoAlmanac.Catalog.Load
import GeoAlmanac.Proofs.Files.Tree
import Mathlib.Data.List.Forall2
import Mathlib.Data.List.Sort

/-! Catalogs in directories. A directory is loaded as its TOML files are, each by its own path, in
the order of their names: all of their records, or the error of the first that is in error. Nothing
else in the directory matters, nor the order in which it is listed. -/

namespace GeoAlmanac.Catalog
open FileTree

section
variable {α β ε : Type} {f : α → Except ε β} {xs : List α}

theorem mapM_cons_eq_ok {x : α} {zs : List β} : (x :: xs).mapM f = .ok zs ↔
    ∃ y ys, f x = .ok y ∧ xs.mapM f = .ok ys ∧ y :: ys = zs := by
  rw [List.mapM_cons]
  cases f x with
  | error e => simp [bind, Except.bind]
  | ok y => cases xs.mapM f <;> simp [bind, Except.bind, pure, Except.pure]

theorem mapM_cons_eq_error {x : α} {e : ε} : (x :: xs).mapM f = .error e ↔
    f x = .error e ∨ (∃ y, f x = .ok y) ∧ xs.mapM f = .error e := by
  rw [List.mapM_cons]
  cases f x with
  | error e' => simp [bind, Except.bind]
  | ok y => cases xs.mapM f <;> simp [bind, Except.bind, pure, Except.pure]

theorem mapM_eq_ok {ys : List β} :
    xs.mapM f = .ok ys ↔ List.Forall₂ (fun x y => f x = .ok y) xs ys := by
  induction xs generalizing ys with
  | nil => simp [pure, Except.pure, eq_comm]
  | cons x xs ih =>
    rw [mapM_cons_eq_ok, List.forall₂_cons_left_iff]
    simp only [ih, eq_comm]

theorem mapM_congr_of_mem {g : α → Except ε β} (h : ∀ x ∈ xs, f x = g x) :
    xs.mapM f = xs.mapM g := by
  induction xs with
  | nil => rfl
  | cons x xs ih =>
    obtain ⟨hx, hxs⟩ := List.forall_mem_cons.mp h
    rw [List.mapM_cons, List.mapM_cons, hx, ih hxs]

theorem forall₂_congr_of_mem {R S : α → β → Prop} {ys : List β}
    (h : ∀ x ∈ xs, ∀ y, R x y ↔ S x y) : List.Forall₂ R xs ys ↔ List.Forall₂ S xs ys := by
  induction xs generalizing ys with
  | nil => simp
  | cons x xs ih =>
    obtain ⟨hx, hxs⟩ := List.forall_mem_cons.mp h
    simp only [List.forall₂_cons_left_iff, hx, ih hxs]

theorem map_singleton_eq_ok {r : Except ε β} {y : β} : r.map ([·]) = .ok [y] ↔ r = .ok y := by
  cases r <;> simp [Except.map]

theorem map_eq_error {g : β → α} {r : Except ε β} {e : ε} :
    r.map g = .error e ↔ r = .error e := by
  cases r <;> simp [Except.map]

theorem mapM_eq_error {e : ε} :
    xs.mapM f = .error e ↔ ∃ before x after, xs = before ++ x :: after ∧
      (∀ y ∈ before, ∃ r, f y = .ok r) ∧ f x = .error e := by
  induction xs with
  | nil => simp [pure, Except.pure]
  | cons x xs ih =>
    rw [mapM_cons_eq_error, ih]
    constructor
    · rintro (hx | ⟨hx, before, z, after, rfl, hbefore, hz⟩)
      · exact ⟨[], x, xs, rfl, by simp, hx⟩
      · exact ⟨x :: before, z, after, rfl, List.forall_mem_cons.mpr ⟨hx, hbefore⟩, hz⟩
    · rintro ⟨before, z, after, hsplit, hbefore, hz⟩
      cases before with
      | nil =>
        obtain ⟨rfl, rfl⟩ := List.cons.inj hsplit
        exact .inl hz
      | cons y before =>
        obtain ⟨rfl, rfl⟩ := List.cons.inj hsplit
        obtain ⟨hx, hbefore⟩ := List.forall_mem_cons.mp hbefore
        exact .inr ⟨hx, before, z, after, rfl, hbefore, hz⟩

end

/-- A name that ends in `.toml` after something else. -/
def IsTomlName (n : Name) : Prop :=
  ∃ stem, stem ≠ [] ∧ n = stem ++ bytesOf ".toml"

theorem isToml_join (p : Path) {n : Name} (hn : Path.IsName n) :
    isToml (p.join n) = true ↔ IsTomlName n := by
  have hdotted : bytesOf ".toml" = 0x2E :: bytesOf "toml" := by decide +kernel
  have hfree : 0x2E ∉ bytesOf "toml" := by decide +kernel
  rw [isToml, Path.extension?, Path.fileName?_join p hn, Option.bind_some, beq_iff_eq,
    Option.map_eq_some_iff, IsTomlName, hdotted]
  constructor
  · rintro ⟨⟨stem, extension⟩, hparts, rfl⟩
    obtain ⟨hsplit, -, hstem⟩ := Path.splitAtDot?_eq_some.mp hparts
    exact ⟨stem, hstem, hsplit⟩
  · rintro ⟨stem, hstem, hsplit⟩
    exact ⟨(stem, bytesOf "toml"), Path.splitAtDot?_eq_some.mpr ⟨hsplit, hfree, hstem⟩, rfl⟩

variable {t t' : FileTree} {p : Path} {place place' : Location}

theorem isName_of_mem_names (ht : t.WellFormed) {n : Name} (h : n ∈ t.names place) :
    Path.IsName n := by
  obtain ⟨x, hx, hplace⟩ := (entry?_ne_none_iff (by simp)).mp (mem_names.mp h)
  exact ht.isName x hx n (by simp [hplace])

/-- The TOML names of a directory in ascending order. -/
structure Lists (t : FileTree) (place : Location) (ns : List Name) : Prop where
  sorted : ns.Pairwise (· < ·)
  mem_iff : ∀ n, n ∈ ns ↔ IsTomlName n ∧ t.entry? (place ++ [n]) ≠ none

theorem Lists.nodup {ns : List Name} (h : Lists t place ns) : ns.Nodup := by
  refine h.sorted.imp ?_
  rintro a _ hlt rfl
  exact List.lt_irrefl a hlt

/-- The names are determined by what there is, not by how it is listed. -/
theorem Lists.unique {ns ns' : List Name} (h : Lists t place ns) (h' : Lists t' place' ns')
    (hsame : ∀ n, IsTomlName n → t'.entry? (place' ++ [n]) = t.entry? (place ++ [n])) :
    ns' = ns := by
  have hmem : ∀ n, n ∈ ns' ↔ n ∈ ns := by
    intro n
    rw [h.mem_iff, h'.mem_iff]
    exact and_congr_right fun hn => by rw [hsame n hn]
  have hperm : ns'.Perm ns := (List.perm_ext_iff_of_nodup h'.nodup h.nodup).mpr hmem
  exact hperm.eq_of_pairwise (fun a b _ _ hab hba => absurd hba (List.lt_asymm hab))
    h'.sorted h.sorted

theorem Lists.of_names (ht : t.WellFormed) {ns : List Name} (hsorted : ns.Pairwise (· < ·))
    (hmem : ∀ n, n ∈ ns ↔ n ∈ t.names place ∧ isToml (p.join n) = true) : Lists t place ns := by
  refine ⟨hsorted, fun n => ?_⟩
  rw [hmem, and_comm, ← mem_names]
  exact and_congr_left fun hn => isToml_join p (isName_of_mem_names ht hn)

theorem list_of_locate (hp : t.locate p = .ok place) (hplace : t.entry? place = some .directory) :
    t.list p = .ok ((t.names place).map p.join) := by
  simp [list, hp, hplace]

theorem exists_lists (ht : t.WellFormed) (hp : t.locate p = .ok place)
    (hplace : t.entry? place = some .directory) :
    ∃ ns, Lists t place ns ∧ tomlFiles t p = .ok (ns.map p.join) := by
  let kept := (t.names place).filter fun n => isToml (p.join n)
  let ns := kept.mergeSort fun m n => decide (m ≤ n)
  have hname : ∀ n ∈ t.names place, Path.IsName n := fun n => isName_of_mem_names ht
  have hperm : ns.Perm kept := List.mergeSort_perm _ _
  have hle : ns.Pairwise (· ≤ ·) := by
    have htrans : ∀ a b c : Name, decide (a ≤ b) = true → decide (b ≤ c) = true →
        decide (a ≤ c) = true := by
      intro a b c hab hbc
      exact decide_eq_true (List.le_trans (of_decide_eq_true hab) (of_decide_eq_true hbc))
    have htotal : ∀ a b : Name, (decide (a ≤ b) || decide (b ≤ a)) = true := by
      intro a b
      simpa using List.le_total a b
    exact (List.pairwise_mergeSort htrans htotal _).imp of_decide_eq_true
  have hsorted : ns.Pairwise (· < ·) := by
    have hnodup : ns.Nodup := hperm.nodup_iff.mpr ((ht.nodup_names place).filter _)
    refine (hle.and hnodup).imp ?_
    rintro a b ⟨hle, hne⟩
    by_contra hlt
    exact hne (List.le_antisymm hle (List.not_lt.mp hlt))
  have hpaths : (((t.names place).map p.join).filter isToml).mergeSort Path.sortsBefore =
      ns.map p.join := by
    have hfilter : ((t.names place).map p.join).filter isToml = kept.map p.join := List.filter_map
    rw [hfilter]
    refine (List.map_mergeSort fun m hm n hn => ?_).symm
    exact (Path.sortsBefore_join p (hname m (List.mem_of_mem_filter hm))
      (hname n (List.mem_of_mem_filter hn))).symm
  refine ⟨ns, .of_names ht hsorted fun n => hperm.mem_iff.trans List.mem_filter, ?_⟩
  rw [tomlFiles, list_of_locate hp hplace, ← hpaths]
  rfl

section
variable {β τ υ : Type} (readers : Readers β τ υ) {n : Name}

theorem isDirectory_of_locate (hp : t.locate p = .ok place)
    (hplace : t.entry? place = some .directory) : t.isDirectory p = true := by
  simp [isDirectory, hp, hplace]

theorem exists_lists_load (ht : t.WellFormed) (hp : t.locate p = .ok place)
    (hplace : t.entry? place = some .directory) : ∃ ns, Lists t place ns ∧
      load readers t p = ns.mapM fun n => loadToml readers t (p.join n) := by
  obtain ⟨ns, hns, hpaths⟩ := exists_lists ht hp hplace
  refine ⟨ns, hns, ?_⟩
  rw [load, if_pos (isDirectory_of_locate hp hplace), hpaths]
  exact List.mapM_map

theorem load_join (hp : t.locate p = .ok place) (hplace : t.entry? place = some .directory)
    (hn : Path.IsName n) (htoml : IsTomlName n)
    (hfile : t.entry? (place ++ [n]) ≠ some .directory) :
    load readers t (p.join n) = (loadToml readers t (p.join n)).map ([·]) := by
  have hdirectory : t.isDirectory (p.join n) = false := by
    rw [isDirectory, locate_join hp hplace hn]
    split_ifs with hzero hlong hname
    · rfl
    · rfl
    · rfl
    · dsimp only
      split
      next hentry => exact absurd hentry hfile
      next => rfl
  rw [load, if_neg (by simp [hdirectory]), if_pos ((isToml_join p hn).mpr htoml)]

theorem loadToml_join_congr (hp : t.locate p = .ok place)
    (hplace : t.entry? place = some .directory) (hp' : t'.locate p = .ok place')
    (hplace' : t'.entry? place' = some .directory) (hn : Path.IsName n)
    (hsame : t'.entry? (place' ++ [n]) = t.entry? (place ++ [n])) :
    loadToml readers t' (p.join n) = loadToml readers t (p.join n) := by
  have hread : t'.read (p.join n) = t.read (p.join n) := by
    rw [FileTree.read, FileTree.read, locate_join hp hplace hn, locate_join hp' hplace' hn]
    by_cases hzero : (p.join n).bytes.contains 0 = true
    · simp only [if_pos hzero]
    by_cases hlong : 4096 ≤ (p.join n).bytes.length
    · simp only [if_neg hzero, if_pos hlong]
    by_cases hname : 255 < n.length
    · simp only [if_neg hzero, if_neg hlong, if_pos hname]
    · simp only [if_neg hzero, if_neg hlong, if_neg hname, hsame]
  rw [loadToml, loadToml, readText, readText, hread]

/-- A directory loads as its files do one by one: as the records of all of them, or as the error
of the first that has none. -/
structure LoadsEach (t : FileTree) (p : Path) (ns : List Name) : Prop where
  ok_iff : ∀ rs, load readers t p = .ok rs ↔
    List.Forall₂ (fun n r => load readers t (p.join n) = .ok [r]) ns rs
  error_iff : ∀ e, load readers t p = .error e ↔ ∃ before n after, ns = before ++ n :: after ∧
    (∀ m ∈ before, ∃ r, load readers t (p.join m) = .ok [r]) ∧
    load readers t (p.join n) = .error e

/-- A directory whose TOML entries are files loads as these do by their own paths, in ascending
order of their names. It loads the same wherever its path leads to a directory with the same TOML
entries, in whatever order they are listed and whatever else there is. -/
theorem load_directory (ht : t.WellFormed) (hp : t.locate p = .ok place)
    (hplace : t.entry? place = some .directory)
    (hfiles : ∀ n, IsTomlName n → t.entry? (place ++ [n]) ≠ some .directory) :
    (∃ ns, Lists t place ns ∧ LoadsEach readers t p ns) ∧
      ∀ t' place', t'.WellFormed → t'.locate p = .ok place' →
        t'.entry? place' = some .directory →
        (∀ n, IsTomlName n → t'.entry? (place' ++ [n]) = t.entry? (place ++ [n])) →
        load readers t' p = load readers t p := by
  obtain ⟨ns, hns, hload⟩ := exists_lists_load readers ht hp hplace
  have hname : ∀ n ∈ ns, Path.IsName n := by
    intro n hn
    exact isName_of_mem_names ht (mem_names.mpr ((hns.mem_iff n).mp hn).2)
  have heach : ∀ n ∈ ns, load readers t (p.join n) =
      (loadToml readers t (p.join n)).map ([·]) := by
    intro n hn
    have hn' := ((hns.mem_iff n).mp hn).1
    exact load_join readers hp hplace (hname n hn) hn' (hfiles n hn')
  refine ⟨⟨ns, hns, fun rs => ?_, fun e => ?_⟩, fun t' place' ht' hp' hplace' hsame => ?_⟩
  · rw [hload, mapM_eq_ok]
    refine forall₂_congr_of_mem fun n hn r => ?_
    rw [heach n hn, map_singleton_eq_ok]
  · rw [hload, mapM_eq_error]
    refine exists_congr fun before => exists_congr fun n => exists_congr fun after => ?_
    refine and_congr_right fun hsplit => and_congr ?_ ?_
    · refine forall₂_congr fun m hm => exists_congr fun r => ?_
      rw [heach m (by simp [hsplit, hm]), map_singleton_eq_ok]
    · rw [heach n (by simp [hsplit]), map_eq_error]
  · obtain ⟨ns', hns', hload'⟩ := exists_lists_load readers ht' hp' hplace'
    obtain rfl := hns.unique hns' hsame
    rw [hload, hload']
    refine mapM_congr_of_mem fun n hn => ?_
    have hn' := ((hns.mem_iff n).mp hn).1
    exact loadToml_join_congr readers hp hplace hp' hplace' (hname n hn) (hsame n hn')

end

/-- A directory `a` of two planets and a note, and a directory `b` in which a planet has no name and
the file after it cannot be opened. Both are listed against the order of their names. -/
def planets : FileTree where
  entries :=
    [([[0x61]], .directory),
      ([[0x61], bytesOf "b_mars.toml"],
        .file "name = \"MARS\"\nradius_km = 3389.5\nradius_mi = 2106.1\n".toUTF8),
      ([[0x61], bytesOf "a_earth.toml"],
        .file "name = \"EARTH\"\nradius_km = 6371.0\n".toUTF8),
      ([[0x61], bytesOf "notes.txt"], .file "ignored".toUTF8),
      ([[0x62]], .directory),
      ([[0x62], bytesOf "c.toml"], .closed (.system "Permission denied (os error 13)")),
      ([[0x62], bytesOf "b.toml"], .file "radius_km = 6051.8".toUTF8),
      ([[0x62], bytesOf "a.toml"], .file "name = \"EARTH\"\nradius_km = 6371.0\n".toUTF8),
      ([[0x62], bytesOf ".toml"], .directory)]
  workingDirectory := []

theorem planets_wellFormed : planets.WellFormed where
  nodup := by decide +kernel
  isName := by decide +kernel
  parent := by
    intro x hx
    simp only [planets, List.mem_cons, List.not_mem_nil, or_false] at hx
    rcases hx with rfl | rfl | rfl | rfl | rfl | rfl | rfl | rfl | rfl <;> rfl
  home := rfl

theorem planets_files {directory n : Name} (hn : IsTomlName n) :
    planets.entry? [directory, n] ≠ some .directory := by
  obtain ⟨stem, hstem, rfl⟩ := hn
  intro h
  rw [entry?_of_ne (by simp), List.lookup_eq_some_iff] at h
  obtain ⟨before, after, hentries, -⟩ := h
  have hmem : ([directory, stem ++ bytesOf ".toml"], Entry.directory) ∈ planets.entries := by
    simp [hentries]
  simp [planets, hstem] at hmem

theorem planets_lists {directory : Name} {ns : List Name} (hsorted : ns.Pairwise (· < ·))
    (hperm : ((planets.names [directory]).filter fun n => isToml ((Path.mk directory).join n)).Perm
      ns) : Lists planets [directory] ns :=
  .of_names planets_wellFormed hsorted fun _ => hperm.mem_iff.symm.trans List.mem_filter

theorem exists_body_of_names {t : FileTree} {p : Path} {s : String}
    (h : (load bodyRecord.readers t p).map (·.map Body.name) = .ok [s]) :
    ∃ b, load bodyRecord.readers t p = .ok [b] ∧ b.name = s := by
  cases hload : load bodyRecord.readers t p with
  | error e => simp [hload, Except.map] at h
  | ok bodies =>
    obtain ⟨b, rfl, hb⟩ := List.map_eq_singleton_iff.mp (by simpa [hload, Except.map] using h)
    exact ⟨b, rfl, hb⟩

theorem load_planets :
    (load bodyRecord.readers planets (.ofText "a")).map (·.map Body.name) = .ok ["EARTH", "MARS"] ∧
    load bodyRecord.readers planets (.ofText "b") = .error (.toml "radius_km = 6051.8") := by
  have ha : Lists planets [[0x61]] [bytesOf "a_earth.toml", bytesOf "b_mars.toml"] :=
    planets_lists (by decide +kernel) (by decide +kernel)
  have hb : Lists planets [[0x62]] [bytesOf "a.toml", bytesOf "b.toml", bytesOf "c.toml"] :=
    planets_lists (by decide +kernel) (by decide +kernel)
  obtain ⟨⟨ns, hns, hload⟩, -⟩ := load_directory bodyRecord.readers planets_wellFormed
    (show planets.locate (.ofText "a") = .ok [[0x61]] by decide +kernel) rfl
    fun _ => planets_files
  obtain ⟨⟨ns', hns', hload'⟩, -⟩ := load_directory bodyRecord.readers planets_wellFormed
    (show planets.locate (.ofText "b") = .ok [[0x62]] by decide +kernel) rfl
    fun _ => planets_files
  obtain rfl := ha.unique hns fun _ _ => rfl
  obtain rfl := hb.unique hns' fun _ _ => rfl
  obtain ⟨earth, hearth, hname⟩ := exists_body_of_names (t := planets)
    (p := (Path.ofText "a").join (bytesOf "a_earth.toml")) (s := "EARTH") (by decide +kernel)
  obtain ⟨mars, hmars, hname'⟩ := exists_body_of_names (t := planets)
    (p := (Path.ofText "a").join (bytesOf "b_mars.toml")) (s := "MARS") (by decide +kernel)
  obtain ⟨first, hfirst, -⟩ := exists_body_of_names (t := planets)
    (p := (Path.ofText "b").join (bytesOf "a.toml")) (s := "EARTH") (by decide +kernel)
  constructor
  · rw [(hload.ok_iff [earth, mars]).mpr (.cons hearth (.cons hmars .nil))]
    simp [Except.map, hname, hname']
  · refine (hload'.error_iff _).mpr ⟨[bytesOf "a.toml"], bytesOf "b.toml", [bytesOf "c.toml"],
      rfl, ?_, ?_⟩
    · simpa using ⟨first, hfirst⟩
    · exact map_eq_error.mp (show Except.map (·.map Body.name) _ = _ by decide +kernel)

end GeoAlmanac.Catalog
