import GeoAlmanac.Proofs.Files.Paths

/-! Parents and last names of paths. The last component of a path tells its file name, and a name
joined to a path without idle pieces at its end has that very path as its parent. -/

namespace GeoAlmanac.Path

theorem withoutIdle_settle (rooted : Bool) (pieces : List Name) :
    withoutIdle rooted (settle rooted pieces) = withoutIdle rooted pieces := by
  induction pieces with
  | nil => rfl
  | cons s before ih =>
    by_cases hidle : isIdle rooted before s = true
    · simp [settle, withoutIdle, hidle, ih]
    · simp [settle, withoutIdle, hidle]

theorem settle_settle (rooted : Bool) (pieces : List Name) :
    settle rooted (settle rooted pieces) = settle rooted pieces := by
  induction pieces with
  | nil => rfl
  | cons s before ih =>
    by_cases hidle : isIdle rooted before s = true
    · simp [settle, hidle, ih]
    · simp [settle, hidle]

theorem fileName?_eq_some_iff {p : Path} {n : Name} :
    p.fileName? = some n ↔ p.components.getLast? = some (.name n) := by
  have hlast := withoutIdle_settle p.isRooted p.segments.reverse
  unfold fileName? components
  cases hsettle : settle p.isRooted p.segments.reverse with
  | nil =>
    rw [hsettle] at hlast
    rw [← hlast]
    cases p.isRooted <;> simp [withoutIdle]
  | cons s before =>
    obtain ⟨-, hbusy⟩ := settle_eq_cons hsettle
    rw [hsettle, withoutIdle, if_neg (by simp [hbusy])] at hlast
    rw [← hlast]
    simp only [List.reverse_cons, List.map_append, List.map_cons, List.map_nil,
      ← List.append_assoc, List.getLast?_concat, Option.some_inj]
    unfold componentOf
    by_cases hdot : s = dot
    · simp [hdot]
    · by_cases hdotDot : s = dotDot
      · simp [hdotDot, dot, dotDot]
      · simp [hdot, hdotDot]

theorem fileName?_eq_of_same {p q : Path} (h : p.same q = true) : p.fileName? = q.fileName? := by
  apply Option.ext
  intro n
  rw [fileName?_eq_some_iff, fileName?_eq_some_iff, eq_of_beq h]

/-- Pieces that are a path as it is written and end in none that is idle. -/
structure Tidy (rooted : Bool) (pieces : List Name) : Prop where
  slash_notMem : ∀ s ∈ pieces, slash ∉ s
  first : rooted = false → pieces.head? ≠ some []
  settled : settle rooted pieces.reverse = pieces.reverse

theorem split_intercalate {pieces : List Name} (hne : pieces ≠ [])
    (h : ∀ s ∈ pieces, slash ∉ s) : split (List.intercalate [slash] pieces) = pieces := by
  induction pieces with
  | nil => exact absurd rfl hne
  | cons s rest ih =>
    have hs := split_of_notMem (h s List.mem_cons_self)
    cases rest with
    | nil => simpa using hs
    | cons t rest =>
      rw [List.intercalate_cons_cons, List.append_assoc, List.singleton_append,
        split_append_slash, hs,
        ih (List.cons_ne_nil _ _) fun u hu => h u (List.mem_cons_of_mem _ hu)]
      rfl

section
variable {rooted : Bool} {pieces : List Name}

theorem Tidy.segments_ofSegments (h : Tidy rooted pieces) (hne : pieces ≠ []) :
    (ofSegments rooted pieces).isRooted = rooted ∧
      (ofSegments rooted pieces).segments = pieces := by
  have hsplit := split_intercalate hne h.slash_notMem
  have hroot : (ofSegments rooted pieces).isRooted = rooted := by
    cases rooted with
    | true => rfl
    | false =>
      obtain ⟨s, rest, rfl⟩ := List.exists_cons_of_ne_nil hne
      have hs : s ≠ [] := fun hnil => h.first rfl (by simp [hnil])
      obtain ⟨b, s, rfl⟩ := List.exists_cons_of_ne_nil hs
      have hb : b ≠ slash := fun hb => h.slash_notMem _ List.mem_cons_self (by simp [hb])
      cases rest <;> simp [ofSegments, isRooted, List.intercalate_cons_cons, hb]
  refine ⟨hroot, ?_⟩
  rw [segments, hroot]
  cases rooted <;> simpa [ofSegments] using hsplit

theorem isIdle_name (rooted : Bool) (before : List Name) {n : Name} (hn : IsName n) :
    isIdle rooted before n = false := by
  simp [isIdle, hn.ne_nil, hn.ne_dot]

theorem Tidy.concat (h : Tidy rooted pieces) {n : Name} (hn : IsName n) :
    Tidy rooted (pieces ++ [n]) where
  slash_notMem := by
    intro s hs
    rcases List.mem_append.mp hs with hs | hs
    · exact h.slash_notMem s hs
    · rw [List.mem_singleton.mp hs]
      exact hn.slash_notMem
  first := by
    intro hroot
    cases pieces with
    | nil => simp [hn.ne_nil]
    | cons s rest => simpa using h.first hroot
  settled := by
    simp [settle, isIdle_name rooted _ hn]

theorem intercalate_concat (hne : pieces ≠ []) (n : Name) :
    List.intercalate [slash] (pieces ++ [n]) = List.intercalate [slash] pieces ++ slash :: n := by
  induction pieces with
  | nil => exact absurd rfl hne
  | cons s rest ih =>
    cases rest with
    | nil => simp [List.intercalate_cons_cons]
    | cons t rest =>
      have ih := ih (List.cons_ne_nil t rest)
      simp only [List.cons_append, List.intercalate_cons_cons, List.append_assoc] at ih ⊢
      rw [ih]

theorem Tidy.getLast?_ofSegments (h : Tidy rooted pieces) (hne : pieces ≠ []) :
    ∃ b, (ofSegments rooted pieces).bytes.getLast? = some b ∧ b ≠ slash := by
  obtain ⟨front, last, rfl⟩ := (List.eq_nil_or_concat' pieces).resolve_left hne
  obtain ⟨-, hbusy⟩ := settle_eq_cons (h.settled.trans List.reverse_concat)
  have hlast : last ≠ [] := by
    rintro rfl
    simp [isIdle] at hbusy
  obtain ⟨name, b, rfl⟩ := (List.eq_nil_or_concat' last).resolve_left hlast
  have hb : b ≠ slash := by
    rintro rfl
    exact h.slash_notMem (name ++ [slash]) (by simp) (by simp)
  refine ⟨b, ?_, hb⟩
  cases front with
  | nil => simp [ofSegments, ← List.append_assoc]
  | cons s rest =>
    rw [ofSegments, intercalate_concat (List.cons_ne_nil s rest)]
    simp [List.getLast?_append, List.getLast?_cons]

/-- A name joined to such a path is one piece more. -/
theorem Tidy.join (h : Tidy rooted pieces) (n : Name) :
    (ofSegments rooted pieces).join n = ofSegments rooted (pieces ++ [n]) := by
  by_cases hne : pieces = []
  · subst hne
    cases rooted <;> simp [ofSegments, Path.join]
  · obtain ⟨b, hlast, hb⟩ := h.getLast?_ofSegments hne
    unfold Path.join
    rw [hlast]
    simp [hb, ofSegments, intercalate_concat hne]

theorem Tidy.parent?_join (h : Tidy rooted pieces) {n : Name} (hn : IsName n) :
    ((ofSegments rooted pieces).join n).parent? = some (ofSegments rooted pieces) := by
  obtain ⟨hroot, hsegments⟩ := (h.concat hn).segments_ofSegments (by simp)
  rw [h.join, parent?, hroot, hsegments, List.reverse_concat, settle,
    if_neg (by simp [isIdle_name rooted _ hn])]
  simp [h.settled]

end

theorem settle_suffix (rooted : Bool) (pieces : List Name) : settle rooted pieces <:+ pieces := by
  induction pieces with
  | nil => exact List.suffix_rfl
  | cons s before ih =>
    unfold settle
    split
    · exact ih.trans (List.suffix_cons s before)
    · exact List.suffix_rfl

theorem bytes_of_head?_segments {p : Path} (hroot : p.isRooted = false)
    (h : p.segments.head? = some []) : p.bytes = [] := by
  obtain ⟨bytes⟩ := p
  cases bytes with
  | nil => rfl
  | cons b rest =>
    have hb : b ≠ slash := by simpa [isRooted] using hroot
    obtain ⟨first, others, hsplit⟩ := List.exists_cons_of_ne_nil (split_ne_nil rest)
    simp [segments, hroot, split, hb, hsplit] at h

theorem exists_tidy_parent {p q : Path} (h : p.parent? = some q) :
    ∃ pieces, Tidy p.isRooted pieces ∧ q = ofSegments p.isRooted pieces := by
  unfold parent? at h
  split at h
  next => cases h
  next s before hsettle =>
    have hq := Option.some.inj h
    have hsuffix : settle p.isRooted before <:+ p.segments.reverse := by
      have hbefore : before <:+ settle p.isRooted p.segments.reverse := by
        rw [hsettle]
        exact List.suffix_cons s before
      exact (settle_suffix _ _).trans (hbefore.trans (settle_suffix _ _))
    have hinitial : (settle p.isRooted before).reverse <+: p.segments := by
      rw [← List.reverse_suffix, List.reverse_reverse]
      exact hsuffix
    refine ⟨_, ⟨?_, ?_, ?_⟩, hq.symm⟩
    · intro t ht
      exact notMem_of_mem_segments (hinitial.subset ht)
    · intro hroot hhead
      obtain ⟨rest, hsegments⟩ := hinitial
      have hempty := bytes_of_head?_segments hroot (by
        rw [← hsegments, List.head?_append, hhead, Option.some_or])
      have hpieces : p.segments = [[]] := by simp [segments, hroot, hempty, split]
      rw [hpieces] at hsettle
      simp [settle, isIdle] at hsettle
    · rw [List.reverse_reverse, settle_settle]

end GeoAlmanac.Path
