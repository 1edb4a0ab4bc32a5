import GeoAlmanac.Files.Path
import Mathlib.Data.List.Basic
import Mathlib.Data.List.TakeDrop
import Mathlib.Logic.Relation

/-! The steps of a path and the name it ends with. A path that ends in a name has that name as its
last step, and a name joined to a path is one step more. -/

namespace GeoAlmanac.Path

theorem split_ne_nil (bytes : List UInt8) : split bytes ≠ [] := by
  cases bytes with
  | nil => simp [split]
  | cons b rest =>
    unfold split
    split
    · simp
    · split <;> simp

theorem split_append_slash (before after : List UInt8) :
    split (before ++ slash :: after) = split before ++ split after := by
  induction before with
  | nil => simp [split]
  | cons b rest ih =>
    by_cases hb : b = slash
    · simp [split, hb, ih]
    · obtain ⟨first, others, hsplit⟩ := List.exists_cons_of_ne_nil (split_ne_nil rest)
      simp [split, hb, ih, hsplit]

theorem split_of_notMem {bytes : List UInt8} (h : slash ∉ bytes) : split bytes = [bytes] := by
  induction bytes with
  | nil => rfl
  | cons b rest ih =>
    obtain ⟨hb, hrest⟩ := not_or.mp (List.mem_cons.not.mp h)
    simp [split, Ne.symm hb, ih hrest]

theorem notMem_of_mem_split {bytes : List UInt8} {s : Name} (h : s ∈ split bytes) : slash ∉ s := by
  induction bytes generalizing s with
  | nil =>
    rw [List.mem_singleton.mp h]
    exact List.not_mem_nil
  | cons b rest ih =>
    by_cases hb : b = slash
    · rw [split, if_pos hb] at h
      rcases List.mem_cons.mp h with rfl | h
      · exact List.not_mem_nil
      · exact ih h
    · obtain ⟨first, others, hsplit⟩ := List.exists_cons_of_ne_nil (split_ne_nil rest)
      rw [hsplit] at ih
      rw [split, if_neg hb, hsplit] at h
      rcases List.mem_cons.mp h with rfl | h
      · have hfirst := ih List.mem_cons_self
        simp [Ne.symm hb, hfirst]
      · exact ih (List.mem_cons_of_mem _ h)

theorem exists_split_eq_concat {bytes : List UInt8} (hne : bytes ≠ [])
    (hend : bytes.getLast? ≠ some slash) :
    ∃ before last, split bytes = before ++ [last] ∧ last ≠ [] := by
  by_cases hslash : slash ∈ bytes.reverse
  · obtain ⟨after, before, hreverse, hafter⟩ := List.eq_append_cons_of_mem hslash
    have hbytes : bytes = before.reverse ++ slash :: after.reverse := by
      simpa using congrArg List.reverse hreverse
    refine ⟨split before.reverse, after.reverse, ?_, ?_⟩
    · rw [hbytes, split_append_slash, split_of_notMem (mt List.mem_reverse.mp hafter)]
    · intro hnil
      apply hend
      rw [hbytes, hnil]
      simp
  · exact ⟨[], bytes, split_of_notMem (by simpa using hslash), hne⟩

/-- A text that is one step of a path, into a directory or to a file in it. -/
structure IsName (n : Name) : Prop where
  ne_nil : n ≠ []
  slash_notMem : slash ∉ n
  ne_dot : n ≠ dot
  ne_dotDot : n ≠ dotDot

instance (n : Name) : Decidable (IsName n) :=
  decidable_of_iff (n ≠ [] ∧ slash ∉ n ∧ n ≠ dot ∧ n ≠ dotDot)
    ⟨fun ⟨h₁, h₂, h₃, h₄⟩ => ⟨h₁, h₂, h₃, h₄⟩, fun ⟨h₁, h₂, h₃, h₄⟩ => ⟨h₁, h₂, h₃, h₄⟩⟩

theorem componentOf_name {n : Name} (h : IsName n) : componentOf n = .name n := by
  simp [componentOf, h.ne_dot, h.ne_dotDot]

theorem notMem_of_mem_segments {p : Path} {s : Name} (h : s ∈ p.segments) : slash ∉ s := by
  unfold segments at h
  split at h <;> exact notMem_of_mem_split h

theorem isName_of_mem_steps {p : Path} {n : Name} (h : .name n ∈ p.steps) : IsName n := by
  unfold steps at h
  rcases List.mem_append.mp h with h | h
  · split at h <;> simp at h
  · obtain ⟨s, hs, hcomponent⟩ := List.mem_map.mp h
    obtain ⟨hmem, hne⟩ := List.mem_filter.mp hs
    unfold componentOf at hcomponent
    split_ifs at hcomponent with hdot hdotDot
    obtain rfl := Component.name.inj hcomponent
    exact ⟨by simpa using hne, notMem_of_mem_segments hmem, hdot, hdotDot⟩

theorem exists_segments_eq_concat {p : Path} (hne : p.bytes ≠ []) (hend : p.endsWithSlash = false) :
    ∃ before last, p.segments = before ++ [last] ∧ last ≠ [] ∧
      p.steps.getLast? = some (componentOf last) := by
  have hend : p.bytes.getLast? ≠ some slash := by simpa [endsWithSlash] using hend
  obtain ⟨before, last, hsegments, hlast⟩ : ∃ before last, p.segments = before ++ [last] ∧
      last ≠ [] := by
    unfold segments
    split
    next hroot =>
      obtain ⟨b, rest, hbytes⟩ := List.exists_cons_of_ne_nil hne
      rw [isRooted, hbytes] at hroot
      have hb : b = slash := by simpa using hroot
      rw [hbytes, List.tail_cons]
      rw [hbytes, hb] at hend
      have hrest : rest ≠ [] := by
        rintro rfl
        exact hend rfl
      exact exists_split_eq_concat hrest (by rwa [List.getLast?_cons_of_ne_nil hrest] at hend)
    next => exact exists_split_eq_concat hne hend
  refine ⟨before, last, hsegments, hlast, ?_⟩
  simp [steps, hsegments, List.filter_append, hlast]

theorem isIdle_of_isName (rooted : Bool) (before : List Name) {n : Name} (hn : IsName n) :
    isIdle rooted before n = false := by
  simp [isIdle, hn.ne_nil, hn.ne_dot]

theorem fileName?_of_segments {p : Path} {before : List Name} {n : Name} (hn : IsName n)
    (h : p.segments = before ++ [n]) : p.fileName? = some n := by
  have hsettle : settle p.isRooted p.segments.reverse = n :: before.reverse := by
    rw [h, List.reverse_concat]
    simp [settle, isIdle_of_isName _ _ hn]
  simp [fileName?, hsettle, hn.ne_dot, hn.ne_dotDot]

theorem settle_eq_cons {rooted : Bool} {pieces before : List Name} {s : Name}
    (h : settle rooted pieces = s :: before) : s ∈ pieces ∧ isIdle rooted before s = false := by
  induction pieces with
  | nil => cases h
  | cons piece pieces ih =>
    unfold settle at h
    split_ifs at h with hidle
    · obtain ⟨hmem, hbusy⟩ := ih h
      exact ⟨List.mem_cons_of_mem _ hmem, hbusy⟩
    · obtain ⟨rfl, rfl⟩ := List.cons.inj h
      exact ⟨List.mem_cons_self, by simpa using hidle⟩

theorem isName_of_fileName? {p : Path} {n : Name} (h : p.fileName? = some n) : IsName n := by
  unfold fileName? at h
  split at h
  next s before hsettle =>
    split_ifs at h with hdots
    obtain rfl := Option.some.inj h
    obtain ⟨hmem, hbusy⟩ := settle_eq_cons hsettle
    obtain ⟨hdot, hdotDot⟩ := not_or.mp hdots
    have hne : s ≠ [] := by
      rintro rfl
      simp [isIdle] at hbusy
    exact ⟨hne, notMem_of_mem_segments (List.mem_reverse.mp hmem), hdot, hdotDot⟩
  next => cases h

theorem componentOf_eq_name {s n : Name} (h : componentOf s = .name n) : s = n := by
  unfold componentOf at h
  split_ifs at h
  exact Component.name.inj h

theorem fileName?_of_steps {p : Path} {n : Name} (hne : p.bytes ≠ [])
    (hend : p.endsWithSlash = false) (h : p.steps.getLast? = some (.name n)) :
    p.fileName? = some n := by
  obtain ⟨before, last, hsegments, -, hlast⟩ := exists_segments_eq_concat hne hend
  obtain rfl := componentOf_eq_name (Option.some.inj (hlast.symm.trans h))
  exact fileName?_of_segments (isName_of_mem_steps (List.mem_of_getLast? h)) hsegments

theorem isRooted_append {front : List UInt8} (hfront : front ≠ []) (rest : List UInt8) :
    isRooted ⟨front ++ rest⟩ = isRooted ⟨front⟩ := by
  rw [isRooted, isRooted, List.head?_append_of_ne_nil _ hfront]

theorem isRooted_of_isName {n : Name} (hn : IsName n) : isRooted ⟨n⟩ = false := by
  obtain ⟨b, rest, rfl⟩ := List.exists_cons_of_ne_nil hn.ne_nil
  have hb : b ≠ slash := fun hb => hn.slash_notMem (hb ▸ List.mem_cons_self)
  simp [isRooted, hb]

theorem segments_append_slash {front : List UInt8} (hfront : front ≠ []) (rest : List UInt8) :
    segments ⟨front ++ slash :: rest⟩ = segments ⟨front⟩ ++ split rest := by
  unfold segments
  rw [isRooted_append hfront]
  split
  · rw [List.tail_append_of_ne_nil hfront, split_append_slash]
  · exact split_append_slash front rest

theorem join_cases (p : Path) (n : Name) :
    (p.bytes = [] ∧ p.join n = ⟨n⟩) ∨ (p.bytes = [slash] ∧ p.join n = ⟨slash :: n⟩) ∨
      ∃ front, front ≠ [] ∧ (p.bytes = front ∨ p.bytes = front ++ [slash]) ∧
        p.join n = ⟨front ++ slash :: n⟩ := by
  obtain ⟨bytes⟩ := p
  rcases List.eq_nil_or_concat' bytes with rfl | ⟨front, last, rfl⟩
  · exact .inl ⟨rfl, rfl⟩
  refine .inr ?_
  by_cases hlast : last = slash
  · cases front with
    | nil => exact .inl (by simp [join, hlast])
    | cons b rest =>
      refine .inr ⟨b :: rest, List.cons_ne_nil _ _, .inr (by rw [hlast]), ?_⟩
      rw [join, List.getLast?_concat, hlast]
      simp
  · exact .inr ⟨front ++ [last], by simp, .inl rfl, by simp [join, hlast]⟩

theorem join_ne_nil (p : Path) {n : Name} (hn : IsName n) : (p.join n).bytes ≠ [] := by
  rcases join_cases p n with ⟨-, hjoin⟩ | ⟨-, hjoin⟩ | ⟨front, -, -, hjoin⟩
  · rw [hjoin]
    exact hn.ne_nil
  · simp [hjoin]
  · simp [hjoin]

/-- A name joined to a path is one piece more, after pieces that are those of the path but for
empty ones. -/
theorem segments_join (p : Path) {n : Name} (hn : IsName n) :
    (p.join n).isRooted = p.isRooted ∧ ∃ before, (p.join n).segments = before ++ [n] ∧
      (before.filter fun s => !s.isEmpty) = p.segments.filter fun s => !s.isEmpty := by
  have hsplit := split_of_notMem hn.slash_notMem
  obtain ⟨bytes⟩ := p
  rcases join_cases ⟨bytes⟩ n with ⟨rfl, hjoin⟩ | ⟨rfl, hjoin⟩ | ⟨front, hfront, hbytes, hjoin⟩
  · have hroot := isRooted_of_isName hn
    rw [hjoin]
    exact ⟨hroot, [], by simp [segments, hroot, hsplit], by simp [segments, isRooted, split]⟩
  · rw [hjoin]
    exact ⟨rfl, [], by simp [segments, isRooted, hsplit], by simp [segments, isRooted, split]⟩
  · rw [hjoin, isRooted_append hfront, segments_append_slash hfront, hsplit]
    rcases hbytes with rfl | rfl
    · exact ⟨rfl, _, rfl, rfl⟩
    · refine ⟨(isRooted_append hfront [slash]).symm, _, rfl, ?_⟩
      rw [segments_append_slash hfront, List.filter_append]
      simp [split]

theorem fileName?_join (p : Path) {n : Name} (hn : IsName n) : (p.join n).fileName? = some n := by
  obtain ⟨-, before, hsegments, -⟩ := segments_join p hn
  exact fileName?_of_segments hn hsegments

theorem steps_join (p : Path) {n : Name} (hn : IsName n) :
    (p.join n).steps = p.steps ++ [.name n] := by
  obtain ⟨hroot, before, hsegments, hbefore⟩ := segments_join p hn
  simp [steps, hroot, hsegments, List.filter_append, hbefore, hn.ne_nil, componentOf_name hn]

theorem components_append_name {front : List UInt8} (hfront : front ≠ []) {n : Name}
    (hn : IsName n) :
    components ⟨front ++ slash :: n⟩ = components ⟨front⟩ ++ [.name n] := by
  unfold components
  rw [isRooted_append hfront, segments_append_slash hfront, split_of_notMem hn.slash_notMem,
    List.reverse_concat]
  simp [withoutIdle, isIdle_of_isName _ _ hn, componentOf_name hn]

theorem components_append_slash {front : List UInt8} (hfront : front ≠ []) :
    components ⟨front ++ [slash]⟩ = components ⟨front⟩ := by
  unfold components
  rw [isRooted_append hfront, segments_append_slash hfront]
  simp [split, withoutIdle, isIdle]

theorem components_join (p : Path) {n : Name} (hn : IsName n) :
    (p.join n).components = p.components ++ [.name n] := by
  have hsplit := split_of_notMem hn.slash_notMem
  obtain ⟨bytes⟩ := p
  rcases join_cases ⟨bytes⟩ n with ⟨rfl, hjoin⟩ | ⟨rfl, hjoin⟩ | ⟨front, hfront, hbytes, hjoin⟩
  · have hname : components ⟨n⟩ = [.name n] := by
      simp [components, segments, isRooted_of_isName hn, hsplit, withoutIdle,
        isIdle_of_isName _ _ hn, componentOf_name hn]
    rw [hjoin, hname]
    rfl
  · have hname : components ⟨slash :: n⟩ = [.root, .name n] := by
      simp [components, segments, isRooted, hsplit, withoutIdle, isIdle_of_isName _ _ hn,
        componentOf_name hn]
    rw [hjoin, hname]
    rfl
  · rw [hjoin, components_append_name hfront hn]
    rcases hbytes with rfl | rfl
    · rfl
    · rw [components_append_slash hfront]

theorem sortsBefore_join (p : Path) {m n : Name} (hm : IsName m) (hn : IsName n) :
    (p.join m).sortsBefore (p.join n) = decide (m ≤ n) := by
  rw [sortsBefore, components_join p hm, components_join p hn, List.map_append, List.map_append]
  refine decide_eq_decide.mpr ?_
  induction p.components.map sortKey with
  | nil => simp [sortKey, List.cons_le_cons_iff, ← List.le_iff_lt_or_eq]
  | cons key keys ih => simpa [List.cons_le_cons_iff, List.lt_irrefl] using ih

theorem span_append_dot {after : Name} (h : 0x2E ∉ after) (rest : Name) :
    (after ++ 0x2E :: rest).span (fun b => decide (b ≠ 0x2E)) = (after, 0x2E :: rest) := by
  have hafter : ∀ b ∈ after, decide (b ≠ 0x2E) = true := by
    intro b hb
    exact decide_eq_true fun hdot => h (hdot ▸ hb)
  rw [List.span_eq_takeWhile_dropWhile, List.takeWhile_append_of_pos hafter,
    List.dropWhile_append_of_pos hafter]
  simp

/-- A name is parted at its last dot, unless that begins the name. -/
theorem splitAtDot?_eq_some {n before after : Name} :
    splitAtDot? n = some (before, after) ↔
      n = before ++ 0x2E :: after ∧ 0x2E ∉ after ∧ before ≠ [] := by
  unfold splitAtDot?
  constructor
  · intro h
    by_cases hdot : 0x2E ∈ n.reverse
    · obtain ⟨tail, front, hreverse, htail⟩ := List.eq_append_cons_of_mem hdot
      have hn : n = front.reverse ++ 0x2E :: tail.reverse := by
        simpa using congrArg List.reverse hreverse
      rw [hreverse, span_append_dot htail] at h
      cases front with
      | nil => exact absurd h (by simp)
      | cons b front =>
        obtain ⟨rfl, rfl⟩ := Prod.mk.inj (Option.some.inj h)
        exact ⟨hn, mt List.mem_reverse.mp htail, by simp⟩
    · have hall : ∀ b ∈ n.reverse, decide (b ≠ 0x2E) = true := by
        intro b hb
        exact decide_eq_true fun hb' => hdot (hb' ▸ hb)
      rw [List.span_eq_takeWhile_dropWhile, ← List.append_nil n.reverse,
        List.dropWhile_append_of_pos hall] at h
      exact absurd h (by simp)
  · rintro ⟨rfl, hafter, hbefore⟩
    obtain ⟨front, b, rfl⟩ := (List.eq_nil_or_concat' before).resolve_left hbefore
    have hreverse : (front ++ [b] ++ 0x2E :: after).reverse =
        after.reverse ++ 0x2E :: b :: front.reverse := by simp
    rw [hreverse, span_append_dot (mt List.mem_reverse.mp hafter)]
    simp

end GeoAlmanac.Path
