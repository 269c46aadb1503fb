import DocBlock.Path
import Mathlib.Data.List.Nodup

/-! The order of paths. Main statements: sorting puts the paths in strictly increasing order, keeps the
first of equal ones, and the components that come out depend only on those that went in. -/

namespace DocBlock.Path

instance : Std.TransCmp Component.compare :=
  inferInstanceAs (Std.TransCmp (compareLex (compareOn Component.rank) (compareOn Component.spelling)))

instance : Std.LawfulEqCmp Component.compare where
  compare_self := by
    intro component
    simp [Component.compare]
  eq_of_compare := by
    intro left right equal
    rw [Component.compare, Ordering.then_eq_eq] at equal
    obtain ⟨rank, spelling⟩ := equal
    have sameRank := Std.LawfulEqCmp.eq_of_compare rank
    have sameSpelling := Std.LawfulEqCmp.eq_of_compare spelling
    cases left <;> cases right <;> simp_all [Component.rank, Component.spelling]

/-- The order of lists of components. -/
abbrev Component.compareAll : List Component → List Component → Ordering :=
  List.compareLex Component.compare

instance : Std.TransCmp compare where
  eq_swap := by
    intro left right
    exact @Std.OrientedCmp.eq_swap _ Component.compareAll _ (components left) (components right)
  isLE_trans := by
    intro first second third lower upper
    exact @Std.TransCmp.isLE_trans _ Component.compareAll _ _ (components second) _ lower upper

theorem same_iff {left right : Path} :
    same left right = true ↔ components left = components right := by
  simp [same]

theorem compare_eq_eq_iff {left right : Path} :
    compare left right = .eq ↔ components left = components right :=
  @Std.LawfulEqCmp.compare_eq_iff_eq _ Component.compareAll _ _ _

theorem isLE_total (left right : Path) :
    ((compare left right).isLE || (compare right left).isLE) = true := by
  rw [@Std.OrientedCmp.eq_swap _ compare _ right left]
  cases compare left right <;> rfl

theorem isLE_trans (first second third : Path) (lower : (compare first second).isLE = true)
    (upper : (compare second third).isLE = true) : (compare first third).isLE = true :=
  Std.TransCmp.isLE_trans lower upper

theorem lt_of_isLE {left right : Path} (ordered : (compare left right).isLE = true)
    (different : components left ≠ components right) : compare left right = .lt := by
  cases order : compare left right with
  | lt => rfl
  | eq => exact absurd (compare_eq_eq_iff.mp order) different
  | gt =>
      rw [order] at ordered
      contradiction

theorem dropRepeats_sublist (before : Option Path) (paths : List Path) :
    (dropRepeats before paths).Sublist paths := by
  induction paths generalizing before with
  | nil => exact List.Sublist.refl []
  | cons path paths ih =>
      unfold dropRepeats
      split
      · exact (ih before).cons path
      · exact (ih (some path)).cons_cons path

/-- In ordered paths only neighbours can be equal, so what is left increases strictly. -/
theorem pairwise_dropRepeats {before : Option Path} {paths : List Path}
    (ordered : paths.Pairwise fun left right => (compare left right).isLE = true)
    (above : ∀ first ∈ before, ∀ path ∈ paths, (compare first path).isLE = true) :
    (∀ first ∈ before, ∀ path ∈ dropRepeats before paths, compare first path = .lt) ∧
      (dropRepeats before paths).Pairwise fun left right => compare left right = .lt := by
  induction paths generalizing before with
  | nil => simp [dropRepeats]
  | cons path paths ih =>
      obtain ⟨first, rest⟩ := List.pairwise_cons.mp ordered
      unfold dropRepeats
      split
      · apply ih rest
        intro last present other member
        exact above last present other (List.mem_cons_of_mem path member)
      · rename_i fresh
        have later : ∀ last ∈ some path, ∀ other ∈ paths, (compare last other).isLE = true := by
          rintro last ⟨⟩ other member
          exact first other member
        obtain ⟨beyond, increasing⟩ := ih rest later
        refine ⟨?_, List.pairwise_cons.mpr ⟨beyond path rfl, increasing⟩⟩
        intro last present other member
        have lower : compare last path = .lt := by
          apply lt_of_isLE (above last present path List.mem_cons_self)
          intro equal
          apply fresh
          rw [Option.mem_def.mp present, Option.any_some, same_iff]
          exact equal
        rcases List.mem_cons.mp member with rfl | member
        · exact lower
        · exact Std.TransCmp.lt_trans lower (beyond path rfl other member)

/-- A path that is dropped repeats the one before it, so it is not the first of its equals. -/
theorem find?_dropRepeats {before : Option Path} {path : Path} {paths : List Path}
    (fresh : before.any (same · path) = false) :
    (dropRepeats before paths).find? (same · path) = paths.find? (same · path) := by
  induction paths generalizing before with
  | nil => rfl
  | cons head paths ih =>
      unfold dropRepeats
      split
      · rename_i repeated
        obtain ⟨first, rfl, equal⟩ := Option.any_eq_true _ _ |>.mp repeated
        -- What is dropped equals the one before it, which the path does not.
        have other : same head path = false := by
          rw [Option.any_some, same, same_iff.mp equal] at fresh
          exact fresh
        rw [ih fresh, List.find?_cons, other]
      · rw [List.find?_cons, List.find?_cons]
        cases equal : same head path with
        | true => rfl
        | false => exact ih equal

/-- The sort is stable: the first of equal paths stays the first of them. -/
theorem find?_mergeSort (paths : List Path) (path : Path) :
    (paths.mergeSort fun left right => (compare left right).isLE).find? (same · path) =
      paths.find? (same · path) := by
  let ordered := paths.mergeSort fun left right => (compare left right).isLE
  -- The equals of the path are in order in any order, so the sort leaves them as they stand.
  have level : (paths.filter (same · path)).Pairwise
      fun left right => (compare left right).isLE = true := by
    apply List.pairwise_of_forall_mem_list
    intro left leftMember right rightMember
    have equal := (same_iff.mp (List.mem_filter.mp leftMember).2).trans
      (same_iff.mp (List.mem_filter.mp rightMember).2).symm
    rw [compare_eq_eq_iff.mpr equal]
    rfl
  have inOrder : (paths.filter (same · path)).Sublist (ordered.filter (same · path)) := by
    have kept := List.sublist_mergeSort isLE_trans isLE_total level List.filter_sublist
    simpa [List.filter_filter] using kept.filter (same · path)
  have asMany : (paths.filter (same · path)).length = (ordered.filter (same · path)).length :=
    ((List.mergeSort_perm paths _).filter _).length_eq.symm
  rw [← List.head?_filter, ← List.head?_filter, inOrder.eq_of_length asMany]

/-- Of equal paths the first is kept. -/
theorem find?_sorted (paths : List Path) (path : Path) :
    (sorted paths).find? (same · path) = paths.find? (same · path) := by
  rw [sorted, find?_dropRepeats rfl, find?_mergeSort]

theorem mem_of_mem_sorted {paths : List Path} {path : Path} (member : path ∈ sorted paths) :
    path ∈ paths :=
  List.mem_mergeSort.mp ((dropRepeats_sublist _ _).subset member)

theorem exists_first_mem_sorted {paths : List Path} {path : Path} (member : path ∈ paths) :
    ∃ kept ∈ sorted paths, paths.find? (same · path) = some kept ∧
      components kept = components path := by
  have present : ((sorted paths).find? (same · path)).isSome := by
    rw [find?_sorted]
    exact List.find?_isSome.mpr ⟨path, member, same_iff.mpr rfl⟩
  obtain ⟨kept, found⟩ := Option.isSome_iff_exists.mp present
  have equal : same kept path = true := by simpa using List.find?_some found
  exact ⟨kept, List.mem_of_find?_eq_some found, by rw [← find?_sorted, found],
    same_iff.mp equal⟩

theorem pairwise_sorted (paths : List Path) :
    (sorted paths).Pairwise fun left right => compare left right = .lt := by
  have ordered := List.pairwise_mergeSort isLE_trans isLE_total paths
  apply (pairwise_dropRepeats ordered _).2
  intro first present
  contradiction

/-- Paths that are in order already only lose their repetitions. -/
theorem sorted_eq_dropRepeats {paths : List Path}
    (ordered : paths.Pairwise fun left right => (compare left right).isLE = true) :
    sorted paths = dropRepeats none paths := by
  rw [sorted, List.mergeSort_of_pairwise ordered]

theorem mem_components_sorted {paths : List Path} {parts : List Component} :
    parts ∈ (sorted paths).map components ↔ parts ∈ paths.map components := by
  constructor
  · intro member
    obtain ⟨path, inside, rfl⟩ := List.mem_map.mp member
    exact List.mem_map_of_mem (mem_of_mem_sorted inside)
  · intro member
    obtain ⟨path, inside, rfl⟩ := List.mem_map.mp member
    obtain ⟨kept, sortedMember, _, equal⟩ := exists_first_mem_sorted inside
    exact List.mem_map.mpr ⟨kept, sortedMember, equal⟩

theorem pairwise_components_sorted (paths : List Path) :
    ((sorted paths).map components).Pairwise
      fun left right => Component.compareAll left right = .lt :=
  List.pairwise_map.mpr (pairwise_sorted paths)

theorem nodup_components_sorted (paths : List Path) :
    ((sorted paths).map components).Nodup := by
  apply (pairwise_components_sorted paths).imp
  rintro left _ lower rfl
  exact Std.OrientedCmp.not_lt_of_lt lower lower

/-- What is selected, apart from its spelling, depends neither on the order of the paths nor on how
often each is there. -/
theorem components_sorted_eq {paths others : List Path}
    (alike : ∀ parts, parts ∈ paths.map components ↔ parts ∈ others.map components) :
    (sorted paths).map components = (sorted others).map components := by
  apply List.Perm.eq_of_pairwise _ (pairwise_components_sorted paths)
    (pairwise_components_sorted others)
  · apply (List.perm_ext_iff_of_nodup (nodup_components_sorted paths)
      (nodup_components_sorted others)).mpr
    intro parts
    rw [mem_components_sorted, mem_components_sorted]
    exact alike parts
  · intro left right _ _ lower upper
    exact absurd upper (Std.OrientedCmp.not_lt_of_lt lower)

end DocBlock.Path
