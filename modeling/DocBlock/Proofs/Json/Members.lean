import DocBlock.Proofs.Json.Denotation

/-! The members of an object by their names. Main statement: which values a name has, none, exactly one
or several, is told by evaluating the names as they are written. -/

namespace DocBlock.Json

abbrev Members := List (List Letter × Reading)

namespace Members

variable {name : String} {members : Members} {value : Reading}

/-- Every name is a text. -/
def AllNamed (members : Members) : Prop :=
  ∀ member ∈ members, ∃ name, Spells member.1 name

/-- No member has the name. -/
def Lacks (name : String) (members : Members) : Prop :=
  ∀ member ∈ members, ¬ Spells member.1 name

/-- One member has the name, and this is its value. -/
def Only (name : String) (value : Reading) (members : Members) : Prop :=
  ∃ key front back, members = front ++ (key, value) :: back ∧ Spells key name ∧
    Lacks name (front ++ back)

/-- Two members at least have the name. -/
def Twice (name : String) (members : Members) : Prop :=
  ∃ first second, [first, second].Sublist members ∧ Spells first.1 name ∧ Spells second.1 name

theorem Only.mem (only : Only name value members) :
    ∃ key, (key, value) ∈ members ∧ Spells key name := by
  obtain ⟨key, front, back, rfl, spells, _⟩ := only
  exact ⟨key, by simp, spells⟩

theorem Only.unique {other : Reading} {key : List Letter} (only : Only name value members)
    (inside : (key, other) ∈ members) (spells : Spells key name) : other = value := by
  obtain ⟨_, front, back, rfl, _, others⟩ := only
  rcases List.mem_cons.mp (List.perm_middle.mem_iff.mp inside) with same | inside
  · exact (Prod.mk.inj same).2
  · exact absurd spells (others _ inside)

theorem Only.not_lacks (only : Only name value members) : ¬ Lacks name members := by
  intro lacks
  obtain ⟨key, inside, spells⟩ := only.mem
  exact lacks _ inside spells

theorem Lacks.not_twice (lacks : Lacks name members) : ¬ Twice name members := by
  rintro ⟨first, second, sublist, spells, _⟩
  exact lacks first (sublist.subset List.mem_cons_self) spells

theorem Only.not_twice (only : Only name value members) : ¬ Twice name members := by
  classical
  rintro ⟨first, second, sublist, firstNamed, secondNamed⟩
  obtain ⟨key, front, back, rfl, spells, others⟩ := only
  have nothing : (front ++ back).filter (fun member => decide (Spells member.1 name)) = [] := by
    rw [List.filter_eq_nil_iff]
    intro member inside named
    exact others member inside (of_decide_eq_true named)
  rw [List.filter_append, List.append_eq_nil_iff] at nothing
  have kept := (sublist.filter fun member => decide (Spells member.1 name)).length_le
  simp [firstNamed, secondNamed, spells, nothing] at kept

/-- The values of a name. -/
def valuesOf (name : String) (members : Members) : List Reading :=
  (members.filter fun member => text? member.1 = some name).map Prod.snd

theorem depth_lt_of_mem {key : List Letter} (inside : (key, value) ∈ members) :
    value.depth < (Reading.object members).depth := by
  rw [Reading.depth]
  induction members with
  | nil => contradiction
  | cons member members ih =>
      obtain ⟨other, first⟩ := member
      rw [Reading.depthOfMembers]
      rcases List.mem_cons.mp inside with same | inside
      · obtain ⟨rfl, rfl⟩ := Prod.mk.inj same
        omega
      · have deeper := ih inside
        omega

theorem mem_jsonMembers?_iff {pairs : List (String × Json)}
    (read : Reading.jsonMembers? members = some pairs) {json : Json} :
    (name, json) ∈ pairs ↔
      ∃ member ∈ members, text? member.1 = some name ∧ member.2.json? = some json := by
  induction members generalizing pairs with
  | nil =>
      obtain rfl := Option.some.inj read
      simp
  | cons member members ih =>
      obtain ⟨key, reading⟩ := member
      rw [Reading.jsonMembers?] at read
      split at read
      · rename_i text first others textRead firstRead othersRead
        obtain rfl := Option.some.inj read
        simp only [List.mem_cons, ih othersRead, or_and_right, exists_or, exists_eq_left, textRead,
          firstRead, Option.some.injEq, Prod.mk.injEq, @eq_comm _ name, @eq_comm _ json]
      · contradiction

section Written

variable {cs : List Char} (written : Reading.Written (.object members) cs)

include written

theorem text?_eq_iff {member : List Letter × Reading} (inside : member ∈ members) :
    text? member.1 = some name ↔ Spells member.1 name := by
  obtain ⟨⟨_, key⟩, _⟩ := written.exists_members member inside
  exact key.text?_eq_some_iff

theorem lacks_iff : Lacks name members ↔ valuesOf name members = [] := by
  rw [valuesOf, List.map_eq_nil_iff, List.filter_eq_nil_iff]
  refine forall₂_congr fun member inside => ?_
  rw [decide_eq_true_eq, text?_eq_iff written inside]

theorem only_iff : Only name value members ↔ valuesOf name members = [value] := by
  constructor
  · rintro ⟨key, front, back, rfl, spells, others⟩
    have nothing : (front ++ back).filter (fun member => text? member.1 = some name) = [] := by
      rw [List.filter_eq_nil_iff]
      intro member inside named
      have listed : member ∈ front ++ (key, value) :: back :=
        List.perm_middle.mem_iff.mpr (List.mem_cons_of_mem _ inside)
      exact others member inside ((text?_eq_iff written listed).mp (of_decide_eq_true named))
    rw [List.filter_append, List.append_eq_nil_iff] at nothing
    simp [valuesOf, List.filter_append, nothing, text?_of_spells spells]
  · intro values
    obtain ⟨⟨key, _⟩, filtered, rfl⟩ := List.map_eq_singleton_iff.mp values
    obtain ⟨front, back, rfl, before, named, after⟩ := List.filter_eq_cons_iff.mp filtered
    refine ⟨key, front, back, rfl, ?_, ?_⟩
    · exact (text?_eq_iff written (by simp)).mp (of_decide_eq_true named)
    · rw [List.filter_eq_nil_iff] at after
      intro member inside spells
      have named := decide_eq_true (text?_of_spells spells)
      rcases List.mem_append.mp inside with inside | inside
      · exact before member inside named
      · exact after member inside named

theorem Only.exists_written (only : Only name value members) :
    ∃ text, Reading.Written value text := by
  obtain ⟨key, inside, _⟩ := only.mem
  exact (written.exists_members _ inside).2

/-- The value that an object has under a name that is given once. -/
theorem Only.lookup_eq (only : Only name value members) {pairs : List (String × Json)}
    (read : Reading.jsonMembers? members = some pairs) {json : Json}
    (valueRead : value.json? = some json) : (sortMembers pairs).lookup name = some json := by
  rw [lookup_sortMembers]
  apply lookup_eq_some
  · obtain ⟨key, inside, spells⟩ := only.mem
    rw [List.mem_reverse, mem_jsonMembers?_iff read]
    exact ⟨_, inside, text?_of_spells spells, valueRead⟩
  · intro other inside
    rw [List.mem_reverse, mem_jsonMembers?_iff read] at inside
    obtain ⟨member, inside, named, otherRead⟩ := inside
    rw [only.unique inside ((text?_eq_iff written inside).mp named), valueRead] at otherRead
    exact (Option.some.inj otherRead).symm

end Written

end Members

end DocBlock.Json
