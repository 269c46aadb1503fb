import DocBlock.Proofs.Json.Spelling
import Mathlib.Data.List.Perm.Basic

/-! What readings stand for. Main statements: a reading is evaluated to the value that it stands for,
whatever the spelling of its strings and the order of its members, and it has a value exactly if every
string in it has a text and every number is in range. -/

namespace DocBlock.Json

/-- A record holds each name once, in the order of the names, with the value that was given last. -/
structure IsRecord (pairs record : List (String × Json)) : Prop where
  ordered : record.Pairwise fun first second => first.1 < second.1
  values : ∀ name, record.lookup name = pairs.reverse.lookup name

theorem lookup_insertMember (key name : String) (value : Json) (members : List (String × Json)) :
    (insertMember key value members).lookup name = ((key, value) :: members).lookup name := by
  induction members with
  | nil => rfl
  | cons member members ih =>
      obtain ⟨other, kept⟩ := member
      rw [insertMember]
      split
      · rfl
      · split
        · rename_i same
          subst same
          simp only [List.lookup_cons]
          cases name == key <;> rfl
        · rename_i apart
          simp only [List.lookup_cons, ih]
          cases isKey : name == key with
          | false => rfl
          | true =>
              have other_ : (name == other) = false := by
                rw [beq_iff_eq.mp isKey]
                exact beq_false_of_ne apart
              rw [other_]

theorem mem_insertMember {key : String} {value : Json} {members : List (String × Json)}
    {member : String × Json} (inside : member ∈ insertMember key value members) :
    member.1 = key ∨ member ∈ members := by
  induction members with
  | nil => exact Or.inl (congrArg Prod.fst (List.mem_singleton.mp inside))
  | cons first members ih =>
      obtain ⟨other, kept⟩ := first
      rw [insertMember] at inside
      split at inside
      · rcases List.mem_cons.mp inside with rfl | later
        · exact Or.inl rfl
        · exact Or.inr later
      · split at inside
        · rcases List.mem_cons.mp inside with rfl | later
          · exact Or.inl rfl
          · exact Or.inr (List.mem_cons_of_mem _ later)
        · rcases List.mem_cons.mp inside with rfl | later
          · exact Or.inr List.mem_cons_self
          · exact (ih later).imp_right (List.mem_cons_of_mem _)

theorem ordered_insertMember (key : String) (value : Json) {members : List (String × Json)}
    (ordered : members.Pairwise fun first second => first.1 < second.1) :
    (insertMember key value members).Pairwise fun first second => first.1 < second.1 := by
  induction members with
  | nil => exact List.pairwise_singleton _ _
  | cons first members ih =>
      obtain ⟨other, kept⟩ := first
      obtain ⟨least, rest⟩ := List.pairwise_cons.mp ordered
      rw [insertMember]
      split
      · rename_i before
        refine List.pairwise_cons.mpr ⟨?_, ordered⟩
        intro later inside
        rcases List.mem_cons.mp inside with rfl | inside
        · exact before
        · exact String.lt_trans before (least later inside)
      · rename_i notBefore
        split
        · rename_i same
          subst same
          exact List.pairwise_cons.mpr ⟨least, rest⟩
        · rename_i apart
          have after : other < key := by
            apply String.not_le.mp
            intro upper
            exact apart (String.le_antisymm upper (String.not_lt.mp notBefore))
          refine List.pairwise_cons.mpr ⟨?_, ih rest⟩
          intro later inside
          rcases mem_insertMember inside with same | inside
          · rw [same]
            exact after
          · exact least later inside

theorem mem_iff_lookup {record : List (String × Json)}
    (ordered : record.Pairwise fun first second => first.1 < second.1) {name : String} {value : Json} :
    (name, value) ∈ record ↔ record.lookup name = some value := by
  induction record with
  | nil => simp
  | cons first record ih =>
      obtain ⟨least, rest⟩ := List.pairwise_cons.mp ordered
      rw [List.mem_cons, ih rest]
      obtain ⟨key, kept⟩ := first
      by_cases same : name = key
      · subst same
        have absent : record.lookup name ≠ some value := by
          intro found
          exact String.lt_irrefl _ (least (name, value) ((ih rest).mpr found))
        rw [List.lookup_cons_self, Prod.mk.injEq, Option.some.injEq]
        constructor
        · rintro (⟨_, equal⟩ | found)
          · exact equal.symm
          · exact absurd found absent
        · rintro equal
          exact Or.inl ⟨rfl, equal.symm⟩
      · rw [List.lookup_cons, beq_false_of_ne same, Prod.mk.injEq]
        simp [same]

theorem lookup_eq_some {pairs : List (String × Json)} {name : String} {value : Json}
    (inside : (name, value) ∈ pairs) (unique : ∀ other, (name, other) ∈ pairs → other = value) :
    pairs.lookup name = some value := by
  induction pairs with
  | nil => contradiction
  | cons pair pairs ih =>
      obtain ⟨key, first⟩ := pair
      by_cases same : name = key
      · subst same
        rw [List.lookup_cons_self, unique first List.mem_cons_self]
      · rw [List.lookup_cons, beq_false_of_ne same]
        apply ih
        · exact (List.mem_cons.mp inside).resolve_left fun equal => same (Prod.mk.inj equal).1
        · exact fun other later => unique other (List.mem_cons_of_mem _ later)

/-- A record is determined by its values. -/
theorem eq_of_lookup {left right : List (String × Json)}
    (ordered : left.Pairwise fun first second => first.1 < second.1)
    (otherOrdered : right.Pairwise fun first second => first.1 < second.1)
    (same : ∀ name, left.lookup name = right.lookup name) : left = right := by
  have nodup {record : List (String × Json)}
      (ordered : record.Pairwise fun first second => first.1 < second.1) : record.Nodup := by
    apply ordered.imp
    rintro first _ lower rfl
    exact String.lt_irrefl _ lower
  have perm : left.Perm right := by
    apply (List.perm_ext_iff_of_nodup (nodup ordered) (nodup otherOrdered)).mpr
    rintro ⟨name, value⟩
    rw [mem_iff_lookup ordered, mem_iff_lookup otherOrdered, same]
  exact perm.eq_of_pairwise
    (fun _ _ _ _ lower upper => absurd (String.lt_trans lower upper) (String.lt_irrefl _))
    ordered otherOrdered

theorem lookup_foldl_insertMember (pairs sorted : List (String × Json)) (name : String) :
    (pairs.foldl (fun sorted (key, value) => insertMember key value sorted) sorted).lookup name =
      (pairs.reverse ++ sorted).lookup name := by
  induction pairs generalizing sorted with
  | nil => rfl
  | cons pair pairs ih =>
      rw [List.foldl_cons, ih, List.reverse_cons, List.append_assoc, List.singleton_append,
        List.lookup_append, List.lookup_append, lookup_insertMember]

theorem ordered_foldl_insertMember (pairs : List (String × Json)) {sorted : List (String × Json)}
    (ordered : sorted.Pairwise fun first second => first.1 < second.1) :
    (pairs.foldl (fun sorted (key, value) => insertMember key value sorted) sorted).Pairwise
      fun first second => first.1 < second.1 := by
  induction pairs generalizing sorted with
  | nil => exact ordered
  | cons pair pairs ih => exact ih (ordered_insertMember pair.1 pair.2 ordered)

theorem lookup_sortMembers (pairs : List (String × Json)) (name : String) :
    (sortMembers pairs).lookup name = pairs.reverse.lookup name := by
  rw [sortMembers, lookup_foldl_insertMember, List.append_nil]

theorem isRecord_sortMembers (pairs : List (String × Json)) : IsRecord pairs (sortMembers pairs) :=
  ⟨ordered_foldl_insertMember pairs List.Pairwise.nil, lookup_sortMembers pairs⟩

theorem IsRecord.sortMembers_eq {pairs record : List (String × Json)} (isRecord : IsRecord pairs record) :
    sortMembers pairs = record := by
  have sorted := isRecord_sortMembers pairs
  apply eq_of_lookup sorted.ordered isRecord.ordered
  intro name
  rw [sorted.values, isRecord.values]

theorem Numeral.value?_ofInt {n : Int} (least : -0x8000000000000000 ≤ n)
    (most : n < 0x10000000000000000) :
    (ofInt n).value? = some (.integer n) := by
  have natural : naturalOf (ofInt n).whole = n.natAbs := naturalOf_toDigits n.natAbs
  have limit : wordLimit = 18446744073709551616 := by decide
  unfold value?
  rw [natural]
  by_cases negative : n < 0
  · have sign : (ofInt n).negative = true := decide_eq_true negative
    have fits : 0 < n.natAbs ∧ n.natAbs ≤ wordLimit / 2 := by omega
    have signed : -(n.natAbs : Int) = n := by omega
    simp only [sign, if_true]
    rw [if_pos ⟨rfl, fits⟩, signed]
  · have sign : (ofInt n).negative = false := decide_eq_false negative
    have fits : n.natAbs < wordLimit := by omega
    have signed : (n.natAbs : Int) = n := by omega
    simp only [sign, Bool.false_eq_true, if_false]
    rw [if_pos ⟨rfl, fits⟩, signed]

namespace Reading

mutual

/-- The values that a reading stands for, of those whose numbers are integers of 64 bits. -/
inductive Denotes : Reading → Json → Prop
  | null : Denotes .null .null
  | bool (value : Bool) : Denotes (.bool value) (.bool value)
  | integer {n : Int} : -0x8000000000000000 ≤ n → n < 0x10000000000000000 →
      Denotes (.number (.ofInt n)) (.integer n)
  | string {letters : List Letter} {text : String} : Spells letters text →
      Denotes (.string letters) (.string text)
  | array {items : List Reading} {values : List Json} : ItemsDenote items values →
      Denotes (.array items) (.array values)
  | object {members : List (List Letter × Reading)} {pairs record : List (String × Json)} :
      MembersDenote members pairs → IsRecord pairs record → Denotes (.object members) (.object record)

inductive ItemsDenote : List Reading → List Json → Prop
  | nil : ItemsDenote [] []
  | cons {item : Reading} {value : Json} {items : List Reading} {values : List Json} :
      Denotes item value → ItemsDenote items values → ItemsDenote (item :: items) (value :: values)

inductive MembersDenote : List (List Letter × Reading) → List (String × Json) → Prop
  | nil : MembersDenote [] []
  | cons {key : List Letter} {name : String} {item : Reading} {value : Json}
      {members : List (List Letter × Reading)} {pairs : List (String × Json)} : Spells key name →
      Denotes item value → MembersDenote members pairs →
      MembersDenote ((key, item) :: members) ((name, value) :: pairs)

end

mutual

theorem json?_of_denotes : {reading : Reading} → {value : Json} → Denotes reading value →
    json? reading = some value
  | _, _, .null => rfl
  | _, _, .bool _ => rfl
  | _, _, .integer least most => Numeral.value?_ofInt least most
  | _, _, .string spells => by rw [json?, text?_of_spells spells, Option.map_some]
  | _, _, .array items => by rw [json?, jsonItems?_of_denote items, Option.map_some]
  | _, _, .object members isRecord => by
      rw [json?, jsonMembers?_of_denote members, Option.map_some, isRecord.sortMembers_eq]

theorem jsonItems?_of_denote : {items : List Reading} → {values : List Json} →
    ItemsDenote items values → jsonItems? items = some values
  | _, _, .nil => rfl
  | _, _, .cons item items => by
      simp only [jsonItems?, json?_of_denotes item, jsonItems?_of_denote items]

theorem jsonMembers?_of_denote : {members : List (List Letter × Reading)} →
    {pairs : List (String × Json)} → MembersDenote members pairs →
      jsonMembers? members = some pairs
  | _, _, .nil => rfl
  | _, _, .cons spells value members => by
      simp only [jsonMembers?, text?_of_spells spells, json?_of_denotes value,
        jsonMembers?_of_denote members]

end

mutual

/-- Every number, and every string and name, has its property. -/
def Everywhere (onNumber : Numeral → Prop) (onString : List Letter → Prop) : Reading → Prop
  | null => True
  | bool _ => True
  | number numeral => onNumber numeral
  | string letters => onString letters
  | array items => EverywhereInItems onNumber onString items
  | object members => EverywhereInMembers onNumber onString members

def EverywhereInItems (onNumber : Numeral → Prop) (onString : List Letter → Prop) :
    List Reading → Prop
  | [] => True
  | item :: items =>
    Everywhere onNumber onString item ∧ EverywhereInItems onNumber onString items

def EverywhereInMembers (onNumber : Numeral → Prop) (onString : List Letter → Prop) :
    List (List Letter × Reading) → Prop
  | [] => True
  | (key, value) :: members =>
    onString key ∧ Everywhere onNumber onString value ∧
      EverywhereInMembers onNumber onString members

end

/-- Every number is in range. -/
def Representable : Reading → Prop :=
  Everywhere (fun numeral => numeral.value?.isSome) fun _ => True

/-- Every string and every name spells a text. -/
def Textual : Reading → Prop :=
  Everywhere (fun _ => True) fun letters => ∃ text, Spells letters text

theorem textual_iff {letters : List Letter} {cs : List Char} (written : LettersWritten letters cs) :
    (text? letters).isSome = true ↔ ∃ text, Spells letters text := by
  simp only [Option.isSome_iff_exists, written.text?_eq_some_iff]

mutual

/-- A reading has a value exactly if its numbers are in range and its strings spell texts. -/
theorem json?_isSome_iff : (reading : Reading) → {cs : List Char} → Written reading cs →
    ((json? reading).isSome = true ↔ Representable reading ∧ Textual reading)
  | null, _, _ => by simp [json?, Representable, Textual, Everywhere]
  | bool _, _, _ => by simp [json?, Representable, Textual, Everywhere]
  | number numeral, _, _ => by simp [json?, Representable, Textual, Everywhere]
  | string letters, _, .string written => by
      rw [json?, Option.isSome_map, textual_iff written]
      simp only [Representable, Textual, Everywhere, true_and]
  | array items, _, written => by
      rw [json?, Option.isSome_map, jsonItems?_isSome_iff items written.exists_items]
      simp only [Representable, Textual, Everywhere]
  | object members, _, written => by
      rw [json?, Option.isSome_map, jsonMembers?_isSome_iff members written.exists_members]
      simp only [Representable, Textual, Everywhere]

theorem jsonItems?_isSome_iff : (items : List Reading) → (∀ item ∈ items, ∃ text, Written item text) →
    ((jsonItems? items).isSome = true ↔
      EverywhereInItems (fun numeral => numeral.value?.isSome) (fun _ => True) items ∧
        EverywhereInItems (fun _ => True) (fun letters => ∃ text, Spells letters text) items)
  | [], _ => by simp [jsonItems?, EverywhereInItems]
  | item :: items, written => by
      obtain ⟨⟨text, first⟩, others⟩ := List.forall_mem_cons.mp written
      have both : (jsonItems? (item :: items)).isSome =
          ((json? item).isSome && (jsonItems? items).isSome) := by
        rw [jsonItems?]
        cases json? item <;> cases jsonItems? items <;> rfl
      rw [both, Bool.and_eq_true, json?_isSome_iff item first, jsonItems?_isSome_iff items others]
      simp only [Representable, Textual, EverywhereInItems]
      exact and_and_and_comm

theorem jsonMembers?_isSome_iff : (members : List (List Letter × Reading)) →
    (∀ member ∈ members, (∃ spelled, LettersWritten member.1 spelled) ∧
      ∃ text, Written member.2 text) →
    ((jsonMembers? members).isSome = true ↔
      EverywhereInMembers (fun numeral => numeral.value?.isSome) (fun _ => True) members ∧
        EverywhereInMembers (fun _ => True) (fun letters => ∃ text, Spells letters text) members)
  | [], _ => by simp [jsonMembers?, EverywhereInMembers]
  | (key, value) :: members, written => by
      obtain ⟨⟨⟨spelled, first⟩, text, second⟩, others⟩ := List.forall_mem_cons.mp written
      have all : (jsonMembers? ((key, value) :: members)).isSome =
          ((text? key).isSome && ((json? value).isSome && (jsonMembers? members).isSome)) := by
        rw [jsonMembers?]
        cases text? key <;> cases json? value <;> cases jsonMembers? members <;> rfl
      rw [all, Bool.and_eq_true, Bool.and_eq_true, textual_iff first, json?_isSome_iff value second,
        jsonMembers?_isSome_iff members others]
      simp only [Representable, Textual, EverywhereInMembers, true_and]
      rw [and_and_and_comm, and_left_comm]

end

end Reading

end DocBlock.Json
