import DocBlock.Proofs.Parameter

/-! Where the parameters of a list stand in it, whatever else it holds. Main statement: they stand in
order and apart, and each sigil before a word is the sigil of one of them or lies in the default of
one. -/

namespace DocBlock

/-- A parameter as it stands in a list: its type with the blanks after it, its name, and its default
with the blanks before the sign. -/
structure Site where
  type : Option (List Char × List Char)
  name : List Char
  default : Option (List Char × List Char)
  deriving DecidableEq, Repr

namespace Site

open Parameter

/-- What stands before the sigil. -/
def heading (site : Site) : List Char := site.type.elim [] fun (type, gap) => type ++ gap

/-- What stands after the name. -/
def tail (site : Site) : List Char := site.default.elim [] fun (blanks, run) => blanks ++ '=' :: run

def toList (site : Site) : List Char := site.heading ++ '$' :: (site.name ++ site.tail)

def parameter (site : Site) : Parameter where
  type := site.type.map fun (type, _) => .ofList type
  name := .ofList site.name
  default := site.default.map fun (_, run) => .ofList (Text.trim run)

/-- The type with the blanks after it, and the name, with the rest. -/
def heading? (cs : List Char) : Option (Option (List Char × List Char) × List Char × List Char) :=
  ((type? cs).bind fun (type, rest) => (named? rest).map fun (name, after) =>
      (some (type, (cs.drop type.length).takeWhile Text.isBlank), name, after)).or
    ((named? cs).map fun (name, after) => (none, name, after))

/-- The default with the blanks before its sign, if there is one, and the rest. -/
def tailOf (cs : List Char) : Option (List Char × List Char) × List Char :=
  match default? cs with
  | some (run, rest) => (some (cs.takeWhile Text.isBlank, run), rest)
  | none => (none, cs)

def form : Text.Form Site := fun _ cs =>
  (heading? cs).map fun (type, name, after) => (⟨type, name, (tailOf after).1⟩, (tailOf after).2)

/-- The parameters of a list as they stand in it, each with its byte offset. -/
def all (list : String) : List (Nat × Site) := Text.occurrences form list.toList

theorem heading?_eq (cs : List Char) : Parameter.heading? cs = (heading? cs).map
    fun (type, name, after) => (type.map fun (type, _) => .ofList type, name, after) := by
  unfold Parameter.heading? heading?
  cases type? cs with
  | none => cases named? cs <;> rfl
  | some read =>
      obtain ⟨type, rest⟩ := read
      dsimp only [Option.bind_some]
      cases named? rest with
      | none => cases named? cs <;> rfl
      | some read => rfl

theorem withDefault_eq (type : Option String) (name : String) (cs : List Char) :
    withDefault type name cs =
      (⟨type, name, (tailOf cs).1.map fun (_, run) => .ofList (Text.trim run)⟩, (tailOf cs).2) := by
  unfold withDefault tailOf
  cases default? cs <;> rfl

/-- A parameter of a list is what stands there, its default trimmed. -/
theorem declaredForm_eq (before : Option Char) (cs : List Char) :
    declaredForm before cs = (form before cs).map fun (site, rest) => (site.parameter, rest) := by
  rw [Parameter.declaredForm_eq, heading?_eq, form, Option.map_map, Option.map_map]
  apply Option.map_congr
  rintro ⟨type, name, after⟩ _
  exact withDefault_eq _ _ after

theorem declared_eq (list : String) :
    declared list = (all list).map fun (_, site) => site.parameter := by
  rw [declared, all, Text.occurrences, Text.occurrences, Text.occurrencesFrom_map declaredForm_eq,
    List.map_map]
  rfl

/-- A word, perhaps with a question mark before it. -/
def IsTypeName (type : List Char) : Prop :=
  ∃ mark word, (mark = [] ∨ mark = ['?']) ∧ Text.IsRun Text.isWord word ∧ mark ++ word = type

/-- What a parameter is where this text follows it: the name is the longest run of word characters
after the sigil, and the default runs from its sign to the next comma or the end. -/
structure Stands (site : Site) (after : List Char) : Prop where
  type : ∀ type gap, site.type = some (type, gap) → IsTypeName type ∧ Text.IsRun Text.isBlank gap
  name : Text.IsRun Text.isWord site.name
  longest : Text.Stops Text.isWord (site.tail ++ after)
  default : ∀ blanks run, site.default = some (blanks, run) →
    Text.AllBlank blanks ∧ Text.IsRun (· != ',') run ∧ (after = [] ∨ ∃ more, after = ',' :: more)

section Reading

variable {cs rest : List Char}

theorem type?_spec {type : List Char} (found : type? cs = some (type, rest)) :
    ∃ gap, IsTypeName type ∧ Text.IsRun Text.isBlank gap ∧ Text.Stops Text.isBlank rest ∧
      type ++ (gap ++ rest) = cs := by
  simp only [type?, Option.bind_eq_bind, Option.bind_eq_some_iff, Option.pure_def,
    Option.some.injEq, Prod.mk.injEq] at found
  obtain ⟨⟨word, afterWord⟩, readWord, ⟨gap, _⟩, readGap, rfl, rfl⟩ := found
  obtain ⟨wordRun, _, afterMark⟩ := Text.run?_eq_some_iff.mp readWord
  obtain ⟨gapRun, stops, rfl⟩ := Text.run?_eq_some_iff.mp readGap
  refine ⟨gap, ⟨_, word, ?_, wordRun, rfl⟩, gapRun, stops, ?_⟩
  · split
    · exact Or.inr rfl
    · exact Or.inl rfl
  · rw [List.append_assoc, afterMark]
    split
    · rename_i marked
      obtain ⟨tail, rfl⟩ := List.head?_eq_some_iff.mp marked
      rfl
    · rfl

theorem default?_spec {run : List Char} (found : default? cs = some (run, rest)) :
    Text.IsRun (· != ',') run ∧ (rest = [] ∨ ∃ more, rest = ',' :: more) ∧
      cs.takeWhile Text.isBlank ++ '=' :: (run ++ rest) = cs := by
  obtain ⟨afterSign, sign, read⟩ := Option.bind_eq_some_iff.mp found
  obtain ⟨isRun, stops, rfl⟩ := Text.run?_eq_some_iff.mp read
  refine ⟨isRun, ?_, ?_⟩
  · cases rest with
    | nil => exact Or.inl rfl
    | cons c more =>
        obtain rfl : c = ',' := by simpa using Text.stops_cons.mp stops
        exact Or.inr ⟨more, rfl⟩
  · rw [← Text.after?_eq_some.mp sign, List.takeWhile_append_dropWhile]

theorem named?_spec {name : List Char} (found : named? cs = some (name, rest)) :
    Text.IsRun Text.isWord name ∧ Text.Stops Text.isWord rest ∧ '$' :: (name ++ rest) = cs := by
  obtain ⟨afterSigil, _, read⟩ := Option.bind_eq_some_iff.mp found
  obtain ⟨isRun, stops, _⟩ := Text.run?_eq_some_iff.mp read
  exact ⟨isRun, stops, eq_of_named? found⟩

theorem heading?_spec {type : Option (List Char × List Char)} {name : List Char}
    (found : heading? cs = some (type, name, rest)) :
    (∀ text gap, type = some (text, gap) → IsTypeName text ∧ Text.IsRun Text.isBlank gap) ∧
      Text.IsRun Text.isWord name ∧ Text.Stops Text.isWord rest ∧
      (type.elim [] fun (text, gap) => text ++ gap) ++ '$' :: (name ++ rest) = cs := by
  simp only [heading?, Option.or_eq_some_iff, Option.bind_eq_some_iff, Option.map_eq_some_iff,
    Prod.mk.injEq] at found
  rcases found with ⟨⟨text, afterType⟩, typed, ⟨_, _⟩, named, rfl, rfl, rfl⟩ |
    ⟨_, ⟨_, _⟩, named, rfl, rfl, rfl⟩
  · obtain ⟨gap, typeName, gapRun, stops, rfl⟩ := type?_spec typed
    obtain ⟨isRun, ends, written⟩ := named?_spec named
    rw [List.drop_left, Text.takeWhile_append_of_stops gapRun.2 stops]
    refine ⟨?_, isRun, ends, ?_⟩
    · rintro _ _ ⟨⟩
      exact ⟨typeName, gapRun⟩
    · rw [written, Option.elim_some, List.append_assoc]
  · obtain ⟨isRun, ends, written⟩ := named?_spec named
    refine ⟨?_, isRun, ends, written⟩
    intro _ _ typed
    contradiction

theorem tailOf_spec (cs : List Char) :
    (∀ blanks run, (tailOf cs).1 = some (blanks, run) → Text.AllBlank blanks ∧
        Text.IsRun (· != ',') run ∧ ((tailOf cs).2 = [] ∨ ∃ more, (tailOf cs).2 = ',' :: more)) ∧
      ((tailOf cs).1.elim [] fun (blanks, run) => blanks ++ '=' :: run) ++ (tailOf cs).2 = cs := by
  cases found : default? cs with
  | none =>
      rw [tailOf, found]
      refine ⟨?_, rfl⟩
      intro _ _ present
      contradiction
  | some read =>
      obtain ⟨run, rest⟩ := read
      obtain ⟨isRun, ends, split⟩ := default?_spec found
      rw [tailOf, found]
      refine ⟨?_, ?_⟩
      · rintro _ _ ⟨⟩
        exact ⟨fun c member => List.mem_takeWhile_imp member, isRun, ends⟩
      · rwa [Option.elim_some, List.append_assoc, List.cons_append]

theorem stands_of_form {before : Option Char} {site : Site}
    (found : form before cs = some (site, rest)) : site.Stands rest ∧ site.toList ++ rest = cs := by
  obtain ⟨⟨type, name, after⟩, heading, equal⟩ := Option.map_eq_some_iff.mp found
  obtain ⟨rfl, rfl⟩ := Prod.mk.inj equal
  obtain ⟨typeName, isRun, stops, written⟩ := heading?_spec heading
  obtain ⟨default, split⟩ := tailOf_spec after
  refine ⟨⟨typeName, isRun, ?_, default⟩, ?_⟩
  · rwa [tail, split]
  · rw [toList, List.append_assoc, List.cons_append, List.append_assoc, tail, split]
    exact written

end Reading

theorem toList_ne_nil (site : Site) : site.toList ≠ [] := by
  simp [toList]

/-- A parameter is read wherever a sigil stands before a word. -/
theorem form_ne_none (before : Option Char) {c : Char} (word : Text.isWord c = true)
    (right : List Char) : form before ('$' :: c :: right) ≠ none := by
  rw [form, Ne, Option.map_eq_none_iff, heading?, Option.or_eq_none_iff, Option.map_eq_none_iff]
  rintro ⟨_, missing⟩
  rw [named?, Text.after?, if_pos rfl, Option.bind_some, Text.run?_eq_none_iff, Text.stops_cons,
    word] at missing
  contradiction

theorem consumes_form : form.Consumes := by
  intro before cs site rest found
  exact ⟨site.toList, site.toList_ne_nil, (stands_of_form found).2⟩

theorem takes_form : form.Takes fun site => Text.byteLength site.toList := by
  intro before taken rest site found
  rw [← List.append_cancel_right (stands_of_form found).2]

/-- The byte offset of the sigil. -/
def sigil (place : Nat × Site) : Nat := place.1 + Text.byteLength place.2.heading

/-- The byte range of the default, from its sign to the next comma or the end. -/
def defaultRange? (place : Nat × Site) : Option (Nat × Nat) :=
  place.2.default.map fun (blanks, run) =>
    let first := sigil place + Text.byteLength ('$' :: (place.2.name ++ (blanks ++ ['='])))
    (first, first + Text.byteLength run)

def InDefault (place : Nat × Site) (offset : Nat) : Prop :=
  ∃ range ∈ defaultRange? place, range.1 ≤ offset ∧ offset < range.2

section Sigils

variable {site : Site} {after left right : List Char}

theorem Stands.notMem_heading (stands : site.Stands after) : '$' ∉ site.heading := by
  rw [heading]
  cases present : site.type with
  | none => exact List.not_mem_nil
  | some typed =>
      obtain ⟨type, gap⟩ := typed
      obtain ⟨⟨mark, word, marked, wordRun, rfl⟩, gapRun⟩ := stands.type _ _ present
      rw [Option.elim_some, List.mem_append, List.mem_append]
      rintro ((inMark | inWord) | inGap)
      · rcases marked with rfl | rfl <;> revert inMark <;> decide
      · exact absurd (wordRun.2 '$' inWord) (by decide)
      · exact absurd (gapRun.2 '$' inGap) (by decide)

/-- A sigil inside a parameter is its own or stands in its default. -/
theorem Stands.sigil_cases (stands : site.Stands after)
    (split : left ++ '$' :: right = site.toList) :
    left = site.heading ∨ ∃ blanks run inner, site.default = some (blanks, run) ∧
      site.heading ++ '$' :: (site.name ++ (blanks ++ '=' :: inner)) = left ∧
      inner ++ '$' :: right = run := by
  obtain ⟨beyond, rfl, rest⟩ := Text.append_of_notMem split stands.notMem_heading
  cases beyond with
  | nil => exact Or.inl (List.append_nil _)
  | cons d beyond =>
      right
      obtain ⟨rfl, afterSigil⟩ := List.cons.inj rest
      have notName : '$' ∉ site.name := fun member => absurd (stands.name.2 '$' member) (by decide)
      obtain ⟨inTail, rfl, afterName⟩ := Text.append_of_notMem afterSigil notName
      cases present : site.default with
      | none => simp [tail, present] at afterName
      | some written =>
          obtain ⟨blanks, run⟩ := written
          have blank := (stands.default _ _ present).1
          have notSign : '$' ∉ blanks ++ ['='] := by
            rw [List.mem_append, List.mem_singleton]
            rintro (inBlanks | sign)
            · exact absurd (blank '$' inBlanks) (by decide)
            · exact absurd sign (by decide)
          have signed : inTail ++ '$' :: right = (blanks ++ ['=']) ++ run := by
            rw [afterName, tail, present, List.append_assoc]
            rfl
          obtain ⟨inner, rfl, afterSign⟩ := Text.append_of_notMem signed notSign
          refine ⟨blanks, run, inner, rfl, ?_, afterSign⟩
          simp only [List.append_assoc, List.cons_append, List.nil_append]

variable {place : Nat × Site} {before : List Char} {offset : Nat}

theorem inDefault_bounds (inDefault : InDefault place offset) :
    sigil place < offset ∧ offset < place.1 + Text.byteLength place.2.toList := by
  obtain ⟨range, present, first, last⟩ := inDefault
  obtain ⟨⟨blanks, run⟩, written, rfl⟩ := Option.map_eq_some_iff.mp present
  have sign : 0 < Text.byteLength ('$' :: (place.2.name ++ (blanks ++ ['=']))) :=
    Text.byteLength_pos (List.cons_ne_nil _ _)
  simp only [sigil, toList, tail, written, Option.elim_some, Text.byteLength_append,
    Text.byteLength_cons, Text.byteLength_nil] at first last sign ⊢
  omega

theorem sigil_bounds (place : Nat × Site) :
    place.1 ≤ sigil place ∧ sigil place < place.1 + Text.byteLength place.2.toList := by
  have dollar := Char.utf8Size_pos '$'
  simp only [sigil, toList, Text.byteLength_append, Text.byteLength_cons]
  omega

theorem sigil_or_inDefault (stands : place.2.Stands after)
    (split : before ++ (place.2.toList ++ after) = left ++ '$' :: right)
    (start : place.1 = Text.byteLength before) (first : place.1 ≤ Text.byteLength left)
    (last : Text.byteLength left < place.1 + Text.byteLength place.2.toList) :
    sigil place = Text.byteLength left ∨ InDefault place (Text.byteLength left) := by
  rcases Text.append_cases split.symm with ⟨within, present, rfl, _⟩ | ⟨part, rfl, below⟩
  · have positive := Text.byteLength_pos present
    rw [start, Text.byteLength_append] at first
    omega
  rcases Text.append_cases below with ⟨within, present, inside, rest⟩ | ⟨beyond, rfl, _⟩
  · obtain ⟨c, more, rfl⟩ := List.exists_cons_of_ne_nil present
    obtain ⟨rfl, _⟩ := List.cons.inj rest
    rcases stands.sigil_cases inside with rfl | ⟨blanks, run, inner, written, rfl, rfl⟩
    · left
      rw [sigil, start, Text.byteLength_append]
    · right
      refine ⟨_, Option.map_eq_some_iff.mpr ⟨_, written, rfl⟩, ?_⟩
      have dollar := Char.utf8Size_pos '$'
      simp only [sigil, start, Text.byteLength_append, Text.byteLength_cons, Text.byteLength_nil]
      omega
  · rw [start, Text.byteLength_append, Text.byteLength_append] at last
    omega

end Sigils

/-- The parameters of a list stand in it in order and apart, each with its name after its sigil.
Each sigil before a word is the sigil of one of them or lies in the default of one, and has to do
with no other. -/
theorem declared_places_every_sigil (list : String) :
    declared list = (all list).map (fun (_, site) => site.parameter) ∧
      (∀ offset site, (offset, site) ∈ all list → ∃ before after,
        before ++ (site.toList ++ after) = list.toList ∧ offset = Text.byteLength before ∧
          site.Stands after) ∧
      ((all list).Pairwise fun first second =>
        first.1 + Text.byteLength first.2.toList ≤ second.1) ∧
      ∀ left c right, left ++ '$' :: c :: right = list.toList → Text.isWord c = true →
        ∃ place ∈ all list,
          (sigil place = Text.byteLength left ∨ InDefault place (Text.byteLength left)) ∧
          ¬ (sigil place = Text.byteLength left ∧ InDefault place (Text.byteLength left)) ∧
          ∀ other ∈ all list,
            sigil other = Text.byteLength left ∨ InDefault other (Text.byteLength left) →
            other = place := by
  have cut := Text.cut_occurrencesFrom consumes_form none 0 list.toList
  have standing : ∀ offset site, (offset, site) ∈ all list → ∃ before after,
      before ++ (site.toList ++ after) = list.toList ∧ offset = Text.byteLength before ∧
        site.Stands after := by
    intro offset site member
    obtain ⟨before, below, whole, start, after, read⟩ := cut.mem member
    obtain ⟨stands, rfl⟩ := stands_of_form read
    exact ⟨before, after, whole, by rw [start, Nat.zero_add], stands⟩
  refine ⟨declared_eq list, standing, cut.pairwise takes_form, ?_⟩
  intro left c right split word
  have reads := form_ne_none (Text.lastOf none left) word right
  obtain ⟨offset, site, member, first, last⟩ :=
    cut.covers takes_form split (List.cons_ne_nil _ _) reads
  rw [Nat.zero_add] at first last
  obtain ⟨before, after, whole, start, stands⟩ := standing offset site member
  have role := @sigil_or_inDefault after left (c :: right) (offset, site) before stands
    (whole.trans split.symm) start first last
  refine ⟨(offset, site), member, role, ?_, ?_⟩
  · rintro ⟨same, inDefault⟩
    have after := (inDefault_bounds inDefault).1
    omega
  · intro other otherMember otherRole
    have otherBounds : other.1 ≤ Text.byteLength left ∧
        Text.byteLength left < other.1 + Text.byteLength other.2.toList := by
      have bounds := sigil_bounds other
      rcases otherRole with same | inDefault
      · omega
      · have inside := inDefault_bounds inDefault
        omega
    rcases cut.eq_or_apart takes_form otherMember member with same | apart
    · exact same
    · dsimp only at apart
      omega

/-- The first sigil follows a mark, the third lies in a default that a comma ends, and nothing is read
off the fourth. -/
theorem declared_places_every_sigil_reference :
    let list := "int &$a, ?T $b = f($c, $$d"
    let place : Nat × Site := (9, ⟨some ("?T".toList, [' ']), ['b'], some ([' '], " f($c".toList)⟩)
    all list = [(5, ⟨none, ['a'], none⟩), place, (24, ⟨none, ['d'], none⟩)] ∧
      declared list = [⟨none, "a", none⟩, ⟨some "?T", "b", some "f($c"⟩, ⟨none, "d", none⟩] ∧
      "int &$a, ?T $b = f(".toList ++ '$' :: 'c' :: ", $$d".toList = list.toList ∧
      Text.isWord 'c' = true ∧ place ∈ all list ∧ InDefault place 19 ∧ sigil place ≠ 19 := by
  intro list place
  have found : all list = [(5, ⟨none, ['a'], none⟩), place, (24, ⟨none, ['d'], none⟩)] := by
    decide +kernel
  have split : "int &$a, ?T $b = f(".toList ++ '$' :: 'c' :: ", $$d".toList = list.toList := by decide
  have offset : Text.byteLength "int &$a, ?T $b = f(".toList = 19 := by decide
  have member : place ∈ all list := by simp [found]
  have inDefault : InDefault place 19 := ⟨(16, 21), by decide, by decide⟩
  obtain ⟨declared_eq, _, _, sigils⟩ := declared_places_every_sigil list
  obtain ⟨one, _, _, single, only⟩ := sigils _ 'c' _ split (by decide)
  rw [offset] at single only
  obtain rfl := only place member (Or.inr inDefault)
  rw [found] at declared_eq
  exact ⟨found, declared_eq, split, by decide, member, inDefault,
    fun same => single ⟨same, inDefault⟩⟩

end Site

end DocBlock
