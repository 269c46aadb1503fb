import DocBlock.Proofs.Extent

/-! The byte ranges of bodies. Main statements: two bodies of one text are apart or one lies in the
other, wherever the searches for them start, and the body of a declaration begins below it, at the
first brace outside the parentheses that its parameter list leaves open. -/

namespace DocBlock

namespace Body

/-- The byte range from the opening brace to the end of the body; none if there is no body. -/
def range? (code : String) (start : Nat) : Option (Nat × Nat) :=
  ((Text.dropBytes? start code.toList).bind (opening? 0)).map fun fromBrace =>
    let first := Text.byteLength code.toList - Text.byteLength fromBrace
    (first, first + Text.byteLength (extract code start).span)

def Apart (range other : Nat × Nat) : Prop := range.2 ≤ other.1 ∨ other.2 ≤ range.1

def Within (range other : Nat × Nat) : Prop := other.1 ≤ range.1 ∧ range.2 ≤ other.2

/-- The ranges do not overlap, or only so that one of them holds all of the other. -/
def Nests (range other : Nat × Nat) : Prop :=
  Apart range other ∨ Within range other ∨ Within other range

/-- The search from an offset stops at the brace between these two parts of the text. -/
structure Opens (code : String) (start : Nat) (above inner : List Char) : Prop where
  split : above ++ '{' :: inner = code.toList
  found : (Text.dropBytes? start code.toList).bind (opening? 0) = some ('{' :: inner)

/-- The byte range of a body that begins after this part of a text. -/
def rangeAfter (above : List Char) (body : Body) : Nat × Nat :=
  (Text.byteLength above, Text.byteLength above + Text.byteLength body.span)

/-- The offset lies inside the range. -/
def Holds (range : Nat × Nat) (offset : Nat) : Prop := range.1 ≤ offset ∧ offset < range.2

theorem opening?_eq_some_iff {depth : Nat} {cs rest : List Char} :
    opening? depth cs = some rest ↔
      ∃ passed inner, FirstMark depth cs passed '{' inner ∧ '{' :: inner = rest := by
  constructor
  · intro found
    obtain ⟨⟨passed, rfl⟩, inner, rfl⟩ := opening?_spec found
    exact ⟨passed, inner, firstMark_of_opening? found, rfl⟩
  · rintro ⟨passed, inner, first, rfl⟩
    rw [first.opening?_eq, if_pos rfl]

section Range

variable {code : String} {start : Nat} {above inner : List Char} {range : Nat × Nat}

theorem Opens.range?_eq (opens : Opens code start above inner) :
    range? code start = some ((extract code start).rangeAfter above) := by
  have first : Text.byteLength code.toList - Text.byteLength ('{' :: inner) =
      Text.byteLength above := by
    rw [← opens.split, Text.byteLength_append, Nat.add_sub_cancel_right]
  rw [range?, opens.found, Option.map_some, first, rangeAfter]

theorem exists_opens_of_range? (found : range? code start = some range) :
    ∃ above inner, Opens code start above inner ∧ range = (extract code start).rangeAfter above := by
  obtain ⟨fromBrace, searched, _⟩ := Option.map_eq_some_iff.mp found
  obtain ⟨below, dropped, opened⟩ := Option.bind_eq_some_iff.mp searched
  obtain ⟨passed, inner, first, rfl⟩ := opening?_eq_some_iff.mp opened
  obtain ⟨front, whole, _⟩ := Text.exists_append_of_dropBytes? dropped
  have opens : Opens code start (front ++ passed) inner :=
    ⟨by rw [List.append_assoc, first.split, whole], searched⟩
  exact ⟨front ++ passed, inner, opens, Option.some.inj (found.symm.trans opens.range?_eq)⟩

theorem range?_eq_none_iff : range? code start = none ↔ extract code start = .absent := by
  rw [range?, Option.map_eq_none_iff, extract]
  cases dropped : Text.dropBytes? start code.toList with
  | none => exact iff_of_true rfl rfl
  | some below =>
      rw [Option.bind_some]
      rcases ofText_cases below with ⟨missing, absent⟩ | ⟨inner, opened, ending⟩
      · exact iff_of_true missing absent
      · apply iff_of_false
        · rw [opened]
          exact Option.some_ne_none _
        · rcases ending with ⟨span, _, _, closed⟩ | ⟨_, open_⟩
          · simp [closed]
          · simp [open_]

/-- What a search finds depends on nothing but the brace at which it stops. -/
theorem Opens.extract_eq (opens : Opens code start above inner) :
    extract code start = ofText ('{' :: inner) := by
  obtain ⟨below, dropped, opened⟩ := Option.bind_eq_some_iff.mp opens.found
  have again : opening? 0 ('{' :: inner) = some ('{' :: inner) := by simp [opening?]
  rw [extract, dropped]
  exact ofText_congr (opened.trans again.symm)

theorem Opens.encloses (opens : Opens code start above inner) :
    Encloses ('{' :: inner) (extract code start) := by
  rw [opens.extract_eq]
  apply encloses_ofText
  simp [opening?]

/-- The range begins at the first brace outside parentheses, counted from the offset on, if no
semicolon outside them comes first, and holds what the search finds. -/
structure Located (code : String) (start : Nat) (range : Nat × Nat) : Prop where
  first : ∃ below passed inner, Text.dropBytes? start code.toList = some below ∧
    FirstMark 0 below passed '{' inner ∧ range.1 = start + Text.byteLength passed
  slice : Text.slice? range.1 range.2 code.toList = some (extract code start).span

theorem located_of_range? (found : range? code start = some range) : Located code start range := by
  obtain ⟨above, inner, opens, rfl⟩ := exists_opens_of_range? found
  constructor
  · obtain ⟨below, dropped, opened⟩ := Option.bind_eq_some_iff.mp opens.found
    obtain ⟨passed, rest, first, same⟩ := opening?_eq_some_iff.mp opened
    obtain ⟨front, whole, length⟩ := Text.exists_append_of_dropBytes? dropped
    have above_eq : front ++ passed = above := by
      have both : (front ++ passed) ++ '{' :: inner = above ++ '{' :: inner := by
        rw [opens.split, ← same, List.append_assoc, first.split, whole]
      exact List.append_cancel_right both
    refine ⟨below, passed, rest, dropped, first, ?_⟩
    rw [rangeAfter, ← above_eq, Text.byteLength_append, length]
  · obtain ⟨rest, equal⟩ := opens.encloses.span_prefix
    rw [← opens.split, ← equal]
    exact Text.slice?_append _ _ _

theorem below_of_range? (found : range? code start = some range) :
    (extract code start).below = '\n' :: (extract code start).span := by
  obtain ⟨above, inner, opens, _⟩ := exists_opens_of_range? found
  rcases below_ofText ('{' :: inner) with ⟨absent, _⟩ | ⟨rest, span, below⟩
  · rw [range?_eq_none_iff.mpr (opens.extract_eq.trans absent)] at found
    contradiction
  · rw [opens.extract_eq, span, below]

end Range

section Nesting

variable {text later between tail : List Char} {body other : Body}

theorem Encloses.closed_or_unterminated (encloses : Encloses text body) :
    (∃ span, body = .closed span) ∨ body = .unterminated text := by
  by_cases balances : ∃ span, Balances text span
  · exact Or.inl (encloses.closes_iff.mpr balances)
  · exact Or.inr ((encloses.unterminated_iff text).mpr ⟨rfl, balances⟩)

/-- A part from the brace on that holds as many closing braces as opening ones holds the body. -/
theorem Encloses.closed_within (encloses : Encloses text body) (within : tail <+: text)
    (present : tail ≠ []) (spent : tail.count '{' ≤ tail.count '}') :
    ∃ span, body = .closed span ∧ span <+: tail := by
  rcases encloses.closed_or_unterminated with ⟨span, closed⟩ | unterminated
  · refine ⟨span, closed, ?_⟩
    have spanWithin := ((encloses.closed_iff span).mp closed).1.within
    rcases List.prefix_or_prefix_of_prefix within spanWithin with ⟨right, split⟩ | shorter
    · by_cases more : right = []
      · rw [← split, more, List.append_nil]
      · have unfinished := (encloses.group span closed).inside tail right split present more
        omega
    · exact shorter
  · have more := encloses.staysOpen text unterminated tail within present
    omega

/-- Of two bodies the one that opens first ends before the other opens, or holds all of it; and then
the other closes if the first does. -/
theorem Encloses.before_or_around (first : Encloses text body) (second : Encloses later other)
    (split : between ++ later = text) :
    body.span <+: between ∨
      (∃ rest, between ++ (other.span ++ rest) = body.span) ∧
        (body.state = .closed → other.state = .closed) := by
  rcases first.closed_or_unterminated with ⟨span, rfl⟩ | rfl
  · have group := first.group span rfl
    have within := ((first.closed_iff span).mp rfl).1.within
    have begins : between <+: text := ⟨later, split⟩
    rcases List.prefix_or_prefix_of_prefix within begins with ends | ⟨tail, rfl⟩
    · exact Or.inl ends
    by_cases present : tail = []
    · left
      rw [present, List.append_nil]
      exact List.prefix_rfl
    right
    have inside : tail <+: later := by
      rw [← split] at within
      exact (List.prefix_append_right_inj between).mp within
    have spent : tail.count '{' ≤ tail.count '}' := by
      have balanced := group.balanced
      rw [List.count_append, List.count_append] at balanced
      by_cases start : between = []
      · rw [start, List.count_nil, List.count_nil] at balanced
        omega
      · have unfinished := group.inside between tail rfl start present
        omega
    obtain ⟨inner, rfl, rest, equal⟩ := second.closed_within inside present spent
    exact ⟨⟨rest, congrArg (between ++ ·) equal⟩, fun _ => rfl⟩
  · right
    obtain ⟨rest, equal⟩ := second.span_prefix
    refine ⟨⟨rest, ?_⟩, ?_⟩
    · rw [equal, split]
      rfl
    · intro closed
      contradiction

end Nesting

section Ranges

variable {code : String} {start other : Nat} {above between inner below : List Char}
  {range otherRange : Nat × Nat}

theorem Opens.before_or_around (first : Opens code start above inner)
    (second : Opens code other (above ++ between) below) :
    ((extract code start).rangeAfter above).2 ≤ ((extract code other).rangeAfter (above ++ between)).1 ∨
      Within ((extract code other).rangeAfter (above ++ between))
          ((extract code start).rangeAfter above) ∧
        ((extract code start).state = .closed → (extract code other).state = .closed) := by
  have split : between ++ '{' :: below = '{' :: inner := by
    have same : above ++ (between ++ '{' :: below) = above ++ '{' :: inner := by
      rw [← List.append_assoc, second.split, first.split]
    exact List.append_cancel_left same
  rcases first.encloses.before_or_around second.encloses split with ⟨rest, ends⟩ | ⟨⟨rest, holds⟩, closes⟩
  · left
    have length := congrArg Text.byteLength ends
    simp only [rangeAfter, Text.byteLength_append] at length ⊢
    omega
  · right
    refine ⟨?_, closes⟩
    have length := congrArg Text.byteLength holds
    simp only [Within, rangeAfter, Text.byteLength_append] at length ⊢
    omega

theorem nests_of_range? (found : range? code start = some range)
    (otherFound : range? code other = some otherRange) :
    Nests range otherRange ∧
      ((extract code start).state = .closed → (extract code other).state = .unterminated →
        ¬ Holds range otherRange.1) := by
  obtain ⟨above, inner, first, rfl⟩ := exists_opens_of_range? found
  obtain ⟨front, below, second, rfl⟩ := exists_opens_of_range? otherFound
  rcases Text.append_cases (first.split.trans second.split.symm) with
    ⟨between, _, rfl, _⟩ | ⟨between, rfl, _⟩
  · rcases first.before_or_around second with before | ⟨around, closes⟩
    · refine ⟨Or.inl (Or.inl before), ?_⟩
      rintro _ _ ⟨_, inside⟩
      exact absurd before (Nat.not_le.mpr inside)
    · refine ⟨Or.inr (Or.inr around), ?_⟩
      intro closed unterminated
      rw [closes closed] at unterminated
      contradiction
  · have nests : Nests ((extract code start).rangeAfter (front ++ between))
        ((extract code other).rangeAfter front) := by
      rcases second.before_or_around first with before | ⟨around, _⟩
      · exact Or.inl (Or.inr before)
      · exact Or.inr (Or.inl around)
    refine ⟨nests, ?_⟩
    rintro closed unterminated ⟨notAfter, _⟩
    -- The brace that opens first lies inside the range only if both searches stop at it.
    have together : between = [] := by
      by_contra apart
      have positive := Text.byteLength_pos apart
      simp only [rangeAfter, Text.byteLength_append] at notAfter
      omega
    subst together
    rw [List.append_nil] at first
    have same := List.append_cancel_left (first.split.trans second.split.symm)
    rw [first.extract_eq, same, ← second.extract_eq, unterminated] at closed
    contradiction

end Ranges

end Body

theorem Declaration.dropBytes?_stop {code : String} {block : Block} {before after : List Char}
    (split : before ++ (block.toList ++ after) = code.toList) :
    Text.dropBytes? (ofBlock (Text.byteLength before) block).stop code.toList = some after := by
  rw [stop_ofBlock, ← Text.byteLength_append, ← split, ← List.append_assoc, Text.dropBytes?_byteLength]

namespace Function

/-- The byte range of the body in the source. -/
def bodyRange? (code : String) (function : Function) : Option (Nat × Nat) :=
  Body.range? code function.offset

variable {code : String} {declaration : Declaration} {range : Nat × Nat}

theorem bodyState_eq_absent_iff :
    (ofDeclaration code declaration).bodyState = .absent ↔
      Body.range? code declaration.start = none := by
  rw [Body.range?_eq_none_iff]
  change (Body.extract code declaration.start).state = .absent ↔ _
  cases Body.extract code declaration.start <;> simp [Body.state]

theorem toList_body_of_range? (found : Body.range? code declaration.start = some range) :
    (ofDeclaration code declaration).body.toList =
      declaration.text.toList ++ '\n' :: (Body.extract code declaration.start).span := by
  rw [toList_body, Declaration.toList_text, Body.below_of_range? found]

theorem body_eq_text_iff :
    (ofDeclaration code declaration).body = declaration.text ↔
      Body.range? code declaration.start = none := by
  cases found : Body.range? code declaration.start with
  | none =>
      have missing := Body.range?_eq_none_iff.mp found
      rw [ofDeclaration, missing]
      exact iff_of_true rfl rfl
  | some range =>
      apply iff_of_false
      · intro same
        have length := congrArg (fun body => body.toList.length) same
        simp only [toList_body_of_range? found, List.length_append, List.length_cons] at length
        omega
      · exact Option.some_ne_none range

section Standing

variable {block : Declaration.Block} {before after passed inner : List Char}

/-- The search for the body goes on below the signature. -/
theorem searched_below (split : before ++ (block.toList ++ after) = code.toList)
    (stands : block.Stands before after) :
    (Text.dropBytes? (Declaration.ofBlock (Text.byteLength before) block).start code.toList).bind
        (Body.opening? 0) = Body.opening? (block.signature.parameters.count '(') after := by
  rw [Declaration.dropBytes?_start split, Option.bind_some,
    Signature.opening?_toList stands.wellFormed.signature]

theorem opens_below (split : before ++ (block.toList ++ after) = code.toList)
    (stands : block.Stands before after)
    (first : Body.FirstMark (block.signature.parameters.count '(') after passed '{' inner) :
    Body.Opens code (Declaration.ofBlock (Text.byteLength before) block).start
      (before ++ (block.toList ++ passed)) inner := by
  constructor
  · rw [← split, ← first.split]
    simp only [List.append_assoc]
  · rw [searched_below split stands, first.opening?_eq, if_pos rfl]

end Standing

/-- The body of a declaration lies below it. It begins at the first brace outside the parentheses
that the parameter list leaves open, if no semicolon outside them comes first. -/
theorem ofDeclaration_body_below (member : declaration ∈ Declaration.scan code) :
    ((ofDeclaration code declaration).bodyState = .absent ↔
        (ofDeclaration code declaration).body = declaration.text) ∧
      ∃ after, Text.dropBytes? declaration.stop code.toList = some after ∧
        ((ofDeclaration code declaration).bodyState ≠ .absent ↔ ∃ passed inner,
          Body.FirstMark (declaration.parameterList.toList.count '(') after passed '{' inner) ∧
        ∀ passed inner,
          Body.FirstMark (declaration.parameterList.toList.count '(') after passed '{' inner →
          ∃ stop, Body.range? code declaration.start =
              some (declaration.stop + Text.byteLength passed, stop) ∧
            Text.slice? (declaration.stop + Text.byteLength passed) stop code.toList =
              some (Body.extract code declaration.start).span ∧
            (ofDeclaration code declaration).body.toList =
              declaration.text.toList ++ '\n' :: (Body.extract code declaration.start).span := by
  refine ⟨bodyState_eq_absent_iff.trans body_eq_text_iff.symm, ?_⟩
  obtain ⟨block, before, after, split, rfl, stands⟩ := Declaration.mem_scan member
  have parameters : (Declaration.ofBlock (Text.byteLength before) block).parameterList.toList =
      block.signature.parameters := String.toList_ofList
  rw [parameters]
  refine ⟨after, Declaration.dropBytes?_stop split, ?_, ?_⟩
  · rw [Ne, bodyState_eq_absent_iff, Body.range?, Option.map_eq_none_iff,
      searched_below split stands, ← Ne, Option.ne_none_iff_exists']
    constructor
    · rintro ⟨fromBrace, opened⟩
      obtain ⟨passed, inner, first, _⟩ := Body.opening?_eq_some_iff.mp opened
      exact ⟨passed, inner, first⟩
    · rintro ⟨passed, inner, first⟩
      exact ⟨_, Body.opening?_eq_some_iff.mpr ⟨passed, inner, first, rfl⟩⟩
  · intro passed inner first
    have found := (opens_below split stands first).range?_eq
    have start : Text.byteLength (before ++ (block.toList ++ passed)) =
        (Declaration.ofBlock (Text.byteLength before) block).stop + Text.byteLength passed := by
      rw [Declaration.stop_ofBlock, Text.byteLength_append, Text.byteLength_append, Nat.add_assoc]
    rw [Body.rangeAfter, start] at found
    exact ⟨_, found, (Body.located_of_range? found).slice, toList_body_of_range? found⟩

/-- A default leaves a parenthesis open, so the brace inside it does not begin the body. -/
theorem ofDeclaration_body_below_open_parenthesis :
    let code := "function f($a = g('\x7b;')): int\n\x7b return; \x7d\n"
    let declaration : Declaration :=
      ⟨none, 0, ⟨none, none, [' '], ['f'], [], "$a = g('\x7b;'".toList, none⟩⟩
    let passed := "): int\n".toList
    let span := "\x7b return; \x7d".toList
    declaration ∈ Declaration.scan code ∧ declaration.stop = 23 ∧
      Body.FirstMark 1 (passed ++ '{' :: " return; \x7d\n".toList) passed '{' " return; \x7d\n".toList ∧
      (ofDeclaration code declaration).bodyState ≠ .absent ∧
      Body.range? code declaration.start = some (30, 41) ∧
      Text.slice? 30 41 code.toList = some span ∧
      (ofDeclaration code declaration).body.toList = declaration.text.toList ++ '\n' :: span := by
  intro code declaration passed span
  have member : declaration ∈ Declaration.scan code := by decide +kernel
  have first : Body.FirstMark 1 (passed ++ '{' :: " return; \x7d\n".toList) passed '{'
      " return; \x7d\n".toList := Body.firstMark_of_opening? (by decide +kernel)
  have found : Body.extract code declaration.start = .closed span := by decide +kernel
  have depth : declaration.parameterList.toList.count '(' = 1 := by decide
  have start : declaration.stop + Text.byteLength passed = 30 := by decide
  obtain ⟨_, after, dropped, present, located⟩ := ofDeclaration_body_below member
  obtain rfl : passed ++ '{' :: " return; \x7d\n".toList = after :=
    Option.some.inj ((by decide +kernel : _ = _).symm.trans dropped)
  rw [depth] at present located
  obtain ⟨stop, range, slice, body⟩ := located _ _ first
  rw [found, start] at slice
  rw [found] at body
  rw [start] at range
  have whole : Body.range? code declaration.start = some (30, 41) := by decide +kernel
  obtain rfl : stop = 41 := (Prod.mk.inj (Option.some.inj (range.symm.trans whole))).2
  exact ⟨member, by decide, first, present.mpr ⟨_, _, first⟩, range, slice, body⟩

/-- Bodies form a laminar family: wherever two searches start, the ranges of what they find are
apart or one lies in the other, and a body that closes holds no opening brace of one that does not.
So it is with the bodies of the functions of a source. -/
theorem ofSource_bodies_nest (code : String) :
    (∀ start, Body.range? code start = none ↔ Body.extract code start = .absent) ∧
      (∀ start range, Body.range? code start = some range → Body.Located code start range) ∧
      (∀ start other range otherRange, Body.range? code start = some range →
        Body.range? code other = some otherRange →
        Body.Nests range otherRange ∧
          ((Body.extract code start).state = .closed →
            (Body.extract code other).state = .unterminated → ¬ Body.Holds range otherRange.1)) ∧
      (∀ function ∈ ofSource code,
        (function.bodyState = .absent ↔ function.bodyRange? code = none) ∧
          ∀ range, function.bodyRange? code = some range →
            ∃ declaration span, function.body.toList = declaration ++ '\n' :: span ∧
              Text.slice? range.1 range.2 code.toList = some span) ∧
      ∀ function ∈ ofSource code, ∀ other ∈ ofSource code, ∀ range otherRange,
        function.bodyRange? code = some range → other.bodyRange? code = some otherRange →
        Body.Nests range otherRange := by
  refine ⟨fun _ => Body.range?_eq_none_iff, fun _ _ => Body.located_of_range?, ?_, ?_, ?_⟩
  · intro start other range otherRange found otherFound
    exact Body.nests_of_range? found otherFound
  · intro function member
    obtain ⟨declaration, _, rfl⟩ := List.mem_map.mp member
    refine ⟨bodyState_eq_absent_iff, ?_⟩
    intro range found
    exact ⟨_, _, toList_body_of_range? found, (Body.located_of_range? found).slice⟩
  · intro function _ other _ range otherRange found otherFound
    exact (Body.nests_of_range? found otherFound).1

/-- The second function lies in the first, and the third never closes. -/
theorem ofSource_bodies_nest_three_functions :
    let code := "function a() \x7b\n function b() \x7b\x7d\n\x7d\nfunction c() \x7b\n"
    Body.range? code 0 = some (13, 33) ∧ Body.range? code 16 = some (29, 31) ∧
      Body.range? code 34 = some (47, 49) ∧ Body.Located code 0 (13, 33) ∧
      Body.Nests (13, 33) (29, 31) ∧ Body.Nests (29, 31) (47, 49) ∧
      (Body.extract code 0).state = .closed ∧ (Body.extract code 34).state = .unterminated ∧
      ¬ Body.Holds (13, 33) 47 := by
  intro code
  have first : Body.range? code 0 = some (13, 33) := by decide +kernel
  have second : Body.range? code 16 = some (29, 31) := by decide +kernel
  have third : Body.range? code 34 = some (47, 49) := by decide +kernel
  have closed : (Body.extract code 0).state = .closed := by decide +kernel
  have unterminated : (Body.extract code 34).state = .unterminated := by decide +kernel
  obtain ⟨_, located, nest, _⟩ := ofSource_bodies_nest code
  exact ⟨first, second, third, located 0 _ first, (nest 0 16 _ _ first second).1,
    (nest 16 34 _ _ second third).1, closed, unterminated,
    (nest 0 34 _ _ first third).2 closed unterminated⟩

end Function

end DocBlock
