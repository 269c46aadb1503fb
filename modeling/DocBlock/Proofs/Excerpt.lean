import DocBlock.Function
import DocBlock.Proofs.Body
import DocBlock.Proofs.Declaration

/-! The text of a function read as a source of its own. Main statement: it begins with that function
again, body and all, exactly if the parameter list leaves no parenthesis open or there is no body. -/

namespace DocBlock

namespace Body

/-- The search stops at a brace of the text. -/
theorem opening?_spec {depth : Nat} {cs rest : List Char} (found : opening? depth cs = some rest) :
    rest <:+ cs ∧ ∃ inner, rest = '{' :: inner := by
  induction cs generalizing depth with
  | nil => contradiction
  | cons c cs ih =>
      have further {inner : Nat} (later : opening? inner cs = some rest) :
          rest <:+ c :: cs ∧ ∃ inner, rest = '{' :: inner := by
        obtain ⟨suffix, brace⟩ := ih later
        exact ⟨suffix.trans (List.suffix_cons c cs), brace⟩
      unfold opening? at found
      split at found
      · exact further found
      split at found
      · exact further found
      split at found
      · contradiction
      split at found
      · rename_i opens
        obtain rfl := Option.some.inj found
        exact ⟨List.suffix_refl _, cs, by rw [opens.1]⟩
      · exact further found

theorem ofText_congr {left right : List Char} (same : opening? 0 left = opening? 0 right) :
    ofText left = ofText right := by
  rw [ofText, ofText, same]

theorem ofText_cases (cs : List Char) :
    (opening? 0 cs = none ∧ ofText cs = .absent) ∨ ∃ inner, opening? 0 cs = some ('{' :: inner) ∧
      ((∃ span, Closes 0 span ∧ span <+: inner ∧ ofText cs = .closed ('{' :: span)) ∨
        (closing? 0 inner = none ∧ ofText cs = .unterminated ('{' :: inner))) := by
  cases opened : opening? 0 cs with
  | none =>
      left
      rw [ofText, opened]
      exact ⟨rfl, rfl⟩
  | some rest =>
      right
      obtain ⟨_, inner, rfl⟩ := opening?_spec opened
      refine ⟨inner, rfl, ?_⟩
      cases closed : closing? 0 inner with
      | none =>
          right
          simp only [ofText, opened, closed, and_self]
      | some span =>
          left
          obtain ⟨closes, within⟩ := closing?_eq_some_iff.mp closed
          refine ⟨span, closes, within, ?_⟩
          simp only [ofText, opened, closed]

theorem length_span_ofText_le (cs : List Char) : (ofText cs).span.length ≤ cs.length := by
  rcases ofText_cases cs with ⟨_, absent⟩ | ⟨inner, opened, ending⟩
  · rw [absent]
    exact Nat.zero_le _
  · have room := (opening?_spec opened).1.length_le
    rw [List.length_cons] at room
    rcases ending with ⟨span, _, within, closed⟩ | ⟨_, open_⟩
    · have shorter := within.length_le
      rw [closed, Body.span, List.length_cons]
      omega
    · rw [open_, Body.span, List.length_cons]
      exact room

/-- What the text of a function holds below its declaration: the body, on a line of its own. -/
def below (body : Body) : List Char :=
  if body.span.isEmpty then [] else '\n' :: body.span

theorem span_eq_of_below_eq {body other : Body} (same : body.below = other.below) :
    body.span = other.span := by
  unfold below at same
  split at same <;> split at same
  · rename_i first second
    rw [List.isEmpty_iff.mp first, List.isEmpty_iff.mp second]
  · contradiction
  · contradiction
  · exact (List.cons.inj same).2

theorem eq_of_below_eq {body other : Body} (same : body.below = other.below)
    (state : body.state = other.state) : body = other := by
  have span := span_eq_of_below_eq same
  cases body <;> cases other <;> simp_all [Body.span, Body.state]

theorem below_ofText (cs : List Char) :
    (ofText cs = .absent ∧ (ofText cs).below = []) ∨
      ∃ inner, (ofText cs).span = '{' :: inner ∧ (ofText cs).below = '\n' :: '{' :: inner := by
  rcases ofText_cases cs with ⟨_, absent⟩ | ⟨inner, _, ⟨span, _, _, closed⟩ | ⟨_, open_⟩⟩
  · left
    rw [absent]
    exact ⟨rfl, rfl⟩
  · right
    rw [closed]
    exact ⟨span, rfl, rfl⟩
  · right
    rw [open_]
    exact ⟨inner, rfl, rfl⟩

/-- A body that stands alone is found again. -/
theorem ofText_below (cs : List Char) : ofText (ofText cs).below = ofText cs := by
  have opens (inner : List Char) : opening? 0 ('\n' :: '{' :: inner) = some ('{' :: inner) := by
    simp [opening?]
  rcases ofText_cases cs with ⟨_, absent⟩ | ⟨inner, _, ⟨span, closes, _, closed⟩ | ⟨endless, open_⟩⟩
  · rw [absent]
    rfl
  · have ends : closing? 0 span = some span := closing?_eq_some_iff.mpr ⟨closes, List.prefix_rfl⟩
    rw [closed]
    simp only [below, Body.span, List.isEmpty_cons, Bool.false_eq_true, if_false, ofText, opens, ends]
  · rw [open_]
    simp only [below, Body.span, List.isEmpty_cons, Bool.false_eq_true, if_false, ofText, opens,
      endless]

/-- Inside a parenthesis the search passes the first brace, so what it finds is shorter. -/
theorem ofText_ne_of_inside {cs text inner : List Char} {depth : Nat}
    (span : (ofText cs).span = '{' :: inner)
    (inside : opening? 0 text = opening? (depth + 1) ('\n' :: '{' :: inner)) :
    ofText text ≠ ofText cs := by
  have passed : opening? 0 text = opening? (depth + 1) inner := by
    rw [inside]
    simp [opening?]
  intro same
  rw [← same] at span
  cases found : opening? (depth + 1) inner with
  | none =>
      rw [ofText, passed, found] at span
      contradiction
  | some rest =>
      obtain ⟨suffix, later, rfl⟩ := opening?_spec found
      have opens : opening? 0 ('{' :: later) = some ('{' :: later) := by simp [opening?]
      have length := length_span_ofText_le ('{' :: later)
      have room := suffix.length_le
      rw [ofText_congr (passed.trans (found.trans opens.symm))] at span
      rw [span, List.length_cons] at length
      omega

end Body

namespace Signature

variable {signature : Signature}

/-- The body below a signature is found again where nothing else stands below it, exactly if no
parenthesis of the parameter list is open there. -/
theorem ofText_below_iff (wellFormed : signature.WellFormed) {after : List Char} {body : Body}
    (found : Body.ofText (signature.toList ++ after) = body) :
    Body.ofText (signature.toList ++ body.below) = body ↔
      '(' ∉ signature.parameters ∨ body = .absent := by
  have opened := opening?_toList wellFormed body.below
  subst found
  rcases Body.below_ofText (signature.toList ++ after) with ⟨absent, nothing⟩ | ⟨inner, span, below⟩
  · constructor
    · intro _
      exact Or.inr absent
    · intro _
      have closed : Body.opening? 0 (signature.toList ++ []) = none := by
        rw [opening?_toList wellFormed]
        rfl
      rw [nothing, absent, Body.ofText, closed]
  · cases depth : signature.parameters.count '(' with
    | zero =>
        rw [depth] at opened
        have found := (Body.ofText_congr opened).trans (Body.ofText_below _)
        exact iff_of_true found (Or.inl (List.count_eq_zero.mp depth))
    | succ outer =>
        rw [depth, below] at opened
        have other := Body.ofText_ne_of_inside span opened
        rw [below]
        apply iff_of_false other
        rintro (flat | absent)
        · rw [List.count_eq_zero.mpr flat] at depth
          contradiction
        · rw [absent] at span
          contradiction

theorem endsBefore_nil : signature.EndsBefore [] := by
  rw [EndsBefore]
  split
  · exact Text.stops_nil
  · exact ReturnPart.read?_eq_none_iff.mp rfl

/-- A body on the line below belongs to no signature. -/
theorem endsBefore_below (cs : List Char) : signature.EndsBefore (Body.ofText cs).below := by
  rcases Body.below_ofText cs with ⟨_, nothing⟩ | ⟨inner, _, below⟩
  · rw [nothing]
    exact endsBefore_nil
  · rw [below]
    apply @endsBefore_of_blanks signature ['\n'] inner '{'
    · decide
    · decide
    · decide
    · exact Text.stops_cons.mpr (by decide)

end Signature

namespace Declaration

/-- A source that begins with a signature declares it first, with nothing above it. -/
theorem exists_scan_eq_cons {signature : Signature} (wellFormed : signature.WellFormed)
    {rest : List Char} (ends : signature.EndsBefore rest) :
    ∃ later, scan (.ofList (signature.toList ++ rest)) = ⟨none, 0, signature⟩ :: later := by
  let block : Block := ⟨[], none, signature⟩
  have starts : Block.StartsLine none := by
    intro c before
    contradiction
  have blank : block.WellFormed := by
    constructor
    · exact Text.allBlank_nil
    · intro doc blanks present
      contradiction
    · exact wellFormed
  have read : Block.form none (block.toList ++ rest) = some (block, rest) :=
    Block.form_eq_some_iff.mpr ⟨starts, blank, ends, rfl⟩
  have first := Text.occurrencesFrom_of_found block.toList_ne_nil read 0
  have written : block.toList ++ rest = signature.toList ++ rest := rfl
  rw [written] at first
  rw [scan, Text.occurrences, String.toList_ofList, first, List.map_cons]
  exact ⟨_, rfl⟩

end Declaration

namespace Function

/-- The function without what stands above it. -/
def alone (function : Function) : Function :=
  { function with docComment := none, documented := [], offset := 0, line := 1 }

theorem toList_body (code : String) (declaration : Declaration) :
    (ofDeclaration code declaration).body.toList =
      declaration.signature.toList ++ (Body.extract code declaration.start).below := by
  unfold ofDeclaration Body.below
  dsimp only
  split
  · rw [Declaration.toList_text, List.append_nil]
  · rw [String.toList_append, String.toList_append, Declaration.toList_text, Body.text,
      @String.toList_ofList (Body.span _), List.append_assoc]
    rfl

/-- Two functions with one signature differ only in what stands above them if their bodies agree. -/
theorem ofDeclaration_eq_alone_iff {code text : String} {declaration : Declaration} :
    ofDeclaration text ⟨none, 0, declaration.signature⟩ = (ofDeclaration code declaration).alone ↔
      Body.extract text 0 = Body.extract code declaration.start := by
  constructor
  · intro same
    have body := congrArg (fun function => function.body.toList) same
    have state := congrArg Function.bodyState same
    simp only [alone, toList_body] at body
    exact Body.eq_of_below_eq (List.append_cancel_left body) state
  · intro same
    have line : Text.lineOf text 0 = 1 :=
      congrArg (· + 1) (Text.lineFeedsBefore_byteLength [] text.toList)
    simp only [ofDeclaration, alone, same, line]
    rfl

/-- Read as a source, the text of a function begins with the function itself, unless its parameter
list leaves a parenthesis open above a body. -/
theorem ofSource_body_iff {code : String} {declaration : Declaration}
    (member : declaration ∈ Declaration.scan code) :
    (∃ later, ofSource (ofDeclaration code declaration).body =
        (ofDeclaration code declaration).alone :: later) ↔
      '(' ∉ declaration.parameterList.toList ∨
        (ofDeclaration code declaration).bodyState = .absent := by
  obtain ⟨block, before, after, split, rfl, stands⟩ := Declaration.mem_scan member
  let declaration := Declaration.ofBlock (Text.byteLength before) block
  let body := Body.extract code declaration.start
  let text := (ofDeclaration code declaration).body
  have wellFormed := stands.wellFormed.signature
  have found : Body.ofText (block.signature.toList ++ after) = body := by
    simp only [body, declaration, Body.extract, Declaration.dropBytes?_start split]
  have written : text.toList = block.signature.toList ++ body.below := toList_body code declaration
  have again : Body.extract text 0 = Body.ofText (block.signature.toList ++ body.below) := by
    simp only [Body.extract, Text.dropBytes?, written]
  have ends : block.signature.EndsBefore body.below := by
    rw [← found]
    exact Signature.endsBefore_below _
  obtain ⟨others, scanned⟩ := Declaration.exists_scan_eq_cons wellFormed ends
  rw [← written, String.ofList_toList] at scanned
  have first : ofSource text = ofDeclaration text ⟨none, 0, block.signature⟩ ::
      others.map (ofDeclaration text) := by
    rw [ofSource, scanned, List.map_cons]
  have absent : (ofDeclaration code declaration).bodyState = .absent ↔ body = .absent := by
    change body.state = .absent ↔ body = .absent
    cases body <;> simp [Body.state]
  have parameters : declaration.parameterList.toList = block.signature.parameters :=
    String.toList_ofList
  calc
    _ ↔ ofDeclaration text ⟨none, 0, block.signature⟩ = (ofDeclaration code declaration).alone := by
      rw [first]
      constructor
      · rintro ⟨later, equal⟩
        exact (List.cons.inj equal).1
      · intro equal
        exact ⟨_, congrArg (· :: others.map (ofDeclaration text)) equal⟩
    _ ↔ Body.extract text 0 = body := @ofDeclaration_eq_alone_iff code text declaration
    _ ↔ '(' ∉ block.signature.parameters ∨ body = .absent := by
      rw [again]
      exact Signature.ofText_below_iff wellFormed found
    _ ↔ _ := by rw [absent, parameters]

theorem ofSource_body_iff_unterminated :
    let code := "/** Sums. */\nfunction f(int $a = 1): ?int // see \x7b\n\x7b\n function g() {}\n"
    let declaration : Declaration := ⟨some "/** Sums. */", 13,
      ⟨none, none, [' '], ['f'], [], "int $a = 1".toList, some ⟨[], some ' ', "?int".toList⟩⟩⟩
    declaration ∈ Declaration.scan code ∧ '(' ∉ declaration.parameterList.toList ∧
      (ofDeclaration code declaration).bodyState = .unterminated ∧
      ∃ later, ofSource (ofDeclaration code declaration).body =
        (ofDeclaration code declaration).alone :: later := by
  intro code declaration
  have member : declaration ∈ Declaration.scan code := by decide +kernel
  have flat : '(' ∉ declaration.parameterList.toList := by decide
  exact ⟨member, flat, by decide +kernel, (ofSource_body_iff member).mpr (Or.inl flat)⟩

example : (ofSource "function f($a = g()) {}").map (fun function => (function.body, function.bodyState)) =
      [("function f($a = g()\n{}", .closed)] ∧
    (ofSource "function f($a = g()\n{}").map (fun function => (function.body, function.bodyState)) =
      [("function f($a = g()", .absent)] := by
  decide +kernel

end Function

end DocBlock
