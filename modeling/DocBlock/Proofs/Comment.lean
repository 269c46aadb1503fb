import DocBlock.Declaration
import DocBlock.Proofs.Text.Run

/-! The grammar of doc comments: an opener, and a text that closes for the first time at its end.
Main statements: what is read as a doc comment is exactly what this grammar allows, and the closing
mark stands only at the end of one unless the opener's last star already belongs to such a mark. -/

namespace DocBlock.Declaration

/-- The closing mark stands at the end and nowhere before. -/
def ClosesOnce (cs : List Char) : Prop :=
  (∃ body, body ++ ['*', '/'] = cs) ∧ ∀ left right, left ++ '*' :: '/' :: right = cs → right = []

theorem closesOnce_mark : ClosesOnce ['*', '/'] := by
  refine ⟨⟨[], rfl⟩, ?_⟩
  intro left right split
  have length := congrArg List.length split
  simp only [List.length_append, List.length_cons, List.length_nil] at length
  exact List.eq_nil_of_length_eq_zero (by omega)

theorem closesOnce_cons {c : Char} {cs : List Char} (more : c = '*' → cs.head? ≠ some '/') :
    ClosesOnce (c :: cs) ↔ ClosesOnce cs := by
  constructor
  · rintro ⟨⟨body, closed⟩, once⟩
    constructor
    · cases body with
      | nil =>
          rw [List.nil_append, List.cons.injEq] at closed
          obtain ⟨rfl, rfl⟩ := closed
          exact absurd rfl (more rfl)
      | cons d body =>
          rw [List.cons_append, List.cons.injEq] at closed
          exact ⟨body, closed.2⟩
    · intro left right split
      exact once (c :: left) right (by rw [List.cons_append, split])
  · rintro ⟨⟨body, closed⟩, once⟩
    refine ⟨⟨c :: body, by rw [List.cons_append, closed]⟩, ?_⟩
    intro left right split
    cases left with
    | nil =>
        rw [List.nil_append, List.cons.injEq] at split
        obtain ⟨rfl, rfl⟩ := split
        exact absurd rfl (more rfl)
    | cons d left =>
        rw [List.cons_append, List.cons.injEq] at split
        exact once left right split.2

theorem closesOnce_append {body : List Char} (absent : ¬ "*/".toList <:+: body)
    (last : body.getLast? ≠ some '*') : ClosesOnce (body ++ ['*', '/']) := by
  induction body with
  | nil => exact closesOnce_mark
  | cons c cs ih =>
      have later : ¬ "*/".toList <:+: cs := fun inside => absent (List.infix_cons inside)
      rw [List.cons_append, closesOnce_cons]
      · apply ih later
        cases cs with
        | nil => simp
        | cons d cs => rwa [List.getLast?_cons_cons] at last
      · rintro rfl first
        cases cs with
        | nil => exact last rfl
        | cons d cs =>
            obtain rfl : d = '/' := Option.some.inj first
            exact absent ⟨[], cs, rfl⟩

theorem throughClose?_cons {c : Char} {cs : List Char} (more : c = '*' → cs.head? ≠ some '/') :
    throughClose? (c :: cs) = (throughClose? cs).map fun (inner, rest) => (c :: inner, rest) := by
  rw [throughClose?]
  rintro rest star rfl
  exact more star rfl

theorem closesOnce_of_throughClose? {cs inner rest : List Char}
    (found : throughClose? cs = some (inner, rest)) : ClosesOnce inner := by
  induction cs generalizing inner with
  | nil => contradiction
  | cons c cs ih =>
      by_cases closes : c = '*' ∧ cs.head? = some '/'
      · obtain ⟨rfl, first⟩ := closes
        obtain ⟨tail, rfl⟩ := List.head?_eq_some_iff.mp first
        obtain ⟨rfl, rfl⟩ := Prod.mk.inj (Option.some.inj found)
        exact closesOnce_mark
      · have more : c = '*' → cs.head? ≠ some '/' := fun star first => closes ⟨star, first⟩
        rw [throughClose?_cons more] at found
        obtain ⟨⟨tail, _⟩, later, equal⟩ := Option.map_eq_some_iff.mp found
        obtain ⟨rfl, rfl⟩ := Prod.mk.inj equal
        have tailCloses := ih later
        refine (closesOnce_cons ?_).mpr tailCloses
        intro star first
        obtain ⟨after, rfl⟩ := List.head?_eq_some_iff.mp first
        apply more star
        rw [← append_of_throughClose? later, List.cons_append, List.head?_cons]

theorem throughClose?_append {inner : List Char} (closes : ClosesOnce inner) (rest : List Char) :
    throughClose? (inner ++ rest) = some (inner, rest) := by
  induction inner with
  | nil =>
      obtain ⟨body, closed⟩ := closes.1
      exact absurd (List.append_eq_nil_iff.mp closed).2 (by simp)
  | cons c cs ih =>
      by_cases closed : c = '*' ∧ cs.head? = some '/'
      · obtain ⟨rfl, first⟩ := closed
        obtain ⟨tail, rfl⟩ := List.head?_eq_some_iff.mp first
        obtain rfl := closes.2 [] tail rfl
        rfl
      · have more : c = '*' → cs.head? ≠ some '/' := fun star first => closed ⟨star, first⟩
        have tailCloses := (closesOnce_cons more).mp closes
        have present : cs ≠ [] := by
          rintro rfl
          obtain ⟨body, ended⟩ := tailCloses.1
          exact absurd (List.append_eq_nil_iff.mp ended).2 (by simp)
        have still : c = '*' → (cs ++ rest).head? ≠ some '/' := by
          obtain ⟨d, tail, rfl⟩ := List.exists_cons_of_ne_nil present
          exact more
        rw [List.cons_append, throughClose?_cons still, ih tailCloses, Option.map_some]

theorem throughClose?_eq_some_iff {cs inner rest : List Char} :
    throughClose? cs = some (inner, rest) ↔ ClosesOnce inner ∧ inner ++ rest = cs := by
  constructor
  · intro found
    exact ⟨closesOnce_of_throughClose? found, append_of_throughClose? found⟩
  · rintro ⟨closes, rfl⟩
    exact throughClose?_append closes rest

/-- A doc comment: the opener and a text that closes once. -/
def IsDocComment (doc : List Char) : Prop :=
  ∃ inner, ClosesOnce inner ∧ "/**".toList ++ inner = doc

theorem docComment?_eq_some_iff {cs doc rest : List Char} :
    docComment? cs = some (doc, rest) ↔ IsDocComment doc ∧ doc ++ rest = cs := by
  simp only [docComment?, Option.bind_eq_bind, Option.bind_eq_some_iff, Option.pure_def,
    Option.some.injEq, Prod.mk.injEq, Text.isPrefixOf?_eq_some]
  constructor
  · rintro ⟨_, rfl, ⟨inner, _⟩, closed, rfl, rfl⟩
    obtain ⟨closes, rfl⟩ := throughClose?_eq_some_iff.mp closed
    exact ⟨⟨inner, closes, rfl⟩, List.append_assoc _ _ _⟩
  · rintro ⟨⟨inner, closes, rfl⟩, rfl⟩
    exact ⟨inner ++ rest, (List.append_assoc _ _ _).symm, (inner, rest),
      throughClose?_eq_some_iff.mpr ⟨closes, rfl⟩, rfl, rfl⟩

theorem IsDocComment.ends {doc : List Char} (isDoc : IsDocComment doc) :
    ∃ body, body ++ ['*', '/'] = doc := by
  obtain ⟨_, ⟨⟨body, rfl⟩, _⟩, rfl⟩ := isDoc
  exact ⟨"/**".toList ++ body, List.append_assoc _ _ _⟩

theorem IsDocComment.getLast?_eq {doc : List Char} (isDoc : IsDocComment doc) :
    doc.getLast? = some '/' := by
  obtain ⟨body, rfl⟩ := isDoc.ends
  rw [List.getLast?_append]
  rfl

/-- Only the opener's last star can begin a closing mark too early. -/
theorem IsDocComment.closing_at {doc left right : List Char} (isDoc : IsDocComment doc)
    (split : left ++ '*' :: '/' :: right = doc) : right = [] ∨ left = ['/', '*'] := by
  obtain ⟨inner, ⟨_, once⟩, rfl⟩ := isDoc
  change left ++ '*' :: '/' :: right = '/' :: '*' :: '*' :: inner at split
  match left, split with
  | [], split => simp at split
  | [_], split => simp at split
  | [a, b], split =>
      right
      simp only [List.cons_append, List.nil_append, List.cons.injEq] at split
      rw [split.1, split.2.1]
  | a :: b :: c :: left, split =>
      left
      simp only [List.cons_append, List.cons.injEq] at split
      exact once left right split.2.2.2

theorem IsDocComment.closes_once_iff {doc : List Char} (isDoc : IsDocComment doc) :
    (∀ left right, left ++ '*' :: '/' :: right = doc → right = []) ↔
      ¬ "/**/".toList <+: doc := by
  constructor
  · rintro once ⟨rest, opened⟩
    obtain rfl := once ['/', '*'] rest opened
    obtain ⟨inner, ⟨⟨body, closed⟩, _⟩, split⟩ := isDoc
    have length := congrArg List.length (split.trans opened.symm)
    have inside := congrArg List.length closed
    simp at length inside
    omega
  · intro apart left right split
    rcases isDoc.closing_at split with last | rfl
    · exact last
    · exact absurd ⟨right, split⟩ apart

end DocBlock.Declaration
