import Stencil.Marker.Lexeme

/-!
The grammar of template strings, apart from the scanner. A derivation lists the lexemes of a
string; where a character may stand alone depends on the input from it on, so a derivation is
judged against what is left. The pieces are also what the scanner takes one after the other from
text and from the body of a marker.
-/
namespace Stencil.Marker

/-- A lexeme that stands for text: a backslash with three or with two braces, or a character. -/
inductive Piece where
  | escape3
  | escape2
  | char (c : Char)
deriving DecidableEq

inductive Lexeme where
  | text (piece : Piece)
  | marker (body : List Piece)
deriving DecidableEq

inductive Derivation where
  | whole (kind : Kind) (body : List Piece)
  | mixed (lexemes : List Lexeme)
deriving DecidableEq

def Piece.spelling : Piece → List Char
  | .escape3 => ['\\', '{', '{', '{']
  | .escape2 => ['\\', '{', '{']
  | .char c => [c]

def Piece.meaning : Piece → List Char
  | .escape3 => ['{', '{', '{']
  | .escape2 => ['{', '{']
  | .char c => [c]

theorem Piece.spelling_length_pos (piece : Piece) : 0 < piece.spelling.length := by
  cases piece <;> simp [spelling]

def opener : Kind → List Char
  | .raw => ['{', '{', '{']
  | .unquote => ['{', '{', '&']
  | .sectionOf => ['{', '{', '#']
  | .switch => ['{', '{', '?']

def closer (triple : Bool) : List Char := if triple then ['}', '}', '}'] else ['}', '}']

/-- What follows two braces lets them open a path: it is nothing or begins with no operator. -/
def NoOperator (inside : List Char) : Prop := ∀ c ∈ inside.head?, c ∉ ['{', '&', '#', '?']

def PathAhead (source : List Char) : Prop :=
  ∃ inside, source = '{' :: '{' :: inside ∧ NoOperator inside

/-- A piece may stand before `rest`. The longer escape goes first, and a character stands alone
where neither an escape nor what `stop` describes begins. -/
def Piece.Fits (stop : List Char → Prop) : Piece → List Char → Prop
  | .escape3, _ => True
  | .escape2, rest => rest.head? ≠ some '{'
  | .char c, rest => ¬ ['\\', '{', '{'] <+: c :: rest ∧ ¬ stop (c :: rest)

/-- The pieces, the closing braces and `after` spell the source. -/
inductive Body (triple : Bool) : List Piece → List Char → List Char → Prop where
  | close (after : List Char) : Body triple [] (closer triple ++ after) after
  | piece {first : Piece} {pieces : List Piece} {source after : List Char}
      (fits : first.Fits (closer triple <+: ·) source) (more : Body triple pieces source after) :
      Body triple (first :: pieces) (first.spelling ++ source) after

/-- The lexemes spell the source, in which text and paths take turns freely. -/
inductive Mixed : List Lexeme → List Char → Prop where
  | nil : Mixed [] []
  | text {first : Piece} {lexemes : List Lexeme} {source : List Char}
      (fits : first.Fits PathAhead source) (more : Mixed lexemes source) :
      Mixed (.text first :: lexemes) (first.spelling ++ source)
  | marker {body : List Piece} {lexemes : List Lexeme} {inside after : List Char}
      (plain : NoOperator inside) (closed : Body false body inside after)
      (more : Mixed lexemes after) : Mixed (.marker body :: lexemes) ('{' :: '{' :: inside)

/-- A string that starts with the opener of a whole-string marker is that marker and no more. -/
inductive Derives : Derivation → List Char → Prop where
  | whole (kind : Kind) {body : List Piece} {inside : List Char}
      (closed : Body (kind = .raw) body inside []) :
      Derives (.whole kind body) (opener kind ++ inside)
  | mixed {lexemes : List Lexeme} {source : List Char}
      (plain : ∀ kind, ¬ opener kind <+: source) (more : Mixed lexemes source) :
      Derives (.mixed lexemes) source

theorem no_operator_iff (inside : List Char) :
    NoOperator inside ↔ inside.head?.any isOperator = false := by
  cases inside with
  | nil => simp [NoOperator]
  | cons c inside => simp [NoOperator, isOperator]

theorem path_ahead_iff (source : List Char) : PathAhead source ↔ opensPath source = true := by
  unfold opensPath
  constructor
  · intro ahead
    obtain ⟨inside, rfl, plain⟩ := ahead
    simp [(no_operator_iff inside).mp plain]
  · intro opens
    split at opens
    · rename_i inside
      exact ⟨inside, rfl, (no_operator_iff inside).mpr (by simpa using opens)⟩
    · contradiction

theorem take_closer_iff {triple : Bool} {source after : List Char} :
    takeCloser? triple source = some after ↔ source = closer triple ++ after := by
  constructor
  · intro taken
    unfold takeCloser? at taken
    split at taken
    · simpa [closer] using taken
    · simpa [closer] using taken
    · contradiction
  · intro spelled
    subst source
    cases triple <;> simp [closer, takeCloser?]

theorem take_closer_none_iff {triple : Bool} {source : List Char} :
    takeCloser? triple source = none ↔ ¬ closer triple <+: source := by
  constructor
  · intro none closes
    obtain ⟨after, rfl⟩ := closes
    simp [take_closer_iff.mpr rfl] at none
  · intro absent
    cases taken : takeCloser? triple source with
    | none => rfl
    | some after => exact absurd ⟨after, (take_closer_iff.mp taken).symm⟩ absent

theorem take_opener_iff {source inside : List Char} {kind : Kind} :
    takeOpener? source = some (kind, inside) ↔ source = opener kind ++ inside := by
  constructor
  · intro taken
    unfold takeOpener? at taken
    split at taken <;> simp at taken <;> obtain ⟨rfl, rfl⟩ := taken <;> rfl
  · intro spelled
    subst source
    cases kind <;> rfl

theorem take_opener_none_iff {source : List Char} :
    takeOpener? source = none ↔ ∀ kind, ¬ opener kind <+: source := by
  constructor
  · intro none kind opens
    obtain ⟨inside, rfl⟩ := opens
    simp [take_opener_iff.mpr rfl] at none
  · intro absent
    cases taken : takeOpener? source with
    | none => rfl
    | some read =>
      obtain ⟨kind, inside⟩ := read
      exact absurd ⟨inside, (take_opener_iff.mp taken).symm⟩ (absent kind)

theorem piece_or_stop (stop : List Char → Prop) (source : List Char) :
    source = [] ∨ stop source ∨
      ∃ first rest, source = Piece.spelling first ++ rest ∧ first.Fits stop rest := by
  by_cases escape : ['\\', '{', '{'] <+: source
  · obtain ⟨rest, rfl⟩ := escape
    by_cases third : rest.head? = some '{'
    · obtain ⟨rest, rfl⟩ := List.head?_eq_some_iff.mp third
      exact .inr (.inr ⟨.escape3, rest, rfl, trivial⟩)
    · exact .inr (.inr ⟨.escape2, rest, rfl, third⟩)
  · cases source with
    | nil => exact .inl rfl
    | cons c rest =>
      by_cases stopped : stop (c :: rest)
      · exact .inr (.inl stopped)
      · exact .inr (.inr ⟨.char c, rest, rfl, escape, stopped⟩)

@[elab_as_elim]
theorem piece_induction {motive : List Char → Prop} (stop : List Char → Prop) (source : List Char)
    (nil : motive []) (stopped : ∀ source, stop source → motive source)
    (piece : ∀ (first : Piece) rest, first.Fits stop rest → motive rest →
      motive (first.spelling ++ rest)) : motive source := by
  induction length : source.length using Nat.strongRecOn generalizing source with
  | ind n ih =>
    rcases piece_or_stop stop source with rfl | here | ⟨first, rest, rfl, fits⟩
    · exact nil
    · exact stopped source here
    · have positive := first.spelling_length_pos
      have shorter : rest.length < n := by simp only [List.length_append] at length; omega
      exact piece first rest fits (ih _ shorter rest rfl)

theorem not_escape_of_fits {stop : List Char → Prop} {c : Char} {rest : List Char}
    (fits : (Piece.char c).Fits stop rest) (tail : List Char) (slash : c = '\\') :
    rest ≠ '{' :: '{' :: tail := by
  intro braces
  subst rest
  exact fits.1 ⟨tail, by simp [slash]⟩

theorem take_text_path {source : List Char} (ahead : PathAhead source) :
    takeText source = ([], source) := by
  have opens := (path_ahead_iff source).mp ahead
  obtain ⟨inside, rfl, _⟩ := ahead
  simp [takeText, opens]

theorem take_text_piece {first : Piece} {rest : List Char} (fits : first.Fits PathAhead rest) :
    takeText (first.spelling ++ rest) =
      (first.meaning ++ (takeText rest).1, (takeText rest).2) := by
  cases first with
  | escape3 => rfl
  | escape2 =>
    cases rest with
    | nil => rfl
    | cons c rest =>
      have other : c ≠ '{' := by simpa [Piece.Fits] using fits
      simp [Piece.spelling, Piece.meaning, takeText, other, Prod.map]
  | char c =>
    have closed : ¬ opensPath (c :: rest) = true := fun opens =>
      fits.2 ((path_ahead_iff _).mpr opens)
    have plain := not_escape_of_fits fits
    simp only [Piece.spelling, Piece.meaning, List.cons_append, List.nil_append]
    rw [takeText.eq_4 c rest (fun _ => plain _) plain, if_neg closed]
    rfl

theorem take_body_close (triple : Bool) (after : List Char) :
    takeBody? triple (closer triple ++ after) = some ([], after) := by
  have taken := take_closer_iff.mpr (rfl : closer triple ++ after = closer triple ++ after)
  cases triple <;> simp_all [closer, takeBody?]

theorem take_body_piece {triple : Bool} {first : Piece} {rest : List Char}
    (fits : first.Fits (closer triple <+: ·) rest) :
    takeBody? triple (first.spelling ++ rest) =
      (takeBody? triple rest).map (Prod.map (first.meaning ++ ·) id) := by
  cases first with
  | escape3 => rfl
  | escape2 =>
    cases rest with
    | nil => rfl
    | cons c rest =>
      have other : c ≠ '{' := by simpa [Piece.Fits] using fits
      simp [Piece.spelling, Piece.meaning, takeBody?, other]
  | char c =>
    have inside := take_closer_none_iff.mpr fits.2
    have plain := not_escape_of_fits fits
    simp only [Piece.spelling, Piece.meaning, List.cons_append, List.nil_append]
    rw [takeBody?.eq_4 triple c rest (fun _ => plain _) plain, inside]

end Stencil.Marker
