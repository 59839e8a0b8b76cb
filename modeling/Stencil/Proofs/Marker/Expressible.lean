import Mathlib.Data.List.Chain
import Stencil.Proofs.Marker.Escape
import Stencil.Proofs.Marker.Meaning

/-!
What template strings can express. A backslash, with up to two braces behind it, cannot stand
right before a path, because it would escape the braces that open the path; nor can a text of one
or two braces at the start, because these would make an opener of the others. All other texts and
paths have a spelling.
-/
namespace Stencil.Marker

/-- Two more braces behind the text would be escaped. -/
def EndsEscaping (text : List Char) : Prop :=
  ['\\'] <:+ text ∨ ['\\', '{'] <:+ text ∨ ['\\', '{', '{'] <:+ text

def Token.MayPrecede : Token String → Token String → Prop
  | .text _, .text _ => False
  | .text s, .path _ => ¬ EndsEscaping s.toList
  | .path _, _ => True

/-- A path between two braces on each side. It begins with no operator, and with a brace only if
it begins with two. -/
structure PathText (path : List Char) : Prop where
  enclosable : Enclosable false path
  no_sign : ∀ c ∈ path.head?, c ∉ ['&', '#', '?']
  brace : path.head? = some '{' → ['{', '{'] <+: path

structure WellJoined (tokens : List (Token String)) : Prop where
  text_not_empty : .text "" ∉ tokens
  neighbours : tokens.IsChain Token.MayPrecede
  path_text : ∀ path, .path path ∈ tokens → PathText path.toList

theorem WellJoined.tail {token : Token String} {tokens : List (Token String)}
    (joined : WellJoined (token :: tokens)) : WellJoined tokens := by
  constructor
  · intro member
    exact joined.text_not_empty (List.mem_cons_of_mem _ member)
  · exact (List.isChain_cons.mp joined.neighbours).2
  · intro path member
    exact joined.path_text path (List.mem_cons_of_mem _ member)

theorem WellJoined.first_not_empty {s : String} {tokens : List (Token String)}
    (joined : WellJoined (.text s :: tokens)) : s.toList ≠ [] := by
  intro empty
  rw [String.toList_eq_nil_iff.mp empty] at joined
  exact joined.text_not_empty (List.mem_cons_self ..)

theorem WellJoined.apart {s path : String} {tokens : List (Token String)}
    (joined : WellJoined (.text s :: .path path :: tokens)) : ¬ EndsEscaping s.toList :=
  (List.isChain_cons_cons.mp joined.neighbours).1

theorem WellJoined.path_behind {s : String} {tokens : List (Token String)}
    (joined : WellJoined (.text s :: tokens)) (more : tokens ≠ []) :
    ∃ path rest, tokens = .path path :: rest := by
  rcases tokens with _ | ⟨⟨t⟩ | ⟨path⟩, rest⟩
  · contradiction
  · exact absurd (List.isChain_cons_cons.mp joined.neighbours).1 id
  · exact ⟨path, rest, rfl⟩

structure Expressible (tokens : List (Token String)) : Prop extends WellJoined tokens where
  some_path : ∃ path, .path path ∈ tokens
  first_text : ∀ s path rest, tokens = .text s :: .path path :: rest →
    s.toList ≠ ['{'] ∧ s.toList ≠ ['{', '{']

theorem closing_run_of_body {triple : Bool} {body : List Piece} {source after : List Char} {n : Nat}
    (closed : Body triple body source after) (run : List.replicate n '}' <+: bodyText body) :
    List.replicate n '}' <+: source := by
  induction closed generalizing n with
  | close after =>
    cases n with
    | zero => simp
    | succ n => simp [bodyText, List.replicate_succ] at run
  | @piece first pieces source after fits more ih =>
    cases n with
    | zero => simp
    | succ n =>
      rw [body_text_cons] at run
      cases first with
      | escape3 => simp [Piece.meaning, List.replicate_succ] at run
      | escape2 => simp [Piece.meaning, List.replicate_succ] at run
      | char c =>
        simp only [Piece.meaning, Piece.spelling, List.replicate_succ, List.cons_append,
          List.nil_append, List.cons_prefix_cons] at run ⊢
        exact ⟨run.1, ih run.2⟩

theorem enclosable_cons {triple : Bool} {c : Char} {text : List Char} (other : c ≠ '}')
    (enclosable : Enclosable triple text) : Enclosable triple (c :: text) := by
  constructor
  · intro inner
    rcases List.infix_cons_iff.mp inner with start | inner
    · rw [closer_eq] at start
      cases triple <;> simp [List.replicate_succ, Ne.symm other] at start
    · exact enclosable.1 inner
  · cases text with
    | nil => simpa using other
    | cons d text => simpa using enclosable.2

theorem body_enclosable {triple : Bool} {body : List Piece} {source after : List Char}
    (closed : Body triple body source after) : Enclosable triple (bodyText body) := by
  induction closed with
  | close after =>
    refine ⟨?_, by simp [bodyText]⟩
    cases triple <;> simp [bodyText, closer]
  | @piece first pieces source after fits more ih =>
    have other : '{' ≠ '}' := by decide
    rw [body_text_cons]
    cases first with
    | escape3 =>
      exact enclosable_cons other (enclosable_cons other (enclosable_cons other ih))
    | escape2 => exact enclosable_cons other (enclosable_cons other ih)
    | char c =>
      by_cases brace : c = '}'
      · subst c
        have unclosed : ¬ closer triple <+: '}' :: source := fits.2
        constructor
        · intro inner
          rcases List.infix_cons_iff.mp inner with start | inner
          · rw [closer_eq] at start unclosed
            exact unclosed (closing_run_of_body (.piece fits more) start)
          · exact ih.1 inner
        · cases pieces with
          | nil =>
            cases more
            exfalso
            apply unclosed
            cases triple <;> simp [closer]
          | cons second pieces =>
            have meant := body_text_ne_nil second pieces
            cases text : bodyText (second :: pieces) with
            | nil => contradiction
            | cons d rest => simpa [text] using ih.2
      · exact enclosable_cons brace ih

theorem body_path_text {body : List Piece} {inside after : List Char} (plain : NoOperator inside)
    (closed : Body false body inside after) : PathText (bodyText body) := by
  cases closed with
  | close => exact ⟨body_enclosable (.close after), by simp [bodyText], by simp [bodyText]⟩
  | @piece first pieces source _ fits more =>
    have enclosable := body_enclosable (.piece fits more)
    cases first with
    | escape3 => exact ⟨enclosable, by simp [body_text_cons, Piece.meaning], fun _ => ⟨_, rfl⟩⟩
    | escape2 => exact ⟨enclosable, by simp [body_text_cons, Piece.meaning], fun _ => ⟨_, rfl⟩⟩
    | char c =>
      have other : c ∉ ['{', '&', '#', '?'] := plain c (by simp [Piece.spelling])
      simp only [List.mem_cons, List.not_mem_nil, or_false, not_or] at other
      refine ⟨enclosable, ?_, ?_⟩
      · simp [body_text_cons, Piece.meaning, other]
      · simp [body_text_cons, Piece.meaning, other]

theorem ends_escaping_append {text rest : List Char} (full : rest ≠ [])
    (ends : EndsEscaping (text ++ rest)) :
    EndsEscaping rest ∨ (EndsEscaping text ∧ (rest = ['{'] ∨ rest = ['{', '{'])) := by
  obtain ⟨back, rfl⟩ : ∃ back, rest = back.reverse := ⟨rest.reverse, by simp⟩
  unfold EndsEscaping at *
  simp only [← List.reverse_prefix, List.reverse_append, List.reverse_reverse] at *
  -- of a suffix of three characters at most, only the last three of `rest` matter
  rcases back with _ | ⟨a, _ | ⟨b, _ | ⟨c, back⟩⟩⟩
  · contradiction
  all_goals
    simp only [List.reverse_cons, List.reverse_nil, List.nil_append, List.cons_append,
      List.cons_prefix_cons, List.nil_prefix] at ends ⊢
    grind

theorem ends_escaping_meaning {piece : Piece} (ends : EndsEscaping piece.meaning) :
    piece = .char '\\' := by
  cases piece with
  | escape3 => simp [EndsEscaping, Piece.meaning, List.suffix_cons_iff] at ends
  | escape2 => simp [EndsEscaping, Piece.meaning, List.suffix_cons_iff] at ends
  | char c =>
    simp [EndsEscaping, Piece.meaning, List.suffix_cons_iff] at ends
    rw [ends]

theorem slash_before_braces {rest : List Char} {stop : List Char → Prop}
    (fits : (Piece.char '\\').Fits stop rest) : ¬ ['{', '{'] <+: rest := by
  intro braces
  obtain ⟨more, rfl⟩ := braces
  exact not_escape_of_fits fits more rfl rfl

/-- What the tokens of a source say about it: a path first shows its braces, and so do one or two
braces of text that a path follows. -/
structure Spelled (tokens : List (Token String)) (source : List Char) : Prop
    extends WellJoined tokens where
  path_first : ∀ path rest, tokens = .path path :: rest → ['{', '{'] <+: source
  braces_first : ∀ s path rest, tokens = .text s :: .path path :: rest →
    s.toList = ['{'] ∨ s.toList = ['{', '{'] → ['{', '{', '{'] <+: source

theorem spelled_before_path {first : Piece} {path : String} {more : List (Token String)}
    {source : List Char} (fits : first.Fits PathAhead source)
    (spelled : Spelled (.path path :: more) source) :
    Spelled (.text (String.ofList first.meaning) :: .path path :: more)
      (first.spelling ++ source) := by
  have meant := piece_meaning_ne_nil first
  have braces := spelled.path_first path more rfl
  refine ⟨⟨?_, ?_, ?_⟩, by simp, ?_⟩
  · simpa [meant] using spelled.text_not_empty
  · refine List.isChain_cons_cons.mpr ⟨?_, spelled.neighbours⟩
    intro ends
    rw [String.toList_ofList] at ends
    cases ends_escaping_meaning ends
    exact slash_before_braces fits braces
  · simpa using spelled.path_text
  · intro s _ _ equal short
    cases equal
    obtain ⟨inside, rfl⟩ := braces
    cases first with
    | escape3 => simp [Piece.meaning] at short
    | escape2 => simp [Piece.Fits] at fits
    | char c =>
      have brace : c = '{' := by simpa [Piece.meaning] using short
      exact ⟨inside, by simp [Piece.spelling, brace]⟩

theorem spelled_add_text {first : Piece} {s : String} {more : List (Token String)}
    {source : List Char} (fits : first.Fits PathAhead source)
    (spelled : Spelled (.text s :: more) source) :
    Spelled (.text (String.ofList first.meaning ++ s) :: more) (first.spelling ++ source) := by
  have meant := piece_meaning_ne_nil first
  have full := spelled.first_not_empty
  have chain := List.isChain_cons.mp spelled.neighbours
  refine ⟨⟨?_, ?_, ?_⟩, by simp, ?_⟩
  · have others := spelled.text_not_empty
    simp only [List.mem_cons, not_or] at others ⊢
    exact ⟨by simp [meant], others.2⟩
  · refine List.isChain_cons.mpr ⟨?_, chain.2⟩
    intro next there
    have before := chain.1 next there
    cases next with
    | text t => exact before
    | path path =>
      intro ends
      rw [String.toList_append, String.toList_ofList] at ends
      rcases ends_escaping_append full ends with ends | ⟨ends, short⟩
      · exact before ends
      · cases ends_escaping_meaning ends
        obtain ⟨others, rfl⟩ := List.head?_eq_some_iff.mp there
        have braces := spelled.braces_first s path others rfl short
        exact slash_before_braces fits (.trans ⟨['{'], rfl⟩ braces)
  · simpa using spelled.path_text
  · intro _ path others equal short
    cases equal
    rw [String.toList_append, String.toList_ofList] at short
    cases first with
    | escape3 => simp [Piece.meaning] at short
    | escape2 => simp [Piece.meaning, String.toList_eq_nil_iff.not.mp full] at short
    | char c =>
      simp only [Piece.meaning, List.cons_append, List.nil_append, List.cons.injEq, full,
        and_false, false_or] at short
      obtain ⟨inside, rfl⟩ := spelled.braces_first s path others rfl (.inl short.2)
      exact ⟨'{' :: inside, by simp [Piece.spelling, short.1]⟩

theorem spelled_text {first : Piece} {tokens : List (Token String)} {source : List Char}
    (fits : first.Fits PathAhead source) (spelled : Spelled tokens source) :
    Spelled (addText first.meaning tokens) (first.spelling ++ source) := by
  rcases tokens with _ | ⟨⟨s⟩ | ⟨path⟩, more⟩
  · have meant := piece_meaning_ne_nil first
    refine ⟨⟨?_, .singleton _, ?_⟩, ?_, ?_⟩ <;> simp [addText, meant]
  · exact spelled_add_text fits spelled
  · exact spelled_before_path fits spelled

theorem mixed_spelled {lexemes : List Lexeme} {source : List Char} (mixed : Mixed lexemes source) :
    Spelled (tokensOf id lexemes) source := by
  induction mixed with
  | nil =>
    refine ⟨⟨?_, .nil, ?_⟩, ?_, ?_⟩ <;> simp [tokensOf]
  | text fits more ih => exact spelled_text fits ih
  | @marker body lexemes inside after plain closed more ih =>
    have path := body_path_text plain closed
    refine ⟨⟨?_, ?_, ?_⟩, ?_, ?_⟩
    · simpa [tokensOf] using ih.text_not_empty
    · rw [tokensOf, List.isChain_cons]
      exact ⟨fun _ _ => trivial, ih.neighbours⟩
    · intro other member
      rcases List.mem_cons.mp member with equal | member
      · cases equal
        simpa using path
      · exact ih.path_text other member
    · intro _ _ _
      exact ⟨inside, rfl⟩
    · simp [tokensOf]

theorem reading_is_interpolation {tokens texts : List (Token String)}
    (same : readingOf texts = .interpolation tokens) :
    texts = tokens ∧ (texts.IsChain Token.MayPrecede → ∃ path, .path path ∈ texts) := by
  unfold readingOf at same
  split at same
  · contradiction
  · contradiction
  · rename_i none single
    cases same
    refine ⟨rfl, ?_⟩
    intro chain
    rcases tokens with _ | ⟨⟨s⟩ | ⟨path⟩, more⟩
    · contradiction
    · rcases more with _ | ⟨⟨t⟩ | ⟨path⟩, more⟩
      · exact absurd rfl (single s)
      · exact absurd (List.isChain_cons_cons.mp chain).1 id
      · exact ⟨path, by simp⟩
    · exact ⟨path, by simp⟩

theorem interpolation_expressible {source : String} {tokens : List (Token String)}
    (scanned : scan .ok source = .ok (.interpolation tokens)) : Expressible tokens := by
  obtain ⟨derivation, found, meaning⟩ := (scan_reads (f := id)).mp scanned
  have derived := read_derivation_sound found
  generalize source.toList = chars at derived
  cases derived with
  | whole kind closed => contradiction
  | @mixed lexemes _ plain mixed =>
    obtain ⟨rfl, reached⟩ := reading_is_interpolation meaning
    have spelled := mixed_spelled mixed
    refine ⟨spelled.toWellJoined, reached spelled.neighbours, ?_⟩
    intro s path rest first
    rw [← not_or]
    intro short
    exact plain .raw (spelled.braces_first s path rest first short)

theorem whole_enclosable {source : String} {kind : Kind} {path : String}
    (scanned : scan .ok source = .ok (.whole kind path)) :
    Enclosable (kind = .raw) path.toList := by
  obtain ⟨derivation, found, meaning⟩ := (scan_reads (f := id)).mp scanned
  have derived := read_derivation_sound found
  generalize source.toList = chars at derived
  cases derived with
  | whole other closed =>
    cases meaning
    simpa using body_enclosable closed
  | @mixed lexemes _ plain mixed =>
    simp only [Derivation.meaning] at meaning
    unfold readingOf at meaning
    split at meaning <;> contradiction

end Stencil.Marker
