import Stencil.Proofs.Marker.Reader
import Stencil.Proofs.Marker.Run

/-!
What a template string means by its grammar, and that the scanner reads exactly this. Adjacent
text makes one token; a string without paths is a literal.
-/
namespace Stencil.Marker

variable {π : Type}

def bodyText (body : List Piece) : List Char := body.flatMap Piece.meaning

def addText (text : List Char) : List (Token π) → List (Token π)
  | .text s :: tokens => .text (String.ofList text ++ s) :: tokens
  | tokens => .text (String.ofList text) :: tokens

def tokensOf (f : String → π) : List Lexeme → List (Token π)
  | [] => []
  | .text first :: lexemes => addText first.meaning (tokensOf f lexemes)
  | .marker body :: lexemes => .path (f (String.ofList (bodyText body))) :: tokensOf f lexemes

def readingOf : List (Token π) → Reading π
  | [] => .literal ""
  | [.text s] => .literal s
  | tokens => .interpolation tokens

def Derivation.meaning (f : String → π) : Derivation → Reading π
  | .whole kind body => .whole kind (f (String.ofList (bodyText body)))
  | .mixed lexemes => readingOf (tokensOf f lexemes)

def accepting (f : String → π) : String → Except String π := fun text => .ok (f text)

theorem accepting_ok (f : String → π) (text : String) : accepting f text = .ok (f text) := rfl

theorem body_text_cons (first : Piece) (body : List Piece) :
    bodyText (first :: body) = first.meaning ++ bodyText body :=
  List.flatMap_cons

theorem take_body_reads (triple : Bool) (source : List Char) :
    takeBody? triple source = (readBody? triple source).map (Prod.map bodyText id) := by
  induction source using piece_induction (closer triple <+: ·) with
  | nil => rfl
  | stopped source here =>
    obtain ⟨after, rfl⟩ := here
    rw [take_body_close, read_body_close]
    rfl
  | piece first rest fits ih =>
    rw [take_body_piece fits, read_body_piece fits, ih]
    cases readBody? triple rest with
    | none => rfl
    | some read => simp [Prod.map, body_text_cons]

theorem take_text_reads (source : List Char) :
    ∃ pieces, (takeText source).1 = bodyText pieces ∧
      readMixed? source = (readMixed? (takeText source).2).map (pieces.map .text ++ ·) ∧
      ((takeText source).2 = [] ∨ PathAhead (takeText source).2) := by
  induction source using piece_induction PathAhead with
  | nil => exact ⟨[], rfl, by simp [takeText], .inl rfl⟩
  | stopped source ahead =>
    rw [take_text_path ahead]
    exact ⟨[], rfl, by simp, .inr ahead⟩
  | piece first rest fits ih =>
    obtain ⟨pieces, text, read, opened⟩ := ih
    rw [take_text_piece fits, read_mixed_piece fits, read]
    exact ⟨first :: pieces, by simp [body_text_cons, text], by simp [Function.comp_def], opened⟩

theorem piece_meaning_ne_nil (piece : Piece) : piece.meaning ≠ [] := by
  cases piece <;> simp [Piece.meaning]

theorem body_text_ne_nil (first : Piece) (body : List Piece) : bodyText (first :: body) ≠ [] := by
  rw [body_text_cons]
  exact List.append_ne_nil_of_left_ne_nil (piece_meaning_ne_nil first) _

theorem tokens_of_texts (f : String → π) (pieces : List Piece) (lexemes : List Lexeme)
    (apart : ∀ s more, tokensOf f lexemes ≠ .text s :: more) :
    tokensOf f (pieces.map .text ++ lexemes) =
      pushText (bodyText pieces) [] ++ tokensOf f lexemes := by
  induction pieces with
  | nil => rfl
  | cons first pieces ih =>
    have meant := piece_meaning_ne_nil first
    simp only [List.map_cons, List.cons_append, tokensOf, ih, body_text_cons]
    by_cases last : bodyText pieces = []
    · simp only [pushText, last, List.isEmpty_nil, ↓reduceIte, List.nil_append, List.append_nil]
      rw [if_neg (by simpa using meant)]
      unfold addText
      split
      · rename_i equal
        exact absurd equal (apart _ _)
      · rfl
    · simp [pushText, last, meant, addText]

theorem add_text_ne_nil (text : List Char) (tokens : List (Token π)) :
    addText text tokens ≠ [] := by
  unfold addText
  split <;> simp

theorem add_text_eq_single {text : List Char} {tokens : List (Token π)} {s : String}
    (single : addText text tokens = [.text s]) :
    (tokens = [] ∧ s = String.ofList text) ∨
      ∃ more, tokens = [.text more] ∧ s = String.ofList text ++ more := by
  unfold addText at single
  split at single
  · rename_i more rest
    simp only [List.cons.injEq, Token.text.injEq] at single
    obtain ⟨rfl, rfl⟩ := single
    exact .inr ⟨more, rfl, rfl⟩
  · simp only [List.cons.injEq, Token.text.injEq] at single
    obtain ⟨rfl, rfl⟩ := single
    exact .inl ⟨rfl, rfl⟩

theorem push_text_reverse (text : List Char) (before : List (Token π)) :
    (pushText text before).reverse = before.reverse ++ pushText text [] := by
  unfold pushText
  split <;> simp

theorem reading_of_path {tokens : List (Token π)} {path : π} (member : .path path ∈ tokens) :
    readingOf tokens = .interpolation tokens := by
  unfold readingOf
  split
  · simp at member
  · simp at member
  · rfl

theorem reading_of_literal {tokens : List (Token π)} {text : String}
    (literal : readingOf tokens = .literal text) :
    (tokens = [] ∧ text = "") ∨ tokens = [.text text] := by
  unfold readingOf at literal
  split at literal
  · cases literal
    exact .inl ⟨rfl, rfl⟩
  · cases literal
    exact .inr rfl
  · contradiction

def TextMayFollow (before : List (Token π)) : Prop :=
  before = [] ∨ ∃ path more, before = .path path :: more

theorem finish_text_reads (f : String → π) (pieces : List Piece) {before : List (Token π)}
    (ready : TextMayFollow before) :
    finishText (bodyText pieces) before =
      readingOf (before.reverse ++ tokensOf f (pieces.map .text)) := by
  have tokens := tokens_of_texts f pieces [] (by simp [tokensOf])
  simp only [List.append_nil, tokensOf] at tokens
  rw [tokens]
  rcases ready with rfl | ⟨path, more, rfl⟩
  · by_cases empty : bodyText pieces = [] <;> simp [finishText, pushText, empty, readingOf]
  · have member : .path path ∈
        (Token.path path :: more).reverse ++ pushText (bodyText pieces) [] := by simp
    rw [reading_of_path member, ← push_text_reverse]
    simp [finishText]

theorem run_text_reads (f : String → π) {before : List (Token π)} {rest : List Char}
    (ready : TextMayFollow before) :
    (run (accepting f) ⟨.text before, rest⟩).toOption =
      (readMixed? rest).map fun lexemes => readingOf (before.reverse ++ tokensOf f lexemes) := by
  induction length : rest.length using Nat.strongRecOn generalizing before rest with
  | ind n ih =>
    obtain ⟨pieces, text, read, ahead⟩ := take_text_reads rest
    have shrinks := take_text_length rest
    rcases taken : takeText rest with ⟨taken, opened⟩
    simp only [taken] at text read ahead shrinks
    subst text
    rcases ahead with rfl | ⟨inside, rfl, plain⟩
    · rw [run_text_end taken, read, finish_text_reads f pieces ready]
      simp [readMixed?, Except.toOption]
    · rw [run_text_path taken, read]
      cases found : readBody? false inside with
      | none =>
        have unclosed : takeBody? false inside = none := by rw [take_body_reads, found]; rfl
        rw [run_body_unclosed (step_path _ _ _) unclosed, read_mixed_unclosed plain found]
        rfl
      | some result =>
        obtain ⟨body, after⟩ := result
        have closed : takeBody? false inside = some (bodyText body, after) := by
          rw [take_body_reads, found]; rfl
        have shorter := take_body_length closed
        simp only [List.length_cons] at shrinks
        rw [run_body_closed (step_path _ _ _) closed (accepting_ok f _),
          ih _ (by omega) (.inr ⟨_, _, rfl⟩) rfl,
          read_mixed_marker plain found, Option.map_map, Option.map_map]
        congr 1
        funext lexemes
        have tokens := tokens_of_texts f pieces (.marker body :: lexemes) (by simp [tokensOf])
        simp [tokens, tokensOf, push_text_reverse]

theorem run_start_reads (f : String → π) (source : List Char) :
    (run (accepting f) ⟨.start, source⟩).toOption =
      (readDerivation? source).map (Derivation.meaning f) := by
  cases opens : takeOpener? source with
  | none =>
    rw [run_start_text opens, run_text_reads f (.inl rfl)]
    simp [readDerivation?, opens, Derivation.meaning, Function.comp_def]
  | some start =>
    obtain ⟨kind, inside⟩ := start
    rw [run_start_whole opens]
    cases found : readBody? (kind = .raw) inside with
    | none =>
      have unclosed : takeBody? (kind = .raw) inside = none := by rw [take_body_reads, found]; rfl
      rw [run_body_unclosed (step_whole _ _ _) unclosed]
      simp [readDerivation?, opens, found, Except.toOption]
    | some result =>
      obtain ⟨body, after⟩ := result
      have closed : takeBody? (kind = .raw) inside = some (bodyText body, after) := by
        rw [take_body_reads, found]; rfl
      rw [run_body_closed (step_whole _ _ _) closed (accepting_ok f _)]
      cases after with
      | nil =>
        simp [readDerivation?, opens, found, run_closed_end, Derivation.meaning, Except.toOption]
      | cons c rest => simp [readDerivation?, opens, found, run_closed_trailing, Except.toOption]

theorem scan_reads {f : String → π} {source : String} {reading : Reading π} :
    scan (accepting f) source = .ok reading ↔
      ∃ derivation, readDerivation? source.toList = some derivation ∧
        derivation.meaning f = reading := by
  rw [scan_ok_iff, ← Option.map_eq_some_iff, ← run_start_reads]
  cases run (accepting f) ⟨.start, source.toList⟩ <;> simp [Except.toOption]

theorem reading_of_compiled {compile : String → Except String π} {texts : List (Token String)}
    {reading : Reading π} (same : (readingOf texts).Compiles compile reading) :
    ∃ tokens, List.Forall₂ (Token.Compiles compile) texts tokens ∧ reading = readingOf tokens := by
  unfold readingOf at same
  split at same
  · cases same
    exact ⟨[], .nil, rfl⟩
  · cases same
    exact ⟨[.text _], .cons (.text _) .nil, rfl⟩
  · rename_i several other
    cases same with
    | @interpolation _ tokens each =>
      refine ⟨tokens, each, ?_⟩
      cases each with
      | nil => contradiction
      | cons first rest =>
        cases first with
        | path compiled => rw [reading_of_path (List.mem_cons_self ..)]
        | text s =>
          cases rest with
          | nil => exact absurd rfl (other s)
          | cons second rest => rfl

theorem scan_derivation {compile : String → Except String π} {source : String}
    {reading : Reading π} (scanned : scan compile source = .ok reading) :
    ∃ derivation, readDerivation? source.toList = some derivation ∧
      (derivation.meaning id).Compiles compile reading := by
  obtain ⟨texts, read, same⟩ := scan_compiles scanned
  obtain ⟨derivation, found, rfl⟩ := (scan_reads (f := id)).mp read
  exact ⟨derivation, found, same⟩

/-- The scanner accepts exactly the grammar and reads exactly its meaning: it succeeds on the
strings with a derivation, each of which has one only. -/
theorem scan_follows_grammar (f : String → π) (source : String) :
    (∀ reading, scan (accepting f) source = .ok reading ↔
      ∃ derivation, Derives derivation source.toList ∧ derivation.meaning f = reading) ∧
    ((∃ reading, scan (accepting f) source = .ok reading) ↔
      ∃! derivation, Derives derivation source.toList) := by
  have reads : ∀ reading, scan (accepting f) source = .ok reading ↔
      ∃ derivation, Derives derivation source.toList ∧ derivation.meaning f = reading := by
    intro reading
    simp only [scan_reads, read_derivation_iff]
  refine ⟨reads, ?_⟩
  simp only [reads]
  constructor
  · intro scanned
    obtain ⟨reading, derivation, derived, _⟩ := scanned
    exact ⟨derivation, derived, fun other also => derives_unique also derived⟩
  · intro single
    obtain ⟨derivation, derived, _⟩ := single
    exact ⟨_, derivation, derived, rfl⟩

end Stencil.Marker
