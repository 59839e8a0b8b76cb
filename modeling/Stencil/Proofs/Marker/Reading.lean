import Stencil.Proofs.Marker.Closing
import Stencil.Proofs.Marker.Expressible

/-!
What a template string reads as, from the grammar and the path compiler alone: the meaning of its
derivation with every path text compiled. The paths that are read are those of the markers of the
string, one by one, and the tokens of an interpolation are in normal form.
-/
namespace Stencil.Marker

variable {π : Type} {compile : String → Except String π}

/-- By the grammar the string has the reading, with its paths left as text. -/
def Means (source : String) (texts : Reading String) : Prop :=
  ∃ derivation, Derives derivation source.toList ∧ derivation.meaning id = texts

theorem means_iff {source : String} {texts : Reading String} :
    Means source texts ↔ scan .ok source = .ok texts := by
  have reads : scan .ok source = .ok texts ↔ _ := scan_reads (f := id)
  simp only [reads, read_derivation_iff, Means]

theorem means_unique : Relator.RightUnique Means := by
  intro source one two first second
  rw [means_iff] at first second
  cases first.symm.trans second
  rfl

theorem token_compiles_unique : Relator.RightUnique (Token.Compiles compile) := by
  intro token one two first second
  cases first with
  | text s =>
    cases second
    rfl
  | path compiled =>
    cases second with
    | path other =>
      rw [compiled] at other
      cases other
      rfl

theorem reading_compiles_unique {texts : Reading String} {one two : Reading π}
    (first : texts.Compiles compile one) (second : texts.Compiles compile two) : one = two := by
  cases first with
  | literal text =>
    cases second
    rfl
  | interpolation each =>
    cases second with
    | interpolation others => rw [token_compiles_unique.forall₂ each others]
  | whole kind compiled =>
    cases second with
    | whole _ other =>
      rw [compiled] at other
      cases other
      rfl

theorem tokens_compile_paths {texts : List (Token String)} {tokens : List (Token π)}
    (each : List.Forall₂ (Token.Compiles compile) texts tokens) :
    List.Forall₂ (fun text path => compile text = .ok path) (texts.filterMap Token.path?)
      (tokens.filterMap Token.path?) := by
  induction each with
  | nil => exact .nil
  | cons first more ih =>
    cases first with
    | text s => exact ih
    | path compiled => exact .cons compiled ih

theorem reading_compiles_paths {texts : Reading String} {reading : Reading π}
    (same : texts.Compiles compile reading) :
    List.Forall₂ (fun text path => compile text = .ok path) texts.paths reading.paths := by
  cases same with
  | literal text => exact .nil
  | interpolation each => exact tokens_compile_paths each
  | whole kind compiled => exact .cons compiled .nil

theorem sites_of_means {source : String} {texts : Reading String} (means : Means source texts) :
    (sitesOf source).map Site.path = texts.paths := by
  have scanned := means_iff.mp means
  cases scan_ends .ok source with
  | reads plain again same paths =>
    rw [scanned] at again
    cases again
    have equal : List.Forall₂ (· = ·) ((sitesOf source).map Site.path) texts.paths :=
      List.forall₂_map_left_iff.mpr (paths.imp fun site path compiled => Except.ok.inj compiled)
    rwa [List.forall₂_eq_eq_eq] at equal
  | fails plain failed accepted => simp [scanned] at failed
  | refuses first accepted refused failed => simp [scanned] at failed

theorem scan_iff_means {source : String} {reading : Reading π} :
    scan compile source = .ok reading ↔
      ∃ texts, Means source texts ∧ texts.Compiles compile reading := by
  constructor
  · intro scanned
    obtain ⟨texts, plain, same⟩ := scan_compiles scanned
    exact ⟨texts, means_iff.mpr plain, same⟩
  · rintro ⟨texts, means, same⟩
    have plain := means_iff.mp means
    cases scan_ends compile source with
    | reads again scanned other paths =>
      rw [plain] at again
      cases again
      rw [scanned, reading_compiles_unique same other]
    | fails again failed accepted => simp [plain] at again
    | @refuses before behind site reason first accepted refused failed =>
      have listed : site.path ∈ texts.paths := by
        rw [← sites_of_means means, first]
        simp
      have accepts : ∀ text ∈ texts.paths, Accepts compile text :=
        accepts_of_compiled (reading_compiles_paths same)
      obtain ⟨path, compiled⟩ := accepts _ listed
      simp [refused] at compiled

def Lexeme.body? : Lexeme → Option (List Piece)
  | .text _ => none
  | .marker body => some body

def Derivation.bodies : Derivation → List (List Piece)
  | .whole _ body => [body]
  | .mixed lexemes => lexemes.filterMap Lexeme.body?

/-- The path texts of the markers in a string; none if it has no derivation. -/
def markersIn (source : String) : List String :=
  match readDerivation? source.toList with
  | some derivation => derivation.bodies.map fun body => String.ofList (bodyText body)
  | none => []

theorem add_text_paths (text : List Char) (tokens : List (Token π)) :
    (addText text tokens).filterMap Token.path? = tokens.filterMap Token.path? := by
  unfold addText
  split <;> rfl

theorem tokens_of_paths (lexemes : List Lexeme) :
    (tokensOf id lexemes).filterMap Token.path? =
      (lexemes.filterMap Lexeme.body?).map fun body => String.ofList (bodyText body) := by
  induction lexemes with
  | nil => rfl
  | cons lexeme lexemes ih =>
    cases lexeme with
    | text first =>
      rw [tokensOf, add_text_paths, ih]
      rfl
    | marker body =>
      simp only [tokensOf, List.filterMap_cons, Token.path?, Lexeme.body?, ih, List.map_cons, id_eq]

theorem reading_of_paths (tokens : List (Token π)) :
    (readingOf tokens).paths = tokens.filterMap Token.path? := by
  unfold readingOf
  split <;> simp [Reading.paths, Token.path?]

theorem markers_of_means {source : String} {texts : Reading String} (means : Means source texts) :
    markersIn source = texts.paths := by
  obtain ⟨derivation, derived, rfl⟩ := means
  simp only [markersIn, read_derivation_complete derived]
  cases derivation with
  | whole kind body => rfl
  | mixed lexemes => rw [Derivation.meaning, reading_of_paths, tokens_of_paths]; rfl

def Token.isText : Token π → Bool
  | .text _ => true
  | .path _ => false

/-- Tokens as an interpolation has them: some path, no empty text, and no text beside another. -/
structure Normal (tokens : List (Token π)) : Prop where
  some_path : ∃ path, .path path ∈ tokens
  text_not_empty : .text "" ∉ tokens
  texts_apart : tokens.IsChain fun one two => ¬ (one.isText ∧ two.isText)

theorem means_normal {source : String} {texts : List (Token String)}
    (means : Means source (.interpolation texts)) : Normal texts := by
  have expressible := interpolation_expressible (means_iff.mp means)
  refine ⟨expressible.some_path, expressible.text_not_empty, expressible.neighbours.imp ?_⟩
  intro one two may both
  cases one with
  | path path => simp [Token.isText] at both
  | text s =>
    cases two with
    | path path => simp [Token.isText] at both
    | text t => exact may

theorem path_of_text {texts : List (Token String)} {tokens : List (Token π)}
    (each : List.Forall₂ (Token.Compiles compile) texts tokens) {text : String}
    (member : .path text ∈ texts) : ∃ path, .path path ∈ tokens := by
  induction each with
  | nil => contradiction
  | cons first more ih =>
    rcases List.mem_cons.mp member with here | later
    · subst here
      cases first
      exact ⟨_, List.mem_cons_self ..⟩
    · obtain ⟨path, there⟩ := ih later
      exact ⟨path, List.mem_cons_of_mem _ there⟩

theorem text_of_compiled {texts : List (Token String)} {tokens : List (Token π)}
    (each : List.Forall₂ (Token.Compiles compile) texts tokens) {s : String}
    (member : .text s ∈ tokens) : .text s ∈ texts := by
  induction each with
  | nil => contradiction
  | cons first more ih =>
    rcases List.mem_cons.mp member with here | later
    · subst here
      cases first
      exact List.mem_cons_self ..
    · exact List.mem_cons_of_mem _ (ih later)

theorem texts_apart_of_compiled {texts : List (Token String)} {tokens : List (Token π)}
    (each : List.Forall₂ (Token.Compiles compile) texts tokens)
    (apart : texts.IsChain fun one two => ¬ (one.isText ∧ two.isText)) :
    tokens.IsChain fun one two => ¬ (one.isText ∧ two.isText) := by
  have same : ∀ {text : Token String} {token : Token π}, text.Compiles compile token →
      token.isText = text.isText := by
    intro text token compiled
    cases compiled <;> rfl
  induction each with
  | nil => exact .nil
  | cons first more ih =>
    cases more with
    | nil => exact .singleton _
    | cons second rest =>
      rw [List.isChain_cons_cons] at apart ⊢
      rw [same first, same second]
      exact ⟨apart.1, ih apart.2⟩

theorem Normal.compiled {texts : List (Token String)} {tokens : List (Token π)}
    (normal : Normal texts) (each : List.Forall₂ (Token.Compiles compile) texts tokens) :
    Normal tokens := by
  refine ⟨?_, ?_, texts_apart_of_compiled each normal.texts_apart⟩
  · obtain ⟨text, member⟩ := normal.some_path
    exact path_of_text each member
  · intro empty
    exact normal.text_not_empty (text_of_compiled each empty)

def HasEscape (source : List Char) : Prop := ['\\', '{', '{'] <:+: source

theorem piece_without_escape {piece : Piece} {rest : List Char}
    (plain : ¬ HasEscape (piece.spelling ++ rest)) : piece.meaning = piece.spelling := by
  cases piece with
  | escape3 => exact absurd ⟨[], '{' :: rest, rfl⟩ plain
  | escape2 => exact absurd ⟨[], rest, rfl⟩ plain
  | char c => rfl

theorem mixed_without_escape {lexemes : List Lexeme} {source : List Char} {text : String}
    (mixed : Mixed lexemes source) (plain : ¬ HasEscape source)
    (literal : readingOf (tokensOf id lexemes) = .literal text) : text.toList = source := by
  induction mixed generalizing text with
  | nil =>
    cases literal
    rfl
  | @text first lexemes source fits more ih =>
    have behind : ¬ HasEscape source :=
      fun escape => plain (escape.trans (List.suffix_append _ _).isInfix)
    have spelled := piece_without_escape plain
    rcases reading_of_literal literal with ⟨nothing, _⟩ | single
    · exact absurd nothing (add_text_ne_nil _ _)
    · rcases add_text_eq_single single with ⟨last, rfl⟩ | ⟨others, next, rfl⟩
      · have empty : readingOf (tokensOf id lexemes) = .literal "" := by
          rw [last]
          rfl
        have rest := ih behind empty
        rw [String.toList_ofList, spelled, ← rest]
        exact (List.append_nil _).symm
      · have run : readingOf (tokensOf id lexemes) = .literal others := by
          rw [next]
          rfl
        have rest := ih behind run
        rw [String.toList_append, String.toList_ofList, spelled, rest]
  | @marker body lexemes inside after free closed more ih =>
    rw [tokensOf, reading_of_path (List.mem_cons_self ..)] at literal
    contradiction

theorem literal_without_escape {s text : String} (means : Means s (.literal text))
    (plain : ¬ HasEscape s.toList) : text = s := by
  obtain ⟨derivation, derived, same⟩ := means
  rw [← String.toList_inj]
  generalize s.toList = source at derived plain ⊢
  cases derived with
  | whole kind closed => contradiction
  | mixed free more => exact mixed_without_escape more plain same

end Stencil.Marker
