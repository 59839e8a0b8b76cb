import Stencil.Proofs.Marker.Reading

/-!
Template strings one after the other. The scanner looks at most two characters behind the one at
hand, and these matter only behind a brace or a backslash; so where the first string ends with
neither, the lexemes of both strings are the lexemes of the whole.
-/
namespace Stencil.Marker

variable {π : Type} {compile : String → Except String π}

/-- Nothing at the end of the text looks at what may follow it. -/
def Joinable (text : List Char) : Prop := text.getLast? ≠ some '{' ∧ text.getLast? ≠ some '\\'

theorem Joinable.suffix {text rest : List Char} (joinable : Joinable text) (ends : rest <:+ text) :
    Joinable rest := by
  obtain ⟨front, rfl⟩ := ends
  have last : ∀ {c : Char}, rest.getLast? = some c → (front ++ rest).getLast? = some c := by
    intro c here
    simp [List.getLast?_append, here]
  exact ⟨fun brace => joinable.1 (last brace), fun slash => joinable.2 (last slash)⟩

theorem not_prefix_append {start text tail : List Char} (long : start.length ≤ text.length)
    (absent : ¬ start <+: text) : ¬ start <+: text ++ tail := by
  intro begins
  exact absent (List.prefix_of_prefix_length_le begins (List.prefix_append text tail) long)

theorem body_append {triple : Bool} {body : List Piece} {source after : List Char}
    (closed : Body triple body source after) (tail : List Char) :
    Body triple body (source ++ tail) (after ++ tail) := by
  induction closed with
  | close after =>
    rw [List.append_assoc]
    exact .close (after ++ tail)
  | @piece first pieces source after fits more ih =>
    rw [List.append_assoc]
    refine .piece ?_ ih
    have long := (body_suffix more).length_le
    rw [List.length_append] at long
    have two : 2 ≤ (closer triple).length := by cases triple <;> simp [closer]
    cases first with
    | escape3 => trivial
    | escape2 =>
      cases source with
      | nil =>
        rw [List.length_nil] at long
        omega
      | cons c source => exact fits
    | char c =>
      refine ⟨not_prefix_append ?_ fits.1, not_prefix_append ?_ fits.2⟩
      · simp only [List.length_cons, List.length_nil]
        omega
      · rw [List.length_cons]
        omega

theorem piece_fits_append {first : Piece} {source : List Char}
    (fits : first.Fits PathAhead source) (joinable : Joinable (first.spelling ++ source))
    (tail : List Char) : first.Fits PathAhead (source ++ tail) := by
  cases first with
  | escape3 => trivial
  | escape2 =>
    cases source with
    | nil => simp [Piece.spelling, Joinable] at joinable
    | cons c source => exact fits
  | char c =>
    -- with fewer than two characters behind it, the end of the text is what could look ahead
    rcases source with _ | ⟨d, _ | ⟨e, rest⟩⟩
    · simp only [Joinable, Piece.spelling, List.append_nil, List.getLast?_singleton, ne_eq,
        Option.some.injEq] at joinable
      constructor
      · intro begins
        exact joinable.2 (List.cons_prefix_cons.mp begins).1.symm
      · rintro ⟨inside, equal, _⟩
        exact joinable.1 (List.cons.inj equal).1
    · have last : d ≠ '{' := by simpa [Piece.spelling] using joinable.1
      constructor
      · intro begins
        simp only [List.cons_append, List.cons_prefix_cons] at begins
        exact last begins.2.1.symm
      · rintro ⟨inside, equal, _⟩
        simp only [List.cons_append, List.cons.injEq] at equal
        exact last equal.2.1
    · refine ⟨not_prefix_append (by simp) fits.1, ?_⟩
      rintro ⟨inside, equal, plain⟩
      cases equal
      exact fits.2 ⟨e :: rest, rfl, plain⟩

theorem mixed_append {one two : List Lexeme} {source tail : List Char} (first : Mixed one source)
    (second : Mixed two tail) (joinable : Joinable source) :
    Mixed (one ++ two) (source ++ tail) := by
  induction first with
  | nil => exact second
  | @text piece lexemes source fits more ih =>
    have rest := ih (joinable.suffix (List.suffix_append _ _))
    rw [List.append_assoc]
    exact .text (piece_fits_append fits joinable tail) rest
  | @marker body lexemes inside after plain closed more ih =>
    have behind : after <:+ '{' :: '{' :: inside :=
      (rest_of_brace (brace_before_rest closed)).trans (List.suffix_append ['{', '{'] inside)
    have rest := ih (joinable.suffix behind)
    have full : inside ≠ [] := List.ne_nil_of_length_pos (by have := body_shrinks closed; omega)
    have same : (inside ++ tail).head? = inside.head? := List.head?_append_of_ne_nil inside full
    have free : NoOperator (inside ++ tail) := by rwa [NoOperator, same]
    exact .marker free (body_append closed tail) rest

theorem not_opened_append {source tail : List Char} {kind : Kind} (joinable : Joinable source)
    (first : ¬ opener kind <+: source) (second : ¬ opener kind <+: tail) :
    ¬ opener kind <+: source ++ tail := by
  have braces : ['{', '{'] <+: opener kind := by cases kind <;> simp [opener]
  have three : (opener kind).length = 3 := by cases kind <;> rfl
  intro begins
  rcases source with _ | ⟨c, _ | ⟨d, _ | ⟨e, rest⟩⟩⟩
  · exact second begins
  · have brace := (List.cons_prefix_cons.mp (braces.trans begins)).1
    exact joinable.1 (by rw [← brace]; rfl)
  · have brace := (List.cons_prefix_cons.mp (braces.trans begins)).2
    exact joinable.1 (by rw [← (List.cons_prefix_cons.mp brace).1]; rfl)
  · exact not_prefix_append (by simp [three]) first begins

theorem derives_append {one two : List Lexeme} {source tail : List Char}
    (first : Derives (.mixed one) source) (second : Derives (.mixed two) tail)
    (joinable : Joinable source) : Derives (.mixed (one ++ two)) (source ++ tail) := by
  cases first with
  | mixed plain lexemes =>
    cases second with
    | mixed free others =>
      refine .mixed ?_ (mixed_append lexemes others joinable)
      intro kind
      exact not_opened_append joinable (plain kind) (free kind)

def mergeTokens : List (Token π) → List (Token π) → List (Token π)
  | [], second => second
  | [.text s], second => addText s.toList second
  | token :: first, second => token :: mergeTokens first second

theorem merge_tokens_path (path : π) (first second : List (Token π)) :
    mergeTokens (.path path :: first) second = .path path :: mergeTokens first second := by
  simp [mergeTokens]

theorem merge_tokens_cons (token next : Token π) (rest second : List (Token π)) :
    mergeTokens (token :: next :: rest) second = token :: mergeTokens (next :: rest) second := by
  cases token <;> rfl

theorem add_text_append (one two : List Char) (tokens : List (Token π)) :
    addText (one ++ two) tokens = addText one (addText two tokens) := by
  cases tokens with
  | nil => simp [addText]
  | cons token tokens => cases token <;> simp [addText, String.append_assoc]

theorem merge_add_text (text : List Char) (first second : List (Token π)) :
    mergeTokens (addText text first) second = addText text (mergeTokens first second) := by
  match first with
  | [] => simp [addText, mergeTokens]
  | [.text s] =>
    rw [addText, mergeTokens, mergeTokens, String.toList_append, String.toList_ofList,
      add_text_append]
  | .text s :: token :: rest => simp [addText, merge_tokens_cons]
  | .path path :: rest => simp [addText, merge_tokens_path, merge_tokens_cons]

theorem tokens_of_append (f : String → π) (one two : List Lexeme) :
    tokensOf f (one ++ two) = mergeTokens (tokensOf f one) (tokensOf f two) := by
  induction one with
  | nil => rfl
  | cons lexeme one ih =>
    cases lexeme with
    | text first => rw [List.cons_append, tokensOf, tokensOf, ih, merge_add_text]
    | marker body => rw [List.cons_append, tokensOf, tokensOf, ih, merge_tokens_path]

theorem add_text_compiles {texts : List (Token String)} {tokens : List (Token π)} (text : List Char)
    (each : List.Forall₂ (Token.Compiles compile) texts tokens) :
    List.Forall₂ (Token.Compiles compile) (addText text texts) (addText text tokens) := by
  cases each with
  | nil => exact .cons (.text _) .nil
  | cons first more =>
    cases first with
    | text s => exact .cons (.text _) more
    | path compiled => exact .cons (.text _) (.cons (.path compiled) more)

theorem merge_tokens_compile {texts more : List (Token String)} {tokens others : List (Token π)}
    (first : List.Forall₂ (Token.Compiles compile) texts tokens)
    (second : List.Forall₂ (Token.Compiles compile) more others) :
    List.Forall₂ (Token.Compiles compile) (mergeTokens texts more) (mergeTokens tokens others) := by
  induction first with
  | nil => exact second
  | @cons text token texts tokens same each ih =>
    cases same with
    | path compiled =>
      rw [merge_tokens_path, merge_tokens_path]
      exact .cons (.path compiled) ih
    | text s =>
      cases each with
      | nil => exact add_text_compiles s.toList second
      | cons next rest =>
        rw [merge_tokens_cons, merge_tokens_cons]
        exact .cons (.text s) ih

theorem merge_tokens_paths (first second : List (Token π)) :
    (mergeTokens first second).filterMap Token.path? =
      first.filterMap Token.path? ++ second.filterMap Token.path? := by
  induction first with
  | nil => rfl
  | cons token first ih =>
    cases token with
    | path path =>
      rw [merge_tokens_path, List.filterMap_cons, List.filterMap_cons, ih]
      rfl
    | text s =>
      cases first with
      | nil => exact add_text_paths s.toList second
      | cons next rest =>
        rw [merge_tokens_cons]
        exact ih

/-- The string is text with paths in it, if any, and reads as the tokens. -/
def ReadsAsText (compile : String → Except String π) (source : String) (tokens : List (Token π)) :
    Prop :=
  ∃ lexemes, Derives (.mixed lexemes) source.toList ∧
    List.Forall₂ (Token.Compiles compile) (tokensOf id lexemes) tokens

theorem reading_of_compiles {texts : List (Token String)} {tokens : List (Token π)}
    (each : List.Forall₂ (Token.Compiles compile) texts tokens) :
    (readingOf texts).Compiles compile (readingOf tokens) := by
  cases each with
  | nil => exact .literal ""
  | cons first more =>
    cases first with
    | path compiled => exact .interpolation (.cons (.path compiled) more)
    | text s =>
      cases more with
      | nil => exact .literal s
      | cons next rest => exact .interpolation (.cons (.text s) (.cons next rest))

theorem ReadsAsText.scanned {source : String} {tokens : List (Token π)}
    (reads : ReadsAsText compile source tokens) : scan compile source = .ok (readingOf tokens) := by
  obtain ⟨lexemes, derived, each⟩ := reads
  exact scan_iff_means.mpr ⟨_, ⟨_, derived, rfl⟩, reading_of_compiles each⟩

theorem ReadsAsText.append {one two : String} {first second : List (Token π)}
    (left : ReadsAsText compile one first) (right : ReadsAsText compile two second)
    (joinable : Joinable one.toList) :
    ReadsAsText compile (one ++ two) (mergeTokens first second) := by
  obtain ⟨lexemes, derived, each⟩ := left
  obtain ⟨others, behind, rest⟩ := right
  refine ⟨lexemes ++ others, ?_, ?_⟩
  · rw [String.toList_append]
    exact derives_append derived behind joinable
  · rw [tokens_of_append]
    exact merge_tokens_compile each rest

theorem ReadsAsText.text_not_empty {source : String} {tokens : List (Token π)}
    (reads : ReadsAsText compile source tokens) : .text "" ∉ tokens := by
  obtain ⟨lexemes, derived, each⟩ := reads
  intro empty
  cases derived with
  | mixed _ mixed => exact (mixed_spelled mixed).text_not_empty (text_of_compiled each empty)

theorem reads_as_text {source : String} {reading : Reading π}
    (scanned : scan compile source = .ok reading)
    (plain : ∀ kind path, reading ≠ .whole kind path) :
    ∃ tokens, ReadsAsText compile source tokens ∧ reading = readingOf tokens := by
  obtain ⟨texts, ⟨derivation, derived, rfl⟩, same⟩ := scan_iff_means.mp scanned
  cases derivation with
  | whole kind body =>
    cases same with
    | whole _ compiled => exact absurd rfl (plain kind _)
  | mixed lexemes =>
    obtain ⟨tokens, each, rfl⟩ := reading_of_compiled same
    exact ⟨tokens, ⟨lexemes, derived, each⟩, rfl⟩

theorem path_of_interpolation {source : String} {tokens : List (Token π)}
    (scanned : scan compile source = .ok (.interpolation tokens)) :
    ∃ path, .path path ∈ tokens := by
  obtain ⟨texts, means, same⟩ := scan_iff_means.mp scanned
  cases same with
  | interpolation each => exact ((means_normal means).compiled each).some_path

end Stencil.Marker
