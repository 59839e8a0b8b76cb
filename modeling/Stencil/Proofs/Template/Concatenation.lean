import Stencil.Proofs.Marker.Concatenation
import Stencil.Proofs.Template.Interpreter

/-!
Strings that are text with paths in it, one after the other. If the first ends neither with a brace
nor with a backslash, both strings in a row compile to their tokens in a row and render to their
texts in a row.
-/
namespace Stencil.Template

open Marker

variable {π : Type} (language : PathLanguage π) (root : Value)

def textTokens? : Template π → Option (List (Token π))
  | .literal (.string s) => some (pushText s.toList [])
  | .interpolation tokens => some tokens
  | _ => none

def ofTokens : List (Token π) → Template π
  | [] => .literal (.string "")
  | [.text s] => .literal (.string s)
  | tokens => .interpolation tokens

/-- Of three outcomes, the last is the text of the first and the second in a row, or the fault that
comes first. -/
inductive InARow {ε : Type} : Except ε Value → Except ε Value → Except ε Value → Prop where
  | texts (a b : String) : InARow (.ok (.string a)) (.ok (.string b)) (.ok (.string (a ++ b)))
  | first (e : ε) (other : Except ε Value) : InARow (.error e) other (.error e)
  | second (a : String) (e : ε) : InARow (.ok (.string a)) (.error e) (.error e)

theorem text_tokens_of_tokens {tokens : List (Token π)} (full : .text "" ∉ tokens) :
    (ofTokens tokens).textTokens? = some tokens := by
  unfold ofTokens
  split
  · rfl
  · rename_i text
    have inhabited : text ≠ "" := by simpa [eq_comm] using full
    simp [textTokens?, pushText, inhabited]
  · rfl

theorem of_string_reading {s : String} {tokens : List (Token π)}
    (scanned : scan language.compile s = .ok (readingOf tokens)) :
    ofString language s = .ok (ofTokens tokens) := by
  unfold ofString readingOf ofTokens at *
  split at scanned <;> simp only [scanned]

theorem reads_of_text_tokens {s : String} {node : Template π} {tokens : List (Token π)}
    (compiled : ofString language s = .ok node) (texts : node.textTokens? = some tokens) :
    ReadsAsText language.compile s tokens := by
  cases scanned : scan language.compile s with
  | error fault => simp [ofString, scanned] at compiled
  | ok reading =>
    have plain : ∀ kind path, reading ≠ .whole kind path := by
      rintro kind path rfl
      cases kind <;> simp only [ofString, scanned] at compiled <;> cases compiled <;> cases texts
    obtain ⟨read, reads, rfl⟩ := reads_as_text scanned plain
    rw [of_string_reading language scanned] at compiled
    cases compiled
    rw [text_tokens_of_tokens reads.text_not_empty] at texts
    cases texts
    exact reads

theorem literal_of_no_path {s : String} {tokens : List (Token π)}
    (reads : ReadsAsText language.compile s tokens) (plain : ∀ path, .path path ∉ tokens) :
    ∃ text, ofTokens tokens = .literal (.string text) := by
  have scanned := reads.scanned
  unfold readingOf at scanned
  split at scanned
  · exact ⟨"", rfl⟩
  · exact ⟨_, rfl⟩
  · obtain ⟨path, member⟩ := path_of_interpolation scanned
    exact absurd member (plain path)

theorem join_add_text (current : Value) (text : List Char) (tokens : List (Token π)) :
    joinTokens language root current (addText text tokens) =
      return String.ofList text ++ (← joinTokens language root current tokens) := by
  unfold addText
  split <;> simp only [join_tokens_cons, renderToken, ok_bind, bind_assoc, pure_bind,
    String.append_assoc]

theorem join_merge_tokens (current : Value) (first second : List (Token π)) :
    joinTokens language root current (mergeTokens first second) = do
      let before ← joinTokens language root current first
      return before ++ (← joinTokens language root current second) := by
  induction first with
  | nil => simp [mergeTokens, joinTokens]
  | cons token first ih =>
    cases token with
    | path path =>
      rw [merge_tokens_path, join_tokens_cons, join_tokens_cons, ih]
      simp only [bind_assoc, pure_bind, String.append_assoc]
    | text s =>
      cases first with
      | nil =>
        rw [mergeTokens, join_add_text]
        simp [joinTokens, renderToken, ok_bind]
      | cons next rest =>
        rw [merge_tokens_cons, join_tokens_cons, join_tokens_cons, ih]
        simp only [bind_assoc, pure_bind, String.append_assoc]

theorem in_a_row_join (current : Value) (first second : List (Token π)) :
    InARow (return .string (← joinTokens language root current first))
      (return .string (← joinTokens language root current second))
      (return .string (← joinTokens language root current (mergeTokens first second))) := by
  rw [join_merge_tokens]
  cases joinTokens language root current first with
  | error e => exact .first e _
  | ok a =>
    cases joinTokens language root current second with
    | error e => exact .second a e
    | ok b => exact .texts a b

/-- Two strings that compile to text with paths in it, or without, compile in a row to the tokens of
both, a literal if there is no path among them; and against all documents they render in a row to
what both render to. -/
theorem concatenated_texts_render_in_a_row {s t : String} {one two : Template π}
    {first second : List (Token π)} (left : ofValue language (.string s) = .ok one)
    (right : ofValue language (.string t) = .ok two) (here : one.textTokens? = some first)
    (there : two.textTokens? = some second) (joinable : Joinable s.toList) :
    ∃ joined, ofValue language (.string (s ++ t)) = .ok joined ∧
      joined.textTokens? = some (mergeTokens first second) ∧
      ((∀ path, .path path ∉ first ++ second) → ∃ text, joined = .literal (.string text)) ∧
      ∀ root current, InARow (one.render language root current) (two.render language root current)
        (joined.render language root current) := by
  have reads := reads_of_text_tokens language left here
  have behind := reads_of_text_tokens language right there
  have whole := reads.append behind joinable
  have compiled := of_string_reading language whole.scanned
  refine ⟨_, compiled, text_tokens_of_tokens whole.text_not_empty, ?_, ?_⟩
  · intro plain
    refine literal_of_no_path language whole ?_
    intro path member
    have listed : path ∈ (mergeTokens first second).filterMap Token.path? :=
      List.mem_filterMap.mpr ⟨_, member, rfl⟩
    rw [merge_tokens_paths, ← List.filterMap_append] at listed
    obtain ⟨token, inside, same⟩ := List.mem_filterMap.mp listed
    cases token with
    | text s => contradiction
    | path p =>
      cases same
      exact plain path inside
  · intro root current
    rw [render_reading language root reads.scanned left,
      render_reading language root behind.scanned right,
      render_reading language root whole.scanned compiled]
    exact in_a_row_join language root current first second

theorem concatenated_texts_render_in_a_row_of_paths :
    ofValue memberNames (.string "x\x7b\x7bp\x7d\x7dy") =
      .ok (.interpolation [.text "x", .path "p", .text "y"]) ∧
    ofValue memberNames (.string "z\x7b\x7bq\x7d\x7d") =
      .ok (.interpolation [.text "z", .path "q"]) ∧
    ∃ joined, ofValue memberNames (.string "x\x7b\x7bp\x7d\x7dyz\x7b\x7bq\x7d\x7d") = .ok joined ∧
      joined.textTokens? = some [.text "x", .path "p", .text "yz", .path "q"] ∧
      ∀ root current, InARow
        ((Template.interpolation [.text "x", .path "p", .text "y"]).render memberNames root current)
        ((Template.interpolation [.text "z", .path "q"]).render memberNames root current)
        (joined.render memberNames root current) := by
  have left : ofValue memberNames (.string "x\x7b\x7bp\x7d\x7dy") =
      .ok (.interpolation [.text "x", .path "p", .text "y"]) := by cbv
  have right : ofValue memberNames (.string "z\x7b\x7bq\x7d\x7d") =
      .ok (.interpolation [.text "z", .path "q"]) := by cbv
  obtain ⟨joined, compiled, texts, _, inARow⟩ := concatenated_texts_render_in_a_row memberNames
    left right rfl rfl (by constructor <;> decide)
  exact ⟨left, right, joined, compiled, texts, inARow⟩

end Stencil.Template
