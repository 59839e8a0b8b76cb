import Mathlib.Data.List.Permutation
import Stencil.Proofs.Marker.Meaning
import Stencil.Proofs.Template.Compile
import Stencil.Template.Render

/-!
Templates interpreted without being compiled. The interpreter recurs on the template value
itself: a string is taken lexeme by lexeme, and the value under a section marker is interpreted
anew for each document of the section. Compiling first and rendering then has the same outcome.
-/
namespace Stencil.Template

open Marker

variable {π : Type} (language : PathLanguage π) (root : Value)

inductive Mishap (π : Type) where
  | illFormed
  | rendering (fault : RenderFault π)

def lift {α : Type} : Except (RenderFault π) α → Except (Mishap π) α := Except.mapError .rendering

def pathOf (body : List Piece) : Except (Mishap π) π :=
  match language.compile (String.ofList (bodyText body)) with
  | .ok path => .ok path
  | .error _ => .error .illFormed

def interpretLexemes (current : Value) : List Lexeme → Except (Mishap π) String
  | [] => .ok ""
  | .text first :: lexemes =>
    return String.ofList first.meaning ++ (← interpretLexemes current lexemes)
  | .marker body :: lexemes => do
    let path ← pathOf language body
    let found ← lift (findOne language root current path)
    let text ← lift (writeValue path found)
    return text ++ (← interpretLexemes current lexemes)

def interpretString (current : Value) (s : String) : Except (Mishap π) Value :=
  match readDerivation? s.toList with
  | some (.mixed lexemes) => return .string (← interpretLexemes language root current lexemes)
  | some (.whole .raw body) => do
    let path ← pathOf language body
    lift (findOne language root current path)
  | some (.whole .unquote body) => do
    let path ← pathOf language body
    let found ← lift (findOne language root current path)
    lift (unquoteValue path found)
  | _ => .error .illFormed

def plainText? : List Lexeme → Option String
  | [] => some ""
  | .text first :: lexemes => (plainText? lexemes).map (String.ofList first.meaning ++ ·)
  | .marker _ :: _ => none

def nameOf : Scalar → Except (Mishap π) String
  | .string s =>
    match readDerivation? s.toList with
    | some (.mixed lexemes) =>
      match plainText? lexemes with
      | some text => .ok text
      | none => .error .illFormed
    | _ => .error .illFormed
  | _ => .error .illFormed

def sectionBody? : Scalar → Option (List Piece)
  | .string s =>
    match readDerivation? s.toList with
    | some (.whole .sectionOf body) => some body
    | _ => none
  | _ => none

mutual

def interpret (current : Value) : Value → Except (Mishap π) Value
  | .scalar (.string s) => interpretString language root current s
  | .scalar s => .ok (.scalar s)
  | .array items => return .array (← interpretItems current items)
  | .object [(key, value)] =>
    match sectionBody? key with
    | some body => do
      let path ← pathOf language body
      let found ← lift (findAll language root current path)
      let documents ← lift (sectionDocuments path current found)
      return .array (← documents.mapM fun document => interpret document value)
    | none => return objectOf [(← nameOf key, ← interpret current value)]
  | .object members => return objectOf (← interpretMembers current members)

def interpretItems (current : Value) : List Value → Except (Mishap π) (List Value)
  | [] => .ok []
  | item :: items => return (← interpret current item) :: (← interpretItems current items)

def interpretMembers (current : Value) :
    List (Scalar × Value) → Except (Mishap π) (List (String × Value))
  | [] => .ok []
  | (key, value) :: members =>
    return (← nameOf key, ← interpret current value) :: (← interpretMembers current members)

end

theorem lift_pure {α : Type} (a : α) : lift (pure a : Except (RenderFault π) α) = pure a := rfl

theorem lift_bind {α β : Type} (x : Except (RenderFault π) α) (f : α → Except (RenderFault π) β) :
    lift (x >>= f) = lift x >>= fun a => lift (f a) := by
  cases x <;> rfl

theorem lift_mapM {α β : Type} (xs : List α) (f : α → Except (RenderFault π) β) :
    lift (xs.mapM f) = xs.mapM fun x => lift (f x) := by
  induction xs with
  | nil => rfl
  | cons x xs ih => simp only [List.mapM_cons, lift_bind, ih, lift_pure]

theorem path_of_compiled {body : List Piece} {path : π}
    (compiled : language.compile (String.ofList (bodyText body)) = .ok path) :
    pathOf language body = .ok path := by
  simp [pathOf, compiled]

def joinTokens (current : Value) (tokens : List (Token π)) : Except (RenderFault π) String :=
  return String.join (← tokens.mapM (renderToken language root current))

theorem join_tokens_cons (current : Value) (token : Token π) (tokens : List (Token π)) :
    joinTokens language root current (token :: tokens) =
      return (← renderToken language root current token) ++
        (← joinTokens language root current tokens) := by
  simp only [joinTokens, List.mapM_cons, bind_assoc, pure_bind, String.join_cons]

theorem join_tokens_add_text {compile : String → Except String π} (current : Value)
    (text : List Char) {texts : List (Token String)} {tokens : List (Token π)}
    (each : List.Forall₂ (Token.Compiles compile) (addText text texts) tokens) :
    ∃ others, List.Forall₂ (Token.Compiles compile) texts others ∧
      joinTokens language root current tokens =
        return String.ofList text ++ (← joinTokens language root current others) := by
  unfold addText at each
  split at each
  · rename_i s more
    obtain ⟨_, others, same, rest, rfl⟩ := List.forall₂_cons_left_iff.mp each
    cases same
    refine ⟨.text s :: others, .cons (.text s) rest, ?_⟩
    simp only [join_tokens_cons, renderToken, bind_assoc, pure_bind, ok_bind, String.append_assoc]
  · obtain ⟨_, others, same, rest, rfl⟩ := List.forall₂_cons_left_iff.mp each
    cases same
    refine ⟨others, rest, ?_⟩
    simp only [join_tokens_cons, renderToken]
    rfl

theorem interpret_lexemes_compiled (current : Value) (lexemes : List Lexeme)
    {tokens : List (Token π)}
    (each : List.Forall₂ (Token.Compiles language.compile) (tokensOf id lexemes) tokens) :
    interpretLexemes language root current lexemes =
      lift (joinTokens language root current tokens) := by
  induction lexemes generalizing tokens with
  | nil =>
    cases each
    rfl
  | cons lexeme lexemes ih =>
    cases lexeme with
    | text first =>
      obtain ⟨others, rest, joined⟩ := join_tokens_add_text language root current _ each
      rw [interpretLexemes, ih rest, joined, lift_bind]
      rfl
    | marker body =>
      obtain ⟨_, others, same, rest, rfl⟩ := List.forall₂_cons_left_iff.mp each
      cases same with
      | path compiled =>
        rw [interpretLexemes, path_of_compiled language compiled, join_tokens_cons, ih rest]
        simp only [renderToken, lift_bind, lift_pure, bind_assoc, ok_bind]

theorem plain_text_of_literal {lexemes : List Lexeme} {text : String}
    (literal : readingOf (tokensOf id lexemes) = .literal text) :
    plainText? lexemes = some text := by
  induction lexemes generalizing text with
  | nil =>
    cases literal
    rfl
  | cons lexeme lexemes ih =>
    rcases reading_of_literal literal with ⟨tokens, rfl⟩ | tokens
    · cases lexeme with
      | text first => simp [tokensOf, add_text_ne_nil] at tokens
      | marker body => simp [tokensOf] at tokens
    · cases lexeme with
      | text first =>
        rcases add_text_eq_single tokens with ⟨rest, rfl⟩ | ⟨s, rest, rfl⟩
        · have empty : readingOf (tokensOf id lexemes) = .literal "" := by rw [rest]; rfl
          simp [plainText?, ih empty]
        · have more : readingOf (tokensOf id lexemes) = .literal s := by rw [rest]; rfl
          simp [plainText?, ih more]
      | marker body => simp [tokensOf] at tokens

theorem render_reading {s : String} {tokens : List (Token π)} {template : Template π}
    (scanned : scan language.compile s = .ok (readingOf tokens))
    (compiled : ofString language s = .ok template) (current : Value) :
    render language root current template =
      return .string (← joinTokens language root current tokens) := by
  unfold ofString readingOf at *
  split at scanned <;> simp only [scanned] at compiled <;> cases compiled
  · rfl
  · simp [render, joinTokens, renderToken, Value.string]
  · simp [render, joinTokens]

theorem interpret_string_compiled {s : String} {template : Template π}
    (compiled : ofString language s = .ok template) (current : Value) :
    interpretString language root current s = lift (render language root current template) := by
  cases scanned : scan language.compile s with
  | error fault => simp [ofString, scanned] at compiled
  | ok reading =>
    obtain ⟨derivation, found, same⟩ := scan_derivation scanned
    cases derivation with
    | mixed lexemes =>
      obtain ⟨tokens, each, rfl⟩ := reading_of_compiled same
      rw [render_reading language root scanned compiled, lift_bind]
      simp only [interpretString, found, interpret_lexemes_compiled language root current _ each]
      rfl
    | whole kind body =>
      cases same with
      | whole kind path =>
        have reached := path_of_compiled language path
        cases kind with
        | raw =>
          simp only [ofString, scanned] at compiled
          cases compiled
          simp only [interpretString, found, reached, render, ok_bind]
        | unquote =>
          simp only [ofString, scanned] at compiled
          cases compiled
          simp only [interpretString, found, reached, render, ok_bind, lift_bind]
        | sectionOf => simp [ofString, scanned] at compiled
        | switch => simp [ofString, scanned] at compiled

theorem name_of_compiled {key : Scalar} {text : String}
    (compiled : keyOf language key = .ok (.name text)) :
    nameOf key = (.ok text : Except (Mishap π) String) ∧ sectionBody? key = none := by
  obtain ⟨s, reading, rfl, scanned, ⟨_, rfl, same⟩ | ⟨_, _, other⟩⟩ := key_of_ok language compiled
  · cases same
    obtain ⟨derivation, found, same⟩ := scan_derivation scanned
    cases derivation with
    | whole kind body => cases same
    | mixed lexemes =>
      have literal := plain_text_of_literal (literal_compiles same)
      exact ⟨by simp [nameOf, found, literal], by simp [sectionBody?, found]⟩
  · contradiction

theorem section_body_compiled {key : Scalar} {path : π}
    (compiled : keyOf language key = .ok (.sectionOf path)) :
    ∃ body, sectionBody? key = some body ∧ pathOf language body = .ok path := by
  obtain ⟨s, reading, rfl, scanned, ⟨_, _, other⟩ | ⟨_, rfl, same⟩⟩ := key_of_ok language compiled
  · contradiction
  · cases same
    obtain ⟨derivation, found, same⟩ := scan_derivation scanned
    cases derivation with
    | mixed lexemes =>
      obtain ⟨tokens, _, other⟩ := reading_of_compiled same
      unfold readingOf at other
      split at other <;> contradiction
    | whole kind body =>
      cases same with
      | whole _ path => exact ⟨body, by simp [sectionBody?, found], path_of_compiled language path⟩

theorem interpret_section {key : Scalar} {body : List Piece}
    (marker : sectionBody? key = some body) (current value : Value) :
    interpret language root current (.object [(key, value)]) = do
      let path ← pathOf language body
      let found ← lift (findAll language root current path)
      let documents ← lift (sectionDocuments path current found)
      return .array (← documents.mapM fun document => interpret language root document value) := by
  rw [interpret, marker]

theorem interpret_object {members : List (Scalar × Value)}
    (plain : ∀ key value, members = [(key, value)] → sectionBody? key = none) (current : Value) :
    interpret language root current (.object members) =
      return objectOf (← interpretMembers language root current members) := by
  rcases members with _ | ⟨⟨key, value⟩, _ | ⟨second, others⟩⟩
  · rw [interpret]
    simp
  · rw [interpret, plain key value rfl]
    simp only [interpretMembers, bind_assoc, pure_bind, ok_bind]
  · rw [interpret.eq_5 _ _ _ _ (by simp)]

mutual

theorem interpret_compiled : (value : Value) → {template : Template π} →
    ofValue language value = .ok template → (current : Value) →
    interpret language root current value = lift (render language root current template)
  | .scalar s, template, compiled, current => by
    cases s with
    | string s => exact interpret_string_compiled language root compiled current
    | _ =>
      cases compiled
      rfl
  | .array items, template, compiled, current => by
    rw [ofValue] at compiled
    obtain ⟨nodes, each, finish⟩ := bind_ok compiled
    cases finish
    rw [interpret, render, interpret_items_compiled items each current, lift_bind]
    rfl
  | .object members, template, compiled, current => by
    rcases of_object_ok language compiled with
      ⟨key, value, path, body, rfl, keyed, inner, rfl⟩ | ⟨nodes, each, rfl⟩
    · obtain ⟨pieces, marker, reached⟩ := section_body_compiled language keyed
      have same := interpret_compiled value inner
      rw [interpret_section language root marker, render]
      simp only [reached, ok_bind, lift_bind, lift_mapM, lift_pure, same]
    · have plain : ∀ key value, members = [(key, value)] → sectionBody? key = none := by
        rintro key value rfl
        obtain ⟨text, _, _, keyed, _⟩ := of_members_cons_ok language each
        exact (name_of_compiled language keyed).2
      rw [interpret_object language root plain, render,
        interpret_members_compiled members each current, lift_bind]
      rfl

theorem interpret_items_compiled : (items : List Value) → {nodes : List (Template π)} →
    ofItems language items = .ok nodes → (current : Value) →
    interpretItems language root current items = lift (renderItems language root current nodes)
  | [], nodes, compiled, current => by
    cases compiled
    rfl
  | item :: items, nodes, compiled, current => by
    obtain ⟨node, others, first, more, rfl⟩ := of_items_cons_ok language compiled
    rw [interpretItems, renderItems, interpret_compiled item first current,
      interpret_items_compiled items more current]
    simp only [lift_bind, lift_pure]

theorem interpret_members_compiled : (members : List (Scalar × Value)) →
    {nodes : List (String × Template π)} → ofMembers language members = .ok nodes →
    (current : Value) →
    interpretMembers language root current members =
      lift (renderMembers language root current nodes)
  | [], nodes, compiled, current => by
    cases compiled
    rfl
  | (key, value) :: members, nodes, compiled, current => by
    obtain ⟨text, node, others, keyed, first, more, rfl⟩ := of_members_cons_ok language compiled
    have name := (name_of_compiled language keyed).1
    rw [interpretMembers, renderMembers, name, interpret_compiled value first current,
      interpret_members_compiled members more current]
    simp only [lift_bind, lift_pure, ok_bind]

end

/-- Compiling and then rendering has the outcome of the direct interpretation: the same value or
the same fault. -/
theorem render_compiled_is_interpretation {template : Value} {compiled : Template π}
    (compiles : ofValue language template = .ok compiled) (document : Value) :
    interpret language document document template =
      (compiled.renderDocument language document).mapError .rendering :=
  interpret_compiled language document template compiles document

def memberNames : PathLanguage String :=
  ⟨.ok, fun _ current name => .ok (current.member? name).toList, id⟩

theorem render_compiled_is_interpretation_of_section :
    ofValue memberNames (.object [(.string "\x7b\x7b#xs\x7d\x7d", .string "\x7b\x7bn\x7d\x7d!")]) =
      .ok (.sectionOf "xs" (.interpolation [.path "n", .text "!"])) ∧
    interpret memberNames
        (.object [(.string "xs", .array [.object [(.string "n", .int 1)]])])
        (.object [(.string "xs", .array [.object [(.string "n", .int 1)]])])
        (.object [(.string "\x7b\x7b#xs\x7d\x7d", .string "\x7b\x7bn\x7d\x7d!")]) =
      .ok (.array [.string "1!"]) := by
  have compiles : ofValue memberNames
      (.object [(.string "\x7b\x7b#xs\x7d\x7d", .string "\x7b\x7bn\x7d\x7d!")]) =
        .ok (.sectionOf "xs" (.interpolation [.path "n", .text "!"])) := by cbv
  refine ⟨compiles, ?_⟩
  rw [render_compiled_is_interpretation memberNames compiles]
  rfl

end Stencil.Template
