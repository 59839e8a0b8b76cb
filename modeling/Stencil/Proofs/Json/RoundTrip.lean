import Stencil.Proofs.Json.Literal
import Stencil.Proofs.Number.IntegerText
import Stencil.Proofs.Template.Escape
import Stencil.Proofs.Value.Parts

/-!
JSON text read back. What is written for a value is lexed to tokens that take the decoder from where
a value must come to where that value has been read, whatever is open around it. Arrays and objects
are both entries between brackets and are treated as one. Numbers with a fraction are left out.
-/
namespace Stencil.Json

open Token (isWordChar isSpace next? ofText punctuation?)
open Template (IsJson mem_named named)

def EndsWord (text : List Char) : Prop := ∀ c ∈ text.head?, isWordChar c = false

/-- Before anything that does not go on with a word, the text is lexed to the tokens. -/
def Lexes (text : List Char) (tokens : List Token) : Prop :=
  ∀ rest, EndsWord rest → ofText (text ++ rest) = (ofText rest).map (tokens ++ ·)

theorem of_text_nil : ofText [] = some [] := by
  rw [ofText]
  rfl

theorem of_text_next {text after : List Char} {token : Token}
    (next : next? text = some (some token, after)) :
    ofText text = (ofText after).map (token :: ·) := by
  rw [ofText]
  split <;> simp_all

theorem of_text_space (text : List Char) : ofText (' ' :: text) = ofText text := by
  have same : next? (' ' :: text) = next? text := rfl
  rw [ofText, ofText]
  split <;> split <;> simp_all

theorem lexes_end : Lexes [] [] := by
  intro rest ends
  simp

theorem lexes_append {one two : List Char} {first second : List Token} (front : Lexes one first)
    (back : Lexes two second) (apart : ∀ rest, EndsWord rest → EndsWord (two ++ rest)) :
    Lexes (one ++ two) (first ++ second) := by
  intro rest ends
  rw [List.append_assoc, front _ (apart rest ends), back rest ends, Option.map_map]
  congr 1
  funext tokens
  simp

theorem lexes_space {text : List Char} {tokens : List Token} (back : Lexes text tokens) :
    Lexes (' ' :: text) tokens := by
  intro rest ends
  rw [List.cons_append, of_text_space]
  exact back rest ends

theorem punctuation_apart {c : Char} {token : Token} (sign : punctuation? c = some token) :
    isSpace c = false ∧ c ≠ '"' ∧ isWordChar c = false := by
  unfold punctuation? at sign
  split at sign <;> first | contradiction | decide

theorem ends_word_punctuation {c : Char} {token : Token} (sign : punctuation? c = some token)
    (text : List Char) : EndsWord (c :: text) := by
  intro d first
  cases first
  exact (punctuation_apart sign).2.2

theorem lexes_punctuation {c : Char} {text : List Char} {token : Token} {tokens : List Token}
    (sign : punctuation? c = some token) (back : Lexes text tokens) :
    Lexes (c :: text) (token :: tokens) := by
  obtain ⟨space, quote, _⟩ := punctuation_apart sign
  intro rest ends
  have next : next? (c :: (text ++ rest)) = some (some token, text ++ rest) := by
    simp [next?, space, quote, sign]
  rw [List.cons_append, of_text_next next, back rest ends, Option.map_map]
  rfl

theorem lexes_string (s : String) : Lexes (stringText s) [.string s.toList] := by
  intro rest ends
  rw [of_text_next (next_string s rest)]
  rfl

theorem word_char_apart {c : Char} (word : isWordChar c = true) :
    isSpace c = false ∧ c ≠ '"' ∧ punctuation? c = none := by
  refine ⟨?_, ?_, ?_⟩
  · cases space : isSpace c with
    | false => rfl
    | true =>
      simp only [isSpace, Bool.or_eq_true, beq_iff_eq] at space
      rcases space with ((rfl | rfl) | rfl) | rfl <;> contradiction
  · rintro rfl
    contradiction
  · unfold punctuation?
    split <;> first | contradiction | rfl

theorem lexes_word {text : List Char} (full : text ≠ []) (word : ∀ c ∈ text, isWordChar c = true) :
    Lexes text [.word text] := by
  intro rest ends
  obtain ⟨c, text, rfl⟩ := List.exists_cons_of_ne_nil full
  obtain ⟨first, others⟩ := List.forall_mem_cons.mp word
  obtain ⟨space, quote, sign⟩ := word_char_apart first
  have taken : (text ++ rest).takeWhile isWordChar = text := take_run others ends
  have dropped : (text ++ rest).dropWhile isWordChar = rest := drop_run others ends
  have next : next? (c :: (text ++ rest)) = some (some (.word (c :: text)), rest) := by
    simp [next?, space, quote, sign, first, taken, dropped]
  rw [List.cons_append, of_text_next next]
  rfl

def Takes (tokens : List Token) (before after : Expecting) : Prop :=
  tokens.foldlM Expecting.step before = some after

theorem takes_nil (state : Expecting) : Takes [] state state := rfl

theorem takes_cons {token : Token} {tokens : List Token} {before next after : Expecting}
    (step : before.step token = some next) (more : Takes tokens next after) :
    Takes (token :: tokens) before after := by
  rw [Takes, List.foldlM_cons, step]
  exact more

theorem takes_append {one two : List Token} {before between after : Expecting}
    (first : Takes one before between) (second : Takes two between after) :
    Takes (one ++ two) before after := by
  rw [Takes, List.foldlM_append, first]
  exact second

/-- The text of the value is lexed to the tokens, and they read the value in any place. -/
structure ReadBy (v : Value) (tokens : List Token) : Prop where
  lexed : Lexes (valueText v) tokens
  taken : ∀ stack, Takes tokens (.value stack) (.more v stack)

theorem number_of_integer (n : Int) : numberOf? (integerText n) = some (.int n) := by
  have plain : ¬ ((Numeral.ofInt n).whole.length > 1 ∧
      (Numeral.ofInt n).whole.head? = some '0') := by
    intro superfluous
    exact no_superfluous_zero superfluous.1 superfluous.2
  have whole : (Numeral.ofInt n).isWhole = true := rfl
  simp only [numberOf?, Numeral.integer_text_reads, Option.bind_eq_bind, Option.bind_some]
  simp [plain, whole, Numeral.of_int_value]

theorem word_of_integer (n : Int) : wordScalar? (integerText n) = some (.int n) := by
  have unnamed (name : String) (no_number : Numeral.read? name.toList = none) :
      String.ofList (integerText n) ≠ name := by
    rintro rfl
    rw [String.toList_ofList, Numeral.integer_text_reads] at no_number
    contradiction
  unfold wordScalar?
  split
  · exact absurd ‹_› (unnamed "null" rfl)
  · exact absurd ‹_› (unnamed "true" rfl)
  · exact absurd ‹_› (unnamed "false" rfl)
  · exact absurd ‹_› (unnamed "NaN" rfl)
  · exact absurd ‹_› (unnamed "Infinity" rfl)
  · exact absurd ‹_› (unnamed "-Infinity" rfl)
  · exact number_of_integer n

theorem integer_word (n : Int) : ∀ c ∈ integerText n, isWordChar c = true := by
  intro c member
  rcases integer_text_char member with rfl | digit
  · rfl
  · simp [isWordChar, Char.isAlphanum, digit]

theorem word_read {s : Scalar} (full : scalarText s ≠ [])
    (word : ∀ c ∈ scalarText s, isWordChar c = true)
    (named : wordScalar? (scalarText s) = some s) :
    ReadBy (.scalar s) [.word (scalarText s)] := by
  constructor
  · exact lexes_word full word
  · intro stack
    refine takes_cons ?_ (takes_nil _)
    rw [Expecting.step, startValue, named]
    rfl

theorem string_read (s : String) : ReadBy (.string s) [.string s.toList] := by
  constructor
  · exact lexes_string s
  · intro stack
    refine takes_cons ?_ (takes_nil _)
    rw [Expecting.step, startValue, String.ofList_toList]

theorem scalar_read {s : Scalar} (no_float : ∀ x, s ≠ .float x) :
    ∃ tokens, ReadBy (.scalar s) tokens := by
  cases s with
  | null =>
    have word := List.all_eq_true.mp (show (scalarText .null).all isWordChar = true by decide)
    exact ⟨_, word_read (by simp [scalarText]) word (by decide)⟩
  | bool b =>
    have word := List.all_eq_true.mp
      (show (scalarText (.bool b)).all isWordChar = true by cases b <;> decide)
    exact ⟨_, word_read (by cases b <;> simp [scalarText]) word (by cases b <;> decide)⟩
  | int n =>
    have full : integerText n ≠ [] := by
      intro empty
      have read := Numeral.integer_text_reads n
      rw [empty] at read
      contradiction
    exact ⟨_, word_read full (integer_word n) (word_of_integer n)⟩
  | float x => exact absurd rfl (no_float x)
  | string s => exact ⟨_, string_read s⟩

theorem lexes_separated {text rest : List Char} {first others : List Token}
    (front : Lexes text first) (back : Lexes rest others) :
    Lexes (text ++ ',' :: ' ' :: rest) (first ++ .comma :: others) := by
  apply lexes_append front (lexes_punctuation rfl (lexes_space back))
  intro behind _
  exact ends_word_punctuation rfl _

theorem lexes_enclosed {before after : Char} {text : List Char} {opening closing : Token}
    {tokens : List Token} (opens : punctuation? before = some opening)
    (closes : punctuation? after = some closing) (inside : Lexes text tokens) :
    Lexes (before :: (text ++ [after])) (opening :: (tokens ++ [closing])) := by
  apply lexes_punctuation opens
  apply lexes_append inside (lexes_punctuation closes lexes_end)
  intro behind _
  exact ends_word_punctuation closes _

/-- Entries between brackets: their text, the value they make, and what the decoder expects around
and between them, with the entries before in reverse and whatever is open outside. -/
structure Brackets (α : Type) where
  left : Char
  right : Char
  opening : Token
  closing : Token
  text : α → List Char
  make : List α → Value
  start : List Frame → Expecting
  entry : List α → List Frame → Expecting
  behind : List α → α → List Frame → Expecting
  opens : punctuation? left = some opening
  closes : punctuation? right = some closing
  enters : ∀ stack, (Expecting.value stack).step opening = some (start stack)
  begins : ∀ token stack after, (entry [] stack).step token = some after →
    (start stack).step token = some after
  empty : ∀ stack, (start stack).step closing = some (.more (make []) stack)
  goes_on : ∀ done last stack,
    (behind done last stack).step .comma = some (entry (last :: done) stack)
  leaves : ∀ done last stack,
    (behind done last stack).step closing = some (.more (make (last :: done).reverse) stack)

def arrays : Brackets Value where
  left := '['
  right := ']'
  opening := .openArray
  closing := .closeArray
  text := valueText
  make := .array
  start := .itemOrEnd
  entry done stack := .value (.items done :: stack)
  behind done last stack := .more last (.items done :: stack)
  opens := rfl
  closes := rfl
  enters _ := rfl
  begins token stack after step := by
    -- no value begins with the closing bracket, the one token that is read in another way
    cases token with
    | closeArray => contradiction
    | _ => exact step
  empty _ := rfl
  goes_on _ _ _ := rfl
  leaves _ _ _ := rfl

def objects : Brackets (String × Value) where
  left := '\x7b'
  right := '\x7d'
  opening := .openObject
  closing := .closeObject
  text member := keyText (.string member.1) ++ ':' :: ' ' :: valueText member.2
  make members := .object (mergeMembers (· == ·) (named members))
  start := .keyOrEnd
  entry done stack := .key (named done) stack
  behind done last stack := .more last.2 (.members (named done) last.1 :: stack)
  opens := rfl
  closes := rfl
  enters _ := rfl
  begins token stack after step := by
    cases token with
    | string s => exact step
    | _ => contradiction
  empty _ := rfl
  goes_on _ _ _ := rfl
  leaves done last stack := by
    have turned : named (last :: done).reverse = (named (last :: done)).reverse :=
      List.map_reverse
    rw [turned]
    rfl

namespace Brackets

variable {α : Type} (brackets : Brackets α)

structure Reads (entry : α) (tokens : List Token) : Prop where
  lexed : Lexes (brackets.text entry) tokens
  taken : ∀ done stack,
    Takes tokens (brackets.entry done stack) (brackets.behind done entry stack)

variable {brackets} {entries : List α}

theorem entries_read (full : entries ≠ [])
    (each : ∀ entry ∈ entries, ∃ tokens, brackets.Reads entry tokens) :
    ∃ tokens, Lexes (separated (entries.map brackets.text)) tokens ∧
      ∀ done stack, Takes (tokens ++ [brackets.closing]) (brackets.entry done stack)
        (.more (brackets.make (done.reverse ++ entries)) stack) := by
  induction entries with
  | nil => contradiction
  | cons entry entries ih =>
    obtain ⟨first, read⟩ := each entry (by simp)
    cases entries with
    | nil =>
      refine ⟨first, read.lexed, ?_⟩
      intro done stack
      have leaves := brackets.leaves done entry stack
      rw [List.reverse_cons] at leaves
      exact takes_append (read.taken done stack) (takes_cons leaves (takes_nil _))
    | cons next entries =>
      obtain ⟨others, lexed, taken⟩ :=
        ih (by simp) fun other listed => each other (List.mem_cons_of_mem _ listed)
      refine ⟨first ++ .comma :: others, lexes_separated read.lexed lexed, ?_⟩
      intro done stack
      have behind := taken (entry :: done) stack
      rw [List.reverse_cons, List.append_assoc] at behind
      rw [List.append_assoc]
      exact takes_append (read.taken done stack)
        (takes_cons (brackets.goes_on done entry stack) behind)

theorem first_entry {tokens : List Token} {stack : List Frame} {after : Expecting}
    (full : tokens ≠ []) (taken : Takes tokens (brackets.entry [] stack) after) :
    Takes tokens (brackets.start stack) after := by
  obtain ⟨token, tokens, rfl⟩ := List.exists_cons_of_ne_nil full
  rw [Takes, List.foldlM_cons, Option.bind_eq_bind, Option.bind_eq_some_iff] at taken
  obtain ⟨next, step, more⟩ := taken
  exact takes_cons (brackets.begins token stack next step) more

theorem read_back {v : Value}
    (written : valueText v = brackets.left ::
      (separated (entries.map brackets.text) ++ [brackets.right]))
    (made : brackets.make entries = v)
    (each : ∀ entry ∈ entries, ∃ tokens, brackets.Reads entry tokens) :
    ∃ tokens, ReadBy v tokens := by
  by_cases full : entries = []
  · subst full
    refine ⟨[brackets.opening, brackets.closing], ?_, ?_⟩
    · rw [written]
      exact lexes_enclosed brackets.opens brackets.closes lexes_end
    · intro stack
      rw [← made]
      exact takes_cons (brackets.enters stack) (takes_cons (brackets.empty stack) (takes_nil _))
  · obtain ⟨tokens, lexed, taken⟩ := entries_read full each
    refine ⟨brackets.opening :: (tokens ++ [brackets.closing]), ?_, ?_⟩
    · rw [written]
      exact lexes_enclosed brackets.opens brackets.closes lexed
    · intro stack
      have inside := taken [] stack
      rw [List.reverse_nil, List.nil_append, made] at inside
      exact takes_cons (brackets.enters stack) (first_entry (by simp) inside)

end Brackets

theorem member_read (name : String) {v : Value} {tokens : List Token} (read : ReadBy v tokens) :
    objects.Reads (name, v) (.string name.toList :: .colon :: tokens) := by
  constructor
  · apply lexes_append (lexes_string name) (lexes_punctuation rfl (lexes_space read.lexed))
    intro behind _
    exact ends_word_punctuation rfl _
  · intro done stack
    have keyed : (Expecting.key (named done) stack).step (.string name.toList) =
        some (.colon (named done) name stack) := by
      rw [Expecting.step, String.ofList_toList]
    exact takes_cons keyed (takes_cons rfl (read.taken _))

theorem value_read {v : Value} (json : IsJson v) (whole : ∀ x, ¬ v.Contains (.float x)) :
    ∃ tokens, ReadBy v tokens := by
  induction json with
  | scalar s =>
    apply scalar_read
    rintro x rfl
    exact whole x (.self _)
  | @array items each ih =>
    have written : valueText (.array items) =
        '[' :: (separated (items.map valueText) ++ [']']) := by
      rw [valueText, item_texts_map]
    apply arrays.read_back written rfl
    intro item listed
    obtain ⟨tokens, read⟩ := ih item listed fun x inside => whole x (.item listed inside)
    exact ⟨tokens, read.lexed, fun done stack => read.taken _⟩
  | @object members distinct each ih =>
    have written : valueText (.object (named members)) =
        '\x7b' :: (separated (members.map objects.text) ++ ['\x7d']) := by
      rw [valueText, member_texts_map, named, List.map_map]
      rfl
    have apart : (named members).Pairwise fun a b => (a.1 == b.1) = false := by
      rw [named, List.pairwise_map]
      exact (List.pairwise_map.mp distinct).imp fun differ => by simpa using differ
    have made : objects.make members = .object (named members) :=
      congrArg Value.object (merge_members_of_pairwise apart)
    apply objects.read_back written made
    intro member listed
    obtain ⟨tokens, read⟩ :=
      ih member listed fun x inside => whole x (.member (mem_named listed) inside)
    exact ⟨_, member_read member.1 read⟩

/-- A value without fractions is decoded from its text as it was, in the same order. -/
theorem decode_encode {v : Value} (json : IsJson v) (whole : ∀ x, ¬ v.Contains (.float x)) :
    decode (encode v) = some v := by
  obtain ⟨tokens, read⟩ := value_read json whole
  have lexed := read.lexed [] (by simp [EndsWord])
  rw [List.append_nil, of_text_nil, Option.map_some, List.append_nil] at lexed
  rw [decode, decodeChars, encode, String.toList_ofList, lexed, Option.bind_some, ofTokens,
    read.taken]

end Stencil.Json
