import Stencil.Proofs.Marker.Grammar
import Stencil.Proofs.Marker.Run

/-!
Escaping. A backslash is put before each run of three braces, or else of two, from left to
right; what is escaped reads back in text and in the body of a marker. Both depend on what
follows: a brace behind a last brace, or two behind a last backslash, would be read together.
-/
namespace Stencil.Marker

variable {π : Type}

def escape : List Char → List Char
  | '{' :: '{' :: '{' :: rest => '\\' :: '{' :: '{' :: '{' :: escape rest
  | '{' :: '{' :: rest => '\\' :: '{' :: '{' :: escape rest
  | c :: rest => c :: escape rest
  | [] => []

def MayFollow (text tail : List Char) : Prop :=
  (text.getLast? = some '{' → tail.head? ≠ some '{') ∧
    (text.getLast? = some '\\' → ¬ ['{', '{'] <+: tail)

theorem may_follow_nil (text : List Char) : MayFollow text [] := by
  simp [MayFollow]

theorem may_follow_close (text after : List Char) (triple : Bool) :
    MayFollow text (closer triple ++ after) := by
  cases triple <;> simp [MayFollow, closer]

theorem MayFollow.rest {c : Char} {text tail : List Char} (follow : MayFollow (c :: text) tail) :
    MayFollow text tail := by
  cases text with
  | nil => simp [MayFollow]
  | cons d text => simpa [MayFollow] using follow

theorem escape_cons_of_ne {c : Char} (other : c ≠ '{') (rest : List Char) :
    escape (c :: rest) = c :: escape rest := by
  rw [escape.eq_3] <;> simp [other]

theorem head_ne_brace {text : List Char} (single : ∀ rest, text = '{' :: rest → False) :
    text.head? ≠ some '{' := by
  cases text with
  | nil => simp
  | cons c rest =>
    intro equal
    cases equal
    exact single rest rfl

theorem escape_head (c : Char) (rest : List Char) :
    (escape (c :: rest)).head? = some c ∨ (escape (c :: rest)).head? = some '\\' := by
  generalize equal : c :: rest = text
  fun_cases escape text with
  | case1 rest => exact .inr rfl
  | case2 rest => exact .inr rfl
  | case3 d rest =>
    cases equal
    exact .inl rfl
  | case4 => contradiction

theorem escape_head_brace {text tail : List Char} (single : text.head? ≠ some '{')
    (follow : MayFollow ('{' :: text) tail) : (escape text ++ tail).head? ≠ some '{' := by
  cases text with
  | nil => simpa [escape] using follow.1
  | cons c text =>
    have other : c ≠ '{' := by simpa using single
    simp [escape_cons_of_ne other, other]

theorem escape_no_open {text tail : List Char} (follow : MayFollow ('\\' :: text) tail) :
    ¬ ['{', '{'] <+: escape text ++ tail := by
  fun_cases escape text with
  | case1 rest => simp
  | case2 rest => simp
  | case3 c rest _ single =>
    intro begins
    obtain ⟨more, equal⟩ := begins
    simp only [List.cons_append, List.nil_append, List.cons.injEq] at equal
    obtain ⟨rfl, equal⟩ := equal
    exact escape_head_brace (head_ne_brace (single · rfl)) follow.rest (by simp [← equal])
  | case4 => simpa [escape] using follow.2

theorem escape2_fits {stop : List Char → Prop} {rest tail : List Char}
    (single : rest.head? ≠ some '{') (follow : MayFollow ('{' :: '{' :: rest) tail) :
    Piece.escape2.Fits stop (escape rest ++ tail) :=
  escape_head_brace single follow.rest

theorem char_fits {stop : List Char → Prop} {c : Char} {rest tail : List Char}
    (follow : MayFollow (c :: rest) tail) (free : ¬ stop (c :: (escape rest ++ tail))) :
    (Piece.char c).Fits stop (escape rest ++ tail) := by
  refine ⟨?_, free⟩
  intro begins
  obtain ⟨more, equal⟩ := begins
  simp only [List.cons_append, List.nil_append, List.cons.injEq] at equal
  obtain ⟨rfl, equal⟩ := equal
  exact escape_no_open follow ⟨more, equal⟩

theorem take_text_escape {text tail : List Char} (follow : MayFollow text tail) :
    takeText (escape text ++ tail) = (text ++ (takeText tail).1, (takeText tail).2) := by
  fun_induction escape text with
  | case1 rest ih =>
    have fits : Piece.escape3.Fits PathAhead (escape rest ++ tail) := trivial
    have read := take_text_piece fits
    rw [ih follow.rest.rest.rest] at read
    simpa [Piece.spelling, Piece.meaning] using read
  | case2 rest single ih =>
    have fits : Piece.escape2.Fits PathAhead (escape rest ++ tail) :=
      escape2_fits (head_ne_brace single) follow
    have read := take_text_piece fits
    rw [ih follow.rest.rest] at read
    simpa [Piece.spelling, Piece.meaning] using read
  | case3 c rest _ single ih =>
    have closed : ¬ PathAhead (c :: (escape rest ++ tail)) := by
      intro ahead
      obtain ⟨inside, equal, _⟩ := ahead
      simp only [List.cons.injEq] at equal
      obtain ⟨rfl, equal⟩ := equal
      exact escape_head_brace (head_ne_brace (single · rfl)) follow (by simp [equal])
    have read := take_text_piece (char_fits follow closed)
    rw [ih follow.rest] at read
    simpa [Piece.spelling, Piece.meaning] using read
  | case4 => simp

/-- A text that the body of a marker can mean: the closing braces do not occur in it, and it does
not end with one of them. -/
def Enclosable (triple : Bool) (text : List Char) : Prop :=
  ¬ closer triple <:+: text ∧ text.getLast? ≠ some '}'

theorem last_ne_rest {c d : Char} {rest : List Char} (last : (c :: rest).getLast? ≠ some d) :
    rest.getLast? ≠ some d := by
  cases rest with
  | nil => simp
  | cons e rest => simpa using last

theorem Enclosable.rest {triple : Bool} {c : Char} {text : List Char}
    (enclosable : Enclosable triple (c :: text)) : Enclosable triple text :=
  ⟨fun inner => enclosable.1 (List.infix_cons inner), last_ne_rest enclosable.2⟩

theorem escape_of_no_open {text : List Char} (free : ¬ ['{', '{'] <:+: text) :
    escape text = text := by
  fun_induction escape text with
  | case1 rest => exact absurd ⟨[], '{' :: rest, rfl⟩ free
  | case2 rest => exact absurd ⟨[], rest, rfl⟩ free
  | case3 c rest _ _ ih => rw [ih fun inner => free (List.infix_cons inner)]
  | case4 => rfl

theorem take_text_escape_all (text : List Char) : takeText (escape text) = (text, []) := by
  have read := take_text_escape (may_follow_nil text)
  simpa [takeText] using read

theorem escape_injective {one two : List Char} (same : escape one = escape two) : one = two := by
  have read := take_text_escape_all one
  rw [same, take_text_escape_all two] at read
  exact (congrArg Prod.fst read).symm

def escapeString (s : String) : String := String.ofList (escape s.toList)

theorem escape_string_injective {one two : String} (same : escapeString one = escapeString two) :
    one = two :=
  String.toList_inj.mp (escape_injective (String.ofList_injective same))

theorem take_opener_escape (text : List Char) : takeOpener? (escape text) = none := by
  rw [take_opener_none_iff]
  intro kind begins
  obtain ⟨inside, equal⟩ := begins
  have open2 : ['{', '{'] <+: opener kind := by cases kind <;> simp [opener]
  have no := escape_no_open (may_follow_nil ('\\' :: text))
  rw [List.append_nil, ← equal] at no
  exact no (open2.trans (List.prefix_append _ _))

theorem scan_escape (compile : String → Except String π) (s : String) :
    scan compile (escapeString s) = .ok (.literal s) := by
  rw [scan_ok_iff, escapeString, String.toList_ofList, run_start_text (take_opener_escape _),
    run_text_end (take_text_escape_all _)]
  simp [finishText]

theorem closer_eq (triple : Bool) :
    closer triple = List.replicate (if triple then 3 else 2) '}' := by
  cases triple <;> rfl

theorem closing_run_of_escape {n : Nat} {text tail : List Char} (full : text ≠ [])
    (last : text.getLast? ≠ some '}') (run : List.replicate n '}' <+: escape text ++ tail) :
    List.replicate n '}' <+: text := by
  induction n generalizing text with
  | zero => simp
  | succ n ih =>
    cases text with
    | nil => contradiction
    | cons c rest =>
      by_cases brace : c = '}'
      · subst c
        rw [escape_cons_of_ne (by decide)] at run
        simp only [List.replicate_succ, List.cons_append, List.cons_prefix_cons, true_and] at run ⊢
        have more : rest ≠ [] := by
          intro empty
          subst rest
          exact last rfl
        exact ih more (last_ne_rest last) run
      · obtain ⟨more, equal⟩ := run
        have head := congrArg List.head? equal
        rcases escape_head c rest with first | first <;>
          simp [List.replicate_succ, List.head?_append, first, Ne.symm brace] at head

theorem take_body_escape {triple : Bool} {text after : List Char}
    (enclosable : Enclosable triple text) :
    takeBody? triple (escape text ++ (closer triple ++ after)) = some (text, after) := by
  have follow := may_follow_close text after triple
  fun_induction escape text with
  | case1 rest ih =>
    have fits : Piece.escape3.Fits (closer triple <+: ·)
        (escape rest ++ (closer triple ++ after)) := trivial
    have read := take_body_piece fits
    rw [ih enclosable.rest.rest.rest follow.rest.rest.rest] at read
    simpa [Piece.spelling, Piece.meaning] using read
  | case2 rest single ih =>
    have fits : Piece.escape2.Fits (closer triple <+: ·)
        (escape rest ++ (closer triple ++ after)) := escape2_fits (head_ne_brace single) follow
    have read := take_body_piece fits
    rw [ih enclosable.rest.rest follow.rest.rest] at read
    simpa [Piece.spelling, Piece.meaning] using read
  | case3 c rest three two ih =>
    have closed : ¬ closer triple <+: c :: (escape rest ++ (closer triple ++ after)) := by
      intro run
      have same : escape (c :: rest) = c :: escape rest := escape.eq_3 c rest three two
      rw [closer_eq, ← List.cons_append, ← same] at run
      have inner := closing_run_of_escape (List.cons_ne_nil c rest) enclosable.2 run
      rw [← closer_eq] at inner
      exact enclosable.1 inner.isInfix
    have read := take_body_piece (char_fits follow closed)
    rw [ih enclosable.rest follow.rest] at read
    simpa [Piece.spelling, Piece.meaning] using read
  | case4 => simpa [escape] using take_body_close triple after

end Stencil.Marker
