import Stencil.Proofs.Marker.Grammar

/-!
A reader for the grammar of template strings. It finds the derivation of a string if there is
one, so no string has two.
-/
namespace Stencil.Marker

def readBody? (triple : Bool) : List Char → Option (List Piece × List Char)
  | [] => none
  | '\\' :: '{' :: '{' :: '{' :: rest =>
    (readBody? triple rest).map (Prod.map (.escape3 :: ·) id)
  | '\\' :: '{' :: '{' :: rest => (readBody? triple rest).map (Prod.map (.escape2 :: ·) id)
  | c :: rest =>
    match takeCloser? triple (c :: rest) with
    | some after => some ([], after)
    | none => (readBody? triple rest).map (Prod.map (.char c :: ·) id)

theorem read_body_close (triple : Bool) (after : List Char) :
    readBody? triple (closer triple ++ after) = some ([], after) := by
  have taken := take_closer_iff.mpr (rfl : closer triple ++ after = closer triple ++ after)
  cases triple <;> simp_all [closer, readBody?]

theorem read_body_piece {triple : Bool} {first : Piece} {rest : List Char}
    (fits : first.Fits (closer triple <+: ·) rest) :
    readBody? triple (first.spelling ++ rest) =
      (readBody? triple rest).map (Prod.map (first :: ·) id) := by
  cases first with
  | escape3 => rfl
  | escape2 =>
    cases rest with
    | nil => rfl
    | cons c rest =>
      have other : c ≠ '{' := by simpa [Piece.Fits] using fits
      simp [Piece.spelling, readBody?, other]
  | char c =>
    have inside := take_closer_none_iff.mpr fits.2
    have plain := not_escape_of_fits fits
    simp only [Piece.spelling, List.cons_append, List.nil_append]
    rw [readBody?.eq_4 triple c rest (fun _ => plain _) plain, inside]

theorem read_body_complete {triple : Bool} {body : List Piece} {source after : List Char}
    (closed : Body triple body source after) : readBody? triple source = some (body, after) := by
  induction closed with
  | close after => exact read_body_close triple after
  | piece fits more ih => simp [read_body_piece fits, ih]

theorem read_body_sound {triple : Bool} {source : List Char} {body : List Piece}
    {after : List Char} (found : readBody? triple source = some (body, after)) :
    Body triple body source after := by
  induction source using piece_induction (closer triple <+: ·) generalizing body with
  | nil => simp [readBody?] at found
  | stopped source here =>
    obtain ⟨tail, rfl⟩ := here
    rw [read_body_close] at found
    cases found
    exact .close after
  | piece first rest fits ih =>
    rw [read_body_piece fits] at found
    simp only [Option.map_eq_some_iff, Prod.exists, Prod.map_apply, Prod.mk.injEq, id] at found
    obtain ⟨pieces, tail, read, rfl, rfl⟩ := found
    exact .piece fits (ih read)

theorem body_shrinks {triple : Bool} {body : List Piece} {source after : List Char}
    (closed : Body triple body source after) : after.length < source.length := by
  induction closed with
  | close after =>
    have positive : 0 < (closer triple).length := by cases triple <;> simp [closer]
    simp only [List.length_append]
    omega
  | piece fits more ih =>
    simp only [List.length_append]
    omega

def readMixed? : List Char → Option (List Lexeme)
  | [] => some []
  | '\\' :: '{' :: '{' :: '{' :: rest => (readMixed? rest).map (.text .escape3 :: ·)
  | '\\' :: '{' :: '{' :: rest => (readMixed? rest).map (.text .escape2 :: ·)
  | c :: rest =>
    if opensPath (c :: rest) then
      match found : readBody? false (rest.drop 1) with
      | none => none
      | some (body, after) =>
        have := body_shrinks (read_body_sound found)
        (readMixed? after).map (.marker body :: ·)
    else (readMixed? rest).map (.text (.char c) :: ·)
termination_by source => source.length
decreasing_by all_goals simp_all <;> omega

theorem read_mixed_piece {first : Piece} {rest : List Char} (fits : first.Fits PathAhead rest) :
    readMixed? (first.spelling ++ rest) = (readMixed? rest).map (.text first :: ·) := by
  cases first with
  | escape3 => simp [Piece.spelling, readMixed?]
  | escape2 =>
    cases rest with
    | nil => simp [Piece.spelling, readMixed?]
    | cons c rest =>
      have other : c ≠ '{' := by simpa [Piece.Fits] using fits
      simp [Piece.spelling, readMixed?, other]
  | char c =>
    have closed : ¬ opensPath (c :: rest) = true := fun opens =>
      fits.2 ((path_ahead_iff _).mpr opens)
    have plain := not_escape_of_fits fits
    simp only [Piece.spelling, List.cons_append, List.nil_append]
    rw [readMixed?.eq_4 c rest (fun _ => plain _) plain, if_neg closed]

theorem read_mixed_marker {body : List Piece} {inside after : List Char}
    (plain : NoOperator inside) (found : readBody? false inside = some (body, after)) :
    readMixed? ('{' :: '{' :: inside) = (readMixed? after).map (.marker body :: ·) := by
  have opens := (path_ahead_iff _).mp ⟨inside, rfl, plain⟩
  rw [readMixed?.eq_4 _ _ (by simp) (by simp), if_pos opens]
  split
  · rename_i unclosed
    simp [found] at unclosed
  · rename_i read
    simp only [List.drop_succ_cons, List.drop_zero, found] at read
    cases read
    rfl

theorem read_mixed_unclosed {inside : List Char} (plain : NoOperator inside)
    (unclosed : readBody? false inside = none) : readMixed? ('{' :: '{' :: inside) = none := by
  have opens := (path_ahead_iff _).mp ⟨inside, rfl, plain⟩
  rw [readMixed?.eq_4 _ _ (by simp) (by simp), if_pos opens]
  split
  · rfl
  · rename_i read
    simp [unclosed] at read

theorem read_mixed_complete {lexemes : List Lexeme} {source : List Char}
    (mixed : Mixed lexemes source) : readMixed? source = some lexemes := by
  induction mixed with
  | nil => simp [readMixed?]
  | text fits more ih => simp [read_mixed_piece fits, ih]
  | marker plain closed more ih =>
    simp [read_mixed_marker plain (read_body_complete closed), ih]

theorem read_mixed_sound {source : List Char} {lexemes : List Lexeme}
    (found : readMixed? source = some lexemes) : Mixed lexemes source := by
  induction length : source.length using Nat.strongRecOn generalizing source lexemes with
  | ind n ih =>
    rcases piece_or_stop PathAhead source with rfl | ⟨inside, rfl, plain⟩ | ⟨first, rest, rfl, fits⟩
    · simp only [readMixed?, Option.some.injEq] at found
      subst found
      exact .nil
    · cases read : readBody? false inside with
      | none => simp [read_mixed_unclosed plain read] at found
      | some result =>
        obtain ⟨body, after⟩ := result
        have closed := read_body_sound read
        have shorter := body_shrinks closed
        rw [read_mixed_marker plain read, Option.map_eq_some_iff] at found
        obtain ⟨others, tail, rfl⟩ := found
        simp only [List.length_cons] at length
        exact .marker plain closed (ih _ (by omega) tail rfl)
    · have positive := first.spelling_length_pos
      rw [read_mixed_piece fits, Option.map_eq_some_iff] at found
      obtain ⟨others, tail, rfl⟩ := found
      simp only [List.length_append] at length
      exact .text fits (ih _ (by omega) tail rfl)

def readDerivation? (source : List Char) : Option Derivation :=
  match takeOpener? source with
  | none => (readMixed? source).map .mixed
  | some (kind, inside) =>
    match readBody? (kind = .raw) inside with
    | some (body, []) => some (.whole kind body)
    | _ => none

theorem read_derivation_complete {derivation : Derivation} {source : List Char}
    (derived : Derives derivation source) : readDerivation? source = some derivation := by
  cases derived with
  | whole kind closed =>
    simp [readDerivation?, take_opener_iff.mpr rfl, read_body_complete closed]
  | mixed plain more =>
    simp [readDerivation?, take_opener_none_iff.mpr plain, read_mixed_complete more]

theorem read_derivation_sound {derivation : Derivation} {source : List Char}
    (found : readDerivation? source = some derivation) : Derives derivation source := by
  cases opens : takeOpener? source with
  | none =>
    simp only [readDerivation?, opens, Option.map_eq_some_iff] at found
    obtain ⟨lexemes, read, rfl⟩ := found
    exact .mixed (take_opener_none_iff.mp opens) (read_mixed_sound read)
  | some start =>
    obtain ⟨kind, inside⟩ := start
    simp only [readDerivation?, opens] at found
    split at found
    · rename_i body read
      cases found
      rw [take_opener_iff.mp opens]
      exact .whole kind (read_body_sound read)
    · contradiction

theorem read_derivation_iff {derivation : Derivation} {source : List Char} :
    readDerivation? source = some derivation ↔ Derives derivation source :=
  ⟨read_derivation_sound, read_derivation_complete⟩

theorem derives_unique {first second : Derivation} {source : List Char}
    (one : Derives first source) (two : Derives second source) : first = second := by
  have same := (read_derivation_complete one).symm.trans (read_derivation_complete two)
  exact Option.some.inj same

end Stencil.Marker
