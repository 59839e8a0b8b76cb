import Stencil.Text.Line

/-!
Lines of a text. All that stands before a line has been ended, the characters that end a line are
blank, and so a line without the blanks at its end has none of them. An index inside the text has
its place in the line that covers it.
-/
namespace Stencil.Text

def OneLine (text : List Char) : Prop := ∀ c ∈ text, endsLine c = false

instance (text : List Char) : Decidable (OneLine text) :=
  List.decidableBAll (fun c => endsLine c = false) text

theorem one_line_append {first second : List Char} :
    OneLine (first ++ second) ↔ OneLine first ∧ OneLine second :=
  List.forall_mem_append

theorem of_ends_line {p : Char → Bool} {c : Char}
    (all : ['\n', '\r', '\x0b', '\x0c', '\x1c', '\x1d', '\x1e', '\u0085', '\u2028', '\u2029'].all
      p = true) (ends : endsLine c = true) : p c = true :=
  List.all_eq_true.mp all c (by simpa [endsLine] using ends)

theorem blank_of_ends_line {c : Char} (ends : endsLine c = true) : isBlank c = true :=
  of_ends_line (by decide) ends

theorem split_lines_char {c : Char} (plain : endsLine c = false) (rest : List Char) :
    splitLines (c :: rest) =
      match splitLines rest with
      | [] => [[c]]
      | line :: lines => (c :: line) :: lines := by
  have other : c ≠ '\r' := by
    rintro rfl
    contradiction
  have step := splitLines.eq_3 c rest fun _ same => absurd same other
  rw [if_neg (by simp [plain])] at step
  refine step.trans ?_
  cases splitLines rest <;> rfl

theorem split_lines_single {line : List Char} (plain : OneLine line) (full : line ≠ []) :
    splitLines line = [line] := by
  induction line with
  | nil => exact absurd rfl full
  | cons c rest ih =>
    obtain ⟨first, others⟩ := List.forall_mem_cons.mp plain
    rw [split_lines_char first]
    cases rest with
    | nil => rfl
    | cons d rest => rw [ih others (by simp)]

theorem split_lines_ended {line : List Char} (plain : OneLine line) (rest : List Char) :
    splitLines (line ++ '\n' :: rest) = (line ++ ['\n']) :: splitLines rest := by
  induction line with
  | nil => rfl
  | cons c line ih =>
    obtain ⟨first, others⟩ := List.forall_mem_cons.mp plain
    rw [List.cons_append, split_lines_char first, ih others]
    rfl

inductive IsEnding : List Char → Prop where
  | pair : IsEnding ['\r', '\n']
  | single {c : Char} (ends : endsLine c = true) : IsEnding [c]

/-- The first line is a run of other characters with the ending behind it, and only the last line
may have none. -/
structure FirstLine (text body ending rest : List Char) : Prop where
  spelled : text = body ++ ending ++ rest
  split : splitLines text = (body ++ ending) :: splitLines rest
  plain : OneLine body
  ended : IsEnding ending ∨ ending = [] ∧ rest = []

theorem first_line_of_ending {ending rest : List Char} (ends : IsEnding ending)
    (split : splitLines (ending ++ rest) = ending :: splitLines rest) :
    FirstLine (ending ++ rest) [] ending rest :=
  ⟨rfl, split, by simp [OneLine], .inl ends⟩

theorem first_line_cons {c : Char} {text body ending rest : List Char} (plain : endsLine c = false)
    (first : FirstLine text body ending rest) : FirstLine (c :: text) (c :: body) ending rest where
  spelled := by rw [first.spelled]; rfl
  split := by rw [split_lines_char plain, first.split]; rfl
  plain := List.forall_mem_cons.mpr ⟨plain, first.plain⟩
  ended := first.ended

theorem first_line {text : List Char} (full : text ≠ []) :
    ∃ body ending rest, FirstLine text body ending rest := by
  induction text using splitLines.induct with
  | case1 => contradiction
  | case2 rest ih => exact ⟨_, _, _, first_line_of_ending .pair rfl⟩
  | case3 c rest other ends ih =>
    have split : splitLines ([c] ++ rest) = [c] :: splitLines rest := by
      rw [List.cons_append, List.nil_append, splitLines.eq_3 c rest other, if_pos ends]
    exact ⟨_, _, _, first_line_of_ending (.single ends) split⟩
  | case4 c rest other plain none ih =>
    have empty : rest = [] := by rw [← flatten_split_lines rest, none, List.flatten_nil]
    have alone : OneLine [c] := by simpa [OneLine] using plain
    subst empty
    exact ⟨[c], [], [], rfl, split_lines_single alone (by simp), alone, .inr ⟨rfl, rfl⟩⟩
  | case5 c rest other plain line lines some ih =>
    have full : rest ≠ [] := by
      rintro rfl
      contradiction
    obtain ⟨body, ending, tail, first⟩ := ih full
    exact ⟨_, _, _, first_line_cons (by simpa using plain) first⟩

theorem ending_last {ending : List Char} (ends : IsEnding ending) (body : List Char) :
    ∃ front c, body ++ ending = front ++ [c] ∧ endsLine c = true := by
  cases ends with
  | pair => exact ⟨body ++ ['\r'], '\n', by simp, rfl⟩
  | @single c ends => exact ⟨body, c, rfl, ends⟩

theorem ended_before_line {text : List Char} {earlier later : List (List Char)} {line : List Char}
    (split : splitLines text = earlier ++ line :: later) (full : earlier ≠ []) :
    ∃ front c, earlier.flatten = front ++ [c] ∧ endsLine c = true := by
  induction earlier generalizing text with
  | nil => contradiction
  | cons before earlier ih =>
    have some : text ≠ [] := by
      rintro rfl
      simp [splitLines] at split
    obtain ⟨body, ending, rest, first⟩ := first_line some
    rw [first.split, List.cons_append, List.cons.injEq] at split
    obtain ⟨rfl, others⟩ := split
    rcases first.ended with ends | ⟨_, rfl⟩
    · cases earlier with
      | nil =>
        rw [List.flatten_cons, List.flatten_nil, List.append_nil]
        exact ending_last ends body
      | cons next earlier =>
        obtain ⟨front, c, last, ends⟩ := ih others (by simp)
        refine ⟨body ++ ending ++ front, c, ?_, ends⟩
        rw [List.flatten_cons, last, List.append_assoc (body ++ ending)]
    · simp [splitLines] at others

theorem trim_end_of_blank (text : List Char) {blanks : List Char}
    (blank : ∀ c ∈ blanks, isBlank c = true) : trimEnd (text ++ blanks) = trimEnd text := by
  have all : ∀ c ∈ blanks.reverse, isBlank c = true := by simpa using blank
  rw [trimEnd, trimEnd, List.reverse_append, List.dropWhile_append_of_pos all]

theorem trim_end_visible (text : List Char) {c : Char} (visible : isBlank c = false)
    (rest : List Char) : trimEnd (text ++ c :: rest) = text ++ c :: trimEnd rest := by
  have stops : (c :: text.reverse).dropWhile isBlank = c :: text.reverse := by
    simp [visible]
  have turned : (text ++ c :: rest).reverse = rest.reverse ++ c :: text.reverse := by simp
  rw [trimEnd, trimEnd, turned, List.dropWhile_append, stops]
  split
  · rename_i none
    simp [List.isEmpty_iff.mp none]
  · simp

theorem line_parts {text line : List Char} (member : line ∈ splitLines text) :
    ∃ body ending, line = body ++ ending ∧ OneLine body ∧ (IsEnding ending ∨ ending = []) := by
  generalize split : splitLines text = lines at member
  induction lines generalizing text with
  | nil => contradiction
  | cons line' lines ih =>
    have some : text ≠ [] := by
      rintro rfl
      simp [splitLines] at split
    obtain ⟨body, ending, rest, first⟩ := first_line some
    rw [first.split, List.cons.injEq] at split
    obtain ⟨rfl, others⟩ := split
    rcases List.mem_cons.mp member with rfl | later
    · exact ⟨body, ending, rfl, first.plain, first.ended.imp_right And.left⟩
    · exact ih others later

theorem blank_of_ending {ending : List Char} (ends : IsEnding ending ∨ ending = []) :
    ∀ c ∈ ending, isBlank c = true := by
  rcases ends with ends | rfl
  · cases ends with
    | pair => exact List.all_eq_true.mp rfl
    | single ends => simpa using blank_of_ends_line ends
  · simp

theorem trimmed_line {text line : List Char} (member : line ∈ splitLines text) :
    OneLine (trimEnd line) := by
  obtain ⟨body, ending, rfl, plain, ends⟩ := line_parts member
  rw [trim_end_of_blank body (blank_of_ending ends)]
  intro c there
  exact plain c ((trim_end_starts body).subset there)

theorem place_from_covered {lines : List (List Char)} {index start : Nat} (number : Nat)
    (behind : start ≤ index) (covered : index < start + lines.flatten.length) :
    ∃ earlier line later, lines = earlier ++ line :: later ∧
      start + earlier.flatten.length ≤ index ∧
      index < start + earlier.flatten.length + line.length ∧
      placeFrom index number start lines =
        some ⟨number + earlier.length, index - (start + earlier.flatten.length : Nat),
          trimEnd line⟩ := by
  induction lines generalizing number start with
  | nil =>
    simp only [List.flatten_nil, List.length_nil] at covered
    omega
  | cons line lines ih =>
    rw [placeFrom]
    by_cases here : index < start + line.length
    · refine ⟨[], line, lines, rfl, by simpa using behind, by simpa using here, ?_⟩
      rw [if_pos (by exact_mod_cast here)]
      simp
    · simp only [List.flatten_cons, List.length_append] at covered
      obtain ⟨earlier, found, later, rfl, after, before, placed⟩ :=
        @ih (start + line.length) (number + 1) (by omega) (by omega)
      refine ⟨line :: earlier, found, later, rfl, ?_, ?_, ?_⟩
      · simp only [List.flatten_cons, List.length_append]
        omega
      · simp only [List.flatten_cons, List.length_append]
        omega
      · rw [if_neg (by exact_mod_cast here), placed]
        simp only [List.flatten_cons, List.length_append, List.length_cons, Option.some.injEq,
          Place.mk.injEq, and_true]
        omega

/-- The line that covers what follows `before`: `start` is the part of it before that, and `tail`
the part behind. -/
structure CoveringLine (before rest : List Char) (earlier later : List (List Char))
    (start tail : List Char) : Prop where
  split : splitLines (before ++ rest) = earlier ++ (start ++ tail) :: later
  front : before = earlier.flatten ++ start
  back : rest = tail ++ later.flatten
  full : tail ≠ []
  placed : place? (before ++ rest) before.length =
    some ⟨1 + earlier.length, start.length, trimEnd (start ++ tail)⟩

theorem covering_line (before : List Char) {rest : List Char} (full : rest ≠ []) :
    ∃ earlier later start tail, CoveringLine before rest earlier later start tail := by
  have text := flatten_split_lines (before ++ rest)
  have positive := List.length_pos_iff.mpr full
  have covered : before.length < 0 + (splitLines (before ++ rest)).flatten.length := by
    rw [text, List.length_append]
    omega
  obtain ⟨earlier, line, later, split, after, inside, placed⟩ :=
    place_from_covered 1 (Nat.zero_le _) covered
  rw [split, List.flatten_append, List.flatten_cons] at text
  have prior : earlier.flatten <+: before :=
    List.prefix_of_prefix_length_le ⟨_, text⟩ ⟨_, rfl⟩ (by omega)
  obtain ⟨start, rfl⟩ := prior
  rw [List.append_assoc, List.append_cancel_left_eq] at text
  simp only [List.length_append] at inside
  have within : start <+: line :=
    List.prefix_of_prefix_length_le ⟨_, rfl⟩ ⟨_, text⟩ (by omega)
  obtain ⟨tail, rfl⟩ := within
  rw [List.append_assoc, List.append_cancel_left_eq] at text
  refine ⟨earlier, later, start, tail, split, rfl, text.symm, ?_, ?_⟩
  · rintro rfl
    simp at inside
  · rw [place?, placed]
    simp only [List.length_append, Option.some.injEq, Place.mk.injEq, and_true, true_and]
    omega

theorem covering_line_continues {before rest : List Char} {earlier later : List (List Char)}
    {start tail : List Char} {c d : Char}
    (line : CoveringLine before (c :: d :: rest) earlier later start tail)
    (plain : endsLine c = false) : ∃ more, tail = c :: d :: more := by
  have back := line.back
  match tail, line.full with
  | [e], _ =>
    rw [List.singleton_append, List.cons.injEq] at back
    obtain ⟨rfl, behind⟩ := back
    cases later with
    | nil => contradiction
    | cons next later =>
      have split : splitLines (before ++ c :: d :: rest) =
          (earlier ++ [start ++ [c]]) ++ next :: later := by
        rw [line.split, List.append_assoc]
        rfl
      obtain ⟨front, last, ended, ends⟩ := ended_before_line split (by simp)
      rw [List.flatten_append, List.flatten_singleton, ← List.append_assoc] at ended
      have same := (List.append_inj' ended rfl).2
      simp only [List.cons.injEq, and_true] at same
      subst same
      simp [plain] at ends
  | e :: f :: more, _ =>
    simp only [List.cons_append, List.cons.injEq] at back
    exact ⟨more, by rw [back.1, back.2.1]⟩

theorem covering_line_begun {before rest : List Char} {earlier later : List (List Char)}
    {start tail : List Char} {c : Char}
    (line : CoveringLine (before ++ [c]) rest earlier later start tail)
    (plain : endsLine c = false) : ∃ more, start = more ++ [c] := by
  have front := line.front
  rcases List.eq_nil_or_concat start with rfl | ⟨more, d, rfl⟩
  · rw [List.append_nil] at front
    have some : earlier ≠ [] := by
      rintro rfl
      simp at front
    obtain ⟨other, last, ended, ends⟩ := ended_before_line line.split some
    rw [← front] at ended
    have same := (List.append_inj' ended rfl).2
    simp only [List.cons.injEq, and_true] at same
    subst same
    simp [plain] at ends
  · rw [List.concat_eq_append, ← List.append_assoc] at front
    have same := (List.append_inj' front rfl).2
    exact ⟨more, by rw [List.concat_eq_append, same]⟩

end Stencil.Text
