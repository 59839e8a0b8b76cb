import Stencil.Marker.Scan
import Mathlib.Data.List.Forall2

/-!
A scan step by step. A run takes the value of its first step, so each phase has an equation
of its own. The second part compares the runs of two path compilers: what a string is does not
depend on what its paths compile to, as long as they do.
-/
namespace Stencil.Marker

variable {π : Type} {compile : String → Except String π}

theorem run_fault {s : State π} {cause : Cause} {rest : List Char}
    (taken : step compile s = .fault cause rest) : run compile s = .error (cause, rest) := by
  rw [run]
  split <;> simp_all

theorem run_finish {s : State π} {reading : Reading π}
    (taken : step compile s = .finish reading) : run compile s = .ok reading := by
  rw [run]
  split <;> simp_all

theorem run_next {s t : State π} (taken : step compile s = .next t) :
    run compile s = run compile t := by
  rw [run]
  split <;> simp_all

theorem run_start_whole {source inside : List Char} {kind : Kind}
    (opens : takeOpener? source = some (kind, inside)) :
    run compile ⟨.start, source⟩ = run compile ⟨.whole kind source, inside⟩ :=
  run_next (by simp [step, opens])

theorem run_text_end {before : List (Token π)} {rest text : List Char}
    (taken : takeText rest = (text, [])) :
    run compile ⟨.text before, rest⟩ = .ok (finishText text before) :=
  run_finish (by simp [step, stepText, taken])

theorem run_text_path {before : List (Token π)} {rest text inside : List Char}
    (taken : takeText rest = (text, '{' :: '{' :: inside)) :
    run compile ⟨.text before, rest⟩ =
      run compile ⟨.path (pushText text before) ('{' :: '{' :: inside), inside⟩ :=
  run_next (by simp [step, stepText, taken])

theorem run_start_text {source : List Char} (plain : takeOpener? source = none) :
    run compile ⟨.start, source⟩ = run compile ⟨.text [], source⟩ := by
  have same : step compile ⟨.start, source⟩ = step compile ⟨.text [], source⟩ := by
    simp [step, plain]
  cases taken : step compile ⟨.text [], source⟩ with
  | fault cause rest => rw [run_fault taken, run_fault (same.trans taken)]
  | finish reading => rw [run_finish taken, run_finish (same.trans taken)]
  | next t => rw [run_next taken, run_next (same.trans taken)]

theorem step_path (before : List (Token π)) (opened rest : List Char) :
    step compile ⟨.path before opened, rest⟩ =
      stepBody compile false opened rest fun path => .text (.path path :: before) :=
  rfl

theorem step_whole (kind : Kind) (opened rest : List Char) :
    step compile ⟨.whole kind opened, rest⟩ =
      stepBody compile (kind = .raw) opened rest (.closed kind) :=
  rfl

section Body

variable {s : State π} {triple : Bool} {opened rest body after : List Char}
  {close : π → Phase π} {path : π}

theorem run_body_unclosed (reads : step compile s = stepBody compile triple opened rest close)
    (unclosed : takeBody? triple rest = none) :
    run compile s = .error (.unterminated, opened) :=
  run_fault (by simp [reads, stepBody, unclosed])

theorem run_body_closed (reads : step compile s = stepBody compile triple opened rest close)
    (closed : takeBody? triple rest = some (body, after))
    (compiled : compile (String.ofList body) = .ok path) :
    run compile s = run compile ⟨close path, after⟩ :=
  run_next (by simp [reads, stepBody, closed, compiled])

theorem run_body_refused {reason : String}
    (reads : step compile s = stepBody compile triple opened rest close)
    (closed : takeBody? triple rest = some (body, after))
    (refused : compile (String.ofList body) = .error reason) :
    run compile s = .error (.invalidPath (String.ofList body) reason, opened) :=
  run_fault (by simp [reads, stepBody, closed, refused])

end Body

theorem run_closed_end {kind : Kind} {path : π} :
    run compile ⟨.closed kind path, []⟩ = .ok (.whole kind path) :=
  run_finish rfl

theorem run_closed_trailing {kind : Kind} {path : π} {c : Char} {rest : List Char} :
    run compile ⟨.closed kind path, c :: rest⟩ = .error (.trailing c, c :: rest) :=
  run_fault rfl

theorem scan_ok_iff {source : String} {reading : Reading π} :
    scan compile source = .ok reading ↔ run compile ⟨.start, source.toList⟩ = .ok reading := by
  unfold scan
  cases run compile ⟨.start, source.toList⟩ <;> simp

/-- The second token is the first one with its path text compiled. -/
inductive Token.Compiles (compile : String → Except String π) : Token String → Token π → Prop where
  | text (s : String) : Compiles compile (.text s) (.text s)
  | path {text : String} {path : π} (compiled : compile text = .ok path) :
      Compiles compile (.path text) (.path path)

inductive Reading.Compiles (compile : String → Except String π) :
    Reading String → Reading π → Prop where
  | literal (text : String) : Compiles compile (.literal text) (.literal text)
  | interpolation {texts : List (Token String)} {tokens : List (Token π)}
      (each : List.Forall₂ (Token.Compiles compile) texts tokens) :
      Compiles compile (.interpolation texts) (.interpolation tokens)
  | whole (kind : Kind) {text : String} {path : π} (compiled : compile text = .ok path) :
      Compiles compile (.whole kind text) (.whole kind path)

theorem literal_compiles {read : Reading String} {text : String}
    (same : read.Compiles compile (.literal text)) : read = .literal text := by
  cases same
  rfl

inductive Phase.Compiles (compile : String → Except String π) : Phase String → Phase π → Prop where
  | start : Compiles compile .start .start
  | text {texts : List (Token String)} {before : List (Token π)}
      (each : List.Forall₂ (Token.Compiles compile) texts before) :
      Compiles compile (.text texts) (.text before)
  | path {texts : List (Token String)} {before : List (Token π)} (opened : List Char)
      (each : List.Forall₂ (Token.Compiles compile) texts before) :
      Compiles compile (.path texts opened) (.path before opened)
  | whole (kind : Kind) (opened : List Char) :
      Compiles compile (.whole kind opened) (.whole kind opened)
  | closed (kind : Kind) {text : String} {path : π} (compiled : compile text = .ok path) :
      Compiles compile (.closed kind text) (.closed kind path)

def State.Compiles (compile : String → Except String π) (texts : State String) (s : State π) :
    Prop :=
  texts.rest = s.rest ∧ texts.phase.Compiles compile s.phase

/-- The steps are the same up to the paths, or the second one refuses a path. -/
inductive Step.Compiles (compile : String → Except String π) : Step String → Step π → Prop where
  | fault (cause : Cause) (rest : List Char) :
      Compiles compile (.fault cause rest) (.fault cause rest)
  | refused {taken : Step String} {text reason : String} (opened : List Char)
      (refused : compile text = .error reason) :
      Compiles compile taken (.fault (.invalidPath text reason) opened)
  | finish {texts : Reading String} {reading : Reading π} (same : texts.Compiles compile reading) :
      Compiles compile (.finish texts) (.finish reading)
  | next {texts : State String} {s : State π} (same : texts.Compiles compile s) :
      Compiles compile (.next texts) (.next s)

theorem push_text_compiles {texts : List (Token String)} {before : List (Token π)}
    (text : List Char) (each : List.Forall₂ (Token.Compiles compile) texts before) :
    List.Forall₂ (Token.Compiles compile) (pushText text texts) (pushText text before) := by
  unfold pushText
  split
  · exact each
  · exact .cons (.text _) each

theorem finish_text_compiles {texts : List (Token String)} {before : List (Token π)}
    (text : List Char) (each : List.Forall₂ (Token.Compiles compile) texts before) :
    (finishText text texts).Compiles compile (finishText text before) := by
  cases each with
  | nil => exact .literal _
  | cons first others =>
    have pushed := push_text_compiles text (List.Forall₂.cons first others)
    exact .interpolation (List.forall₂_reverse_iff.mpr pushed)

theorem step_text_compiles {texts : List (Token String)} {before : List (Token π)}
    (rest : List Char) (each : List.Forall₂ (Token.Compiles compile) texts before) :
    (stepText texts rest).Compiles compile (stepText before rest) := by
  rcases taken : takeText rest with ⟨text, opened⟩
  simp only [stepText, taken]
  split
  · exact .finish (finish_text_compiles _ each)
  · exact .next ⟨rfl, .path _ (push_text_compiles _ each)⟩

theorem step_body_compiles {triple : Bool} {opened rest : List Char}
    {closeText : String → Phase String} {close : π → Phase π}
    (closes : ∀ text path, compile text = .ok path →
      (closeText text).Compiles compile (close path)) :
    (stepBody .ok triple opened rest closeText).Compiles compile
      (stepBody compile triple opened rest close) := by
  unfold stepBody
  cases takeBody? triple rest with
  | none => exact .fault _ _
  | some read =>
    cases compiled : compile (String.ofList read.1) with
    | error reason => simpa only [compiled] using .refused opened compiled
    | ok path => simpa only [compiled] using .next ⟨rfl, closes _ _ compiled⟩

theorem step_compiles {texts : State String} {s : State π} (same : texts.Compiles compile s) :
    (step .ok texts).Compiles compile (step compile s) := by
  obtain ⟨phase, rest⟩ := s
  obtain ⟨textPhase, textRest⟩ := texts
  obtain ⟨rfl, phases⟩ := same
  cases phases with
  | start =>
    simp only [step]
    split
    · exact .next ⟨rfl, .whole _ _⟩
    · exact step_text_compiles _ .nil
  | text each => exact step_text_compiles _ each
  | path opened each =>
    exact step_body_compiles fun text path compiled => .text (.cons (.path compiled) each)
  | whole kind opened => exact step_body_compiles fun text path compiled => .closed kind compiled
  | closed kind compiled =>
    simp only [step]
    split
    · exact .finish (.whole kind compiled)
    · exact .fault _ _

/-- Two runs from the same place read the same up to the paths, or fail in the same way, or the
second one ends at the first path that is refused. -/
theorem run_compiles {texts : State String} {s : State π} (same : texts.Compiles compile s) :
    (∃ read reading, run .ok texts = .ok read ∧ run compile s = .ok reading ∧
      read.Compiles compile reading) ∨
    (∃ fault, run .ok texts = .error fault ∧ run compile s = .error fault) ∨
    (∃ text reason opened, compile text = .error reason ∧
      run compile s = .error (.invalidPath text reason, opened)) := by
  induction length : s.rest.length using Nat.strongRecOn generalizing s texts with
  | ind n ih =>
    have steps := step_compiles same
    generalize first : step .ok texts = textStep at steps
    generalize second : step compile s = taken at steps
    cases steps with
    | fault cause rest => exact .inr (.inl ⟨_, run_fault first, run_fault second⟩)
    | refused opened refused => exact .inr (.inr ⟨_, _, _, refused, run_fault second⟩)
    | finish sameReading =>
      exact .inl ⟨_, _, run_finish first, run_finish second, sameReading⟩
    | next sameState =>
      rw [run_next first, run_next second]
      exact ih _ (length ▸ step_shrinks second) sameState rfl

theorem scan_compiles {source : String} {reading : Reading π}
    (scanned : scan compile source = .ok reading) :
    ∃ read, scan .ok source = .ok read ∧ read.Compiles compile reading := by
  have start : State.Compiles compile ⟨.start, source.toList⟩ ⟨.start, source.toList⟩ :=
    ⟨rfl, .start⟩
  rw [scan_ok_iff] at scanned
  rcases run_compiles start with
    ⟨read, other, first, second, same⟩ | ⟨_, _, failed⟩ | ⟨_, _, _, _, failed⟩
  · rw [scanned] at second
    cases second
    exact ⟨read, scan_ok_iff.mpr first, same⟩
  · simp [scanned] at failed
  · simp [scanned] at failed

end Stencil.Marker
