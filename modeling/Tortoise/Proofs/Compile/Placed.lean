import Tortoise.Proofs.Compile.FirstError
import Tortoise.Proofs.Source.Excerpt
import Tortoise.Proofs.Source.Places

/-!
# Failures are placed in the source

Compilation fails at a token, at the end of the input, or where a word or comment breaks off, and
all of these are places of the source. So every failure is shown with its line, and the line that
the reader counted is the line that the excerpt marks.
-/

namespace Tortoise

open Session

variable {bound : Nat} {source : Text} {error : CompileError}

def CompileFailure.pos? : CompileFailure → Option Position
  | scan (.lexical e) => some e.pos
  | scan (.reader _) => none
  | statement e => some e.pos
  | invalid _ => none

def CompileFailure.At (P : Position → Prop) (failure : CompileFailure) : Prop :=
  ∃ p, failure.pos? = some p ∧ P p

theorem ScanError.At.failure {P : Position → Prop} {e : ScanError} (h : e.At P) :
    (CompileFailure.scan e).At P := by
  cases e with
  | lexical e => exact ⟨e.pos, rfl, h⟩
  | reader e => exact h.elim

theorem InnermostOpen.mem {tokens : List Token} {keyword : Token}
    (h : InnermostOpen bound tokens keyword) : keyword ∈ tokens := by
  obtain ⟨outer, rest, inside, opening, rfl, -⟩ := h
  exact List.mem_append_right _ List.mem_cons_self

/-- Failures are found at places of the source. -/
theorem failure_at (h : compile bound source = .error error) : error.failure.At source.Place := by
  rcases hscan : (Feed.ofText source none).tokens with ⟨tokens, last⟩
  obtain ⟨htokens, hlast⟩ := Feed.tokens_at hscan
  have hfeed := compileFeed_of_compile h
  simp only [compileFeed, hscan] at hfeed
  cases hfold : tokens.foldlM (handle bound) {} with
  | error e =>
      rw [hfold] at hfeed
      obtain ⟨pre, t, post, mid, rfl, -, hrefused⟩ := exists_refused hfold
      have ht : source.Place t.pos := htokens t (List.mem_append_right _ List.mem_cons_self)
      rw [← Except.error.inj hfeed]
      exact ⟨t.pos, congrArg some (handle_failsAt e hrefused), ht⟩
  | ok s =>
      cases last with
      | error e =>
          rw [hfold] at hfeed
          rw [← Except.error.inj hfeed]
          exact hlast.failure
      | ok eof =>
          obtain ⟨statement, he⟩ | ⟨keyword, he, hopen⟩ := failure_of_accepted hscan hfold h
          · exact ⟨eof.pos, by rw [he]; rfl, hlast⟩
          · exact ⟨keyword.pos, by rw [he]; rfl, htokens keyword hopen.mem⟩

/-- A failure with a position is shown there, under the phase that its kind gives. -/
theorem place_eq {failure : CompileFailure} {p : Position} (hp : failure.pos? = some p) :
    ∃ phase detail, failure.place source =
        .placed ⟨phase, detail, p, Excerpt.render source p.line p.column, failure⟩ ∧
      (phase = .lexer ↔ ∃ e, failure = .scan (.lexical e)) ∧
      (phase = .parser ↔ ∃ e, failure.parseError? = some e) := by
  cases failure with
  | invalid e => cases hp
  | scan e =>
      cases e with
      | reader e => cases hp
      | lexical e =>
          obtain rfl := Option.some.inj hp
          exact ⟨.lexer, _, rfl, by simp, by simp [CompileFailure.parseError?]⟩
  | statement e =>
      obtain rfl := Option.some.inj hp
      refine ⟨_, _, rfl, ?_, ?_⟩
      · split <;> simp
      · rw [← Option.isSome_iff_exists]
        split <;> simp_all

/-- An error of compilation is its failure, shown at its place. -/
theorem eq_place_of_compile (h : compile bound source = .error error) :
    error = error.failure.place source := by
  have hfeed := compileFeed_of_compile h
  rw [compile, hfeed] at h
  exact (Except.error.inj h).symm

theorem ne_nil_of_compile_eq_error (h : compile bound source = .error error) : source ≠ [] := by
  rintro rfl
  cases h

/-- Every failure of compilation is placed: its phase tells lexical errors, expression errors and
the others apart, its position stands in a line of the source, and its excerpt marks that line and
no other. -/
theorem failures_are_placed (h : compile bound source = .error error) :
    ∃ e : SourceError, error = .placed e ∧
      (e.phase = .lexer ↔ ∃ x, e.failure = .scan (.lexical x)) ∧
      (e.phase = .parser ↔ ∃ x, e.failure.parseError? = some x) ∧
      (e.phase = .compiler ↔
        (¬ ∃ x, e.failure = .scan (.lexical x)) ∧ ¬ ∃ x, e.failure.parseError? = some x) ∧
      ∃ line, e.pos.InLine source line ∧ e.excerpt ≠ [] ∧
        ∃ width, Excerpt.marked e.excerpt =
          ["> " ++ Excerpt.gutter width e.pos.line ++ Excerpt.withoutReturns line] := by
  obtain ⟨p, hp, hplace⟩ := failure_at h
  obtain ⟨phase, detail, he, hlexer, hparser⟩ := @place_eq source _ p hp
  obtain ⟨line, hline⟩ := hplace.exists_line
  obtain ⟨width, hmarked⟩ := Excerpt.marked_render p.column (ne_nil_of_compile_eq_error h)
    hline.line_pos hline.getElem?
  have hcompiler : phase = .compiler ↔ ¬ phase = .lexer ∧ ¬ phase = .parser := by
    cases phase <;> decide
  rw [hlexer, hparser] at hcompiler
  exact ⟨_, (eq_place_of_compile h).trans he, hlexer, hparser, hcompiler, line, hline,
    Excerpt.ne_nil_of_marked hmarked, width, hmarked⟩

/-- A word is missing behind the last line break, so the error stands in the empty last line. -/
theorem missing_count_is_placed_at_end :
    ∃ e : SourceError, compile 256 "turn left\nmove\n" = .error (.placed e) ∧
      e.phase = .compiler ∧ e.pos = ⟨3, 1⟩ ∧ ∃ line, e.pos.InLine "turn left\nmove\n" line ∧
        ∃ width, Excerpt.marked e.excerpt =
          ["> " ++ Excerpt.gutter width e.pos.line ++ Excerpt.withoutReturns line] := by
  let failure : CompileFailure := .statement ⟨.unexpectedEnd "move", ⟨3, 1⟩⟩
  have hfeed : compileFeed 256 (Feed.ofText "turn left\nmove\n" none) = .error failure := rfl
  have h : compile 256 "turn left\nmove\n" = .error (failure.place "turn left\nmove\n") := by
    rw [compile, hfeed]
  obtain ⟨e, he, -, -, -, line, hline, -, hmarked⟩ := failures_are_placed h
  obtain ⟨rfl⟩ := CompileError.placed.inj he
  exact ⟨_, h, rfl, rfl, line, hline, hmarked⟩

end Tortoise
