import Tortoise.Proofs.Compile.Spacing
import Tortoise.Proofs.Compile.Viable

/-!
# Errors point at the first impossible token

A token is refused only if no program starts with the tokens up to it: what a session accepts
depends on the tokens alone, and accepted tokens can be completed. The completion is written behind
the part of the source that holds the accepted tokens, one blank in front of each word.
-/

namespace Tortoise

open Session
open Text (Word AtBlank Blank)

variable {bound : Nat} {s : Session} {t : Token} {e : StatementError}

def Fails (P : StatementError → Prop) {α : Type} (r : Result α) : Prop := ∀ e, r = .error e → P e

namespace Fails

variable {P : StatementError → Prop} {α β : Type}

theorem ok (a : α) : Fails P (.ok a : Result α) := fun _ h => nomatch h

theorem fail {cause : StatementCause} (h : P ⟨cause, t.pos⟩) :
    Fails P (Session.fail t cause : Result α) := by
  intro e he
  obtain rfl := Except.error.inj he
  exact h

theorem ite {p : Prop} [Decidable p] {x y : Result α} (hx : Fails P x) (hy : Fails P y) :
    Fails P (if p then x else y) := by
  by_cases hp : p
  · rwa [if_pos hp]
  · rwa [if_neg hp]

theorem bind {x : Result α} {f : α → Result β} (hx : Fails P x) (hf : ∀ a, Fails P (f a)) :
    Fails P (x >>= f) := by
  intro e h
  cases x with
  | error e' =>
      obtain rfl := Except.error.inj h
      exact hx _ rfl
  | ok a => exact hf a e h

end Fails

section Errors

variable {P : StatementError → Prop}

-- Apart from the block operations, every error is raised at the token at hand.
variable (hfail : ∀ cause : StatementCause, (∀ err, cause ≠ .block err) → P ⟨cause, t.pos⟩)

include hfail

theorem expression_fails : Fails P (expression bound t) := by
  unfold expression
  cases Expr.parse bound t.literal with
  | ok e => exact .ite (.ok e) (.fail (hfail _ nofun))
  | error e => exact .ite (.fail (hfail _ nofun)) (.fail (hfail _ nofun))

theorem bind_expression_fails {f : Expr → Session} :
    Fails P (expression bound t >>= fun e => pure (f e)) :=
  .bind (expression_fails hfail) fun e => .ok (f e)

theorem emitStep_fails {op : Infix} : Fails P (emitStep bound s op t) := by
  refine .bind (expression_fails hfail) fun e => ?_
  cases e <;> first | exact .ok _ | exact .fail (hfail _ nofun)

theorem idleExpression_fails : Fails P (idleExpression bound s t) := by
  refine .bind (expression_fails hfail) fun e => ?_
  split
  · exact .ok _
  · exact .ok _
  · exact .fail (hfail _ nofun)

/-- The errors of a session, given those of the block operations. -/
theorem handle_fails (helse : Fails P (elseBlock s t)) (hend : Fails P (endBlock s t)) :
    Fails P (handle bound s t) := by
  have hbind {f : Expr → Session} : Fails P (expression bound t >>= fun e => pure (f e)) :=
    bind_expression_fails hfail
  have hword (cause : StatementCause) (hcause : ∀ err, cause ≠ .block err) :
      Fails P (Session.fail t cause : Result Session) := .fail (hfail cause hcause)
  unfold handle
  cases s.state with
  | idle =>
      refine .ite (idleExpression_fails hfail) (.ite helse (.ite hend ?_))
      cases State.begins? t with
      | none => exact hword _ nofun
      | some state => exact .ok _
  | assignOperator name => exact .ite (.ok _) (hword _ nofun)
  | assignValue name => exact hbind
  | set => exact .ite (.ok _) (.ite (.ok _) (hword _ nofun))
  | setColorTo => exact .ite (.ok _) (hword _ nofun)
  | setThicknessTo => exact .ite (.ok _) (hword _ nofun)
  | color =>
      refine .ite ?_ hbind
      cases colorIndex? t.literal with
      | none => exact hword _ nofun
      | some index => exact .ok _
  | thickness => exact hbind
  | start => exact .ite (.ok _) (hword _ nofun)
  | stop => exact .ite (.ok _) (hword _ nofun)
  | move => exact .ite (.ok _) (.ite (.ok _) hbind)
  | moveForward => exact hbind
  | moveBackward => exact hbind
  | turn => exact .ite (.ok _) (.ite (.ok _) hbind)
  | ifCondition keyword => exact hbind
  | whileCondition keyword => exact hbind
  | untilCondition keyword => exact hbind
  | repeatCount keyword => exact hbind
  | repeatTimes keyword count => exact .ite (.ok _) (hword _ nofun)
  | increment => exact emitStep_fails hfail
  | decrement => exact emitStep_fails hfail

end Errors

theorem elseBlock_failsAt : Fails (fun e => e.pos = t.pos) (elseBlock s t) := by
  unfold elseBlock
  split
  · split
    · exact .ok _
    · exact .fail rfl
    · exact .fail rfl
  · exact .fail rfl

theorem endBlock_failsAt : Fails (fun e => e.pos = t.pos) (endBlock s t) := by
  unfold endBlock
  split
  · exact .fail rfl
  · split
    · exact .ok _
    · exact .fail rfl

/-- Errors are reported at the token that is refused. -/
theorem handle_failsAt : Fails (fun e => e.pos = t.pos) (handle bound s t) :=
  handle_fails (fun _ _ => rfl) elseBlock_failsAt endBlock_failsAt

theorem exists_refused {tokens : List Token} (h : tokens.foldlM (handle bound) s = .error e) :
    ∃ pre t post mid, tokens = pre ++ t :: post ∧ Leads bound s pre mid ∧
      handle bound mid t = .error e := by
  induction tokens generalizing s with
  | nil => cases h
  | cons t tokens ih =>
      rw [List.foldlM_cons] at h
      cases hhandle : handle bound s t with
      | error e' =>
          rw [hhandle] at h
          obtain rfl := Except.error.inj h
          exact ⟨[], t, tokens, s, rfl, leads_nil_iff.2 rfl, hhandle⟩
      | ok next =>
          rw [hhandle] at h
          obtain ⟨pre, u, post, mid, rfl, hpre, hu⟩ := ih h
          exact ⟨t :: pre, u, post, mid, rfl, .cons hhandle hpre, hu⟩

/-- The source begins with the tokens, at whatever places. -/
def BeginsWith (source : Text) (tokens : List Token) : Prop :=
  ∃ all last first, (Feed.ofText source none).tokens = (all, last) ∧ first <+: all ∧
    List.Forall₂ Token.Alike tokens first

/-- No source that begins with a refused token and those before it compiles. -/
theorem compile_ne_ok_of_refused {other : Text} {pre : List Token} (hpre : Leads bound {} pre s)
    (hrefused : handle bound s t = .error e) (hother : BeginsWith other (pre ++ [t]))
    (program : Program) : compile bound other ≠ .ok program := by
  intro hcompile
  obtain ⟨others, last, first, hothers, hfirst, halike⟩ := hother
  obtain ⟨tokens, eof, body, htokens, hbody, -⟩ := exists_body_of_compile hcompile
  rw [hothers] at htokens
  obtain ⟨rfl, -⟩ := Prod.mk.inj htokens
  obtain ⟨rest, rfl⟩ := hfirst
  -- The same tokens at the places of the refused ones would be accepted.
  have hrest : List.Forall₂ Token.Alike rest rest := List.forall₂_same.2 fun u _ => .refl u
  have hback : List.Forall₂ Token.Alike (first ++ rest) (pre ++ [t] ++ rest) :=
    List.rel_append (halike.flip.imp fun _ _ h => h.symm) hrest
  have hleads := (hbody.congr hback).leads (rfl : ({} : Session).state = .idle)
  obtain ⟨mid, hfront, -⟩ := leads_append_iff.1 hleads
  obtain ⟨before, hbefore, hlast⟩ := leads_append_iff.1 hfront
  obtain rfl := hpre.unique hbefore
  obtain ⟨after, hhandle, -⟩ := leads_cons_iff.1 hlast
  rw [hrefused] at hhandle
  cases hhandle

def spaced (ws : List Text) : Text := ws.flatMap (.char ' ' :: ·)

theorem run_of_mem_vocabulary : ∀ w ∈ vocabulary, w.Run := by
  intro w hw
  have hsolid : ∀ w ∈ vocabulary, w ≠ [] ∧ (∀ r ∈ w, r.isBlank = false) ∧
      w.head? ≠ some (.char '(') := by decide
  obtain ⟨hne, hblank, hplain⟩ := hsolid w hw
  exact ⟨hne, hblank, hplain⟩

theorem atBlank_spaced (ws : List Text) : AtBlank (spaced ws) := by
  intro r hr
  cases ws with
  | nil => cases hr
  | cons w ws =>
      obtain rfl := Option.some.inj hr
      decide

theorem uncommented_spaced {ws : List Text} (hws : ∀ w ∈ ws, w ∈ vocabulary) :
    Uncommented (spaced ws) (spaced ws) := by
  have hplain : ∀ w ∈ vocabulary, ∀ r ∈ w, r.isChar = true ∧ r ≠ .quote := by decide
  apply Uncommented.of_forall
  intro r hr
  obtain ⟨w, hw, hin⟩ := List.mem_flatMap.1 hr
  rcases List.mem_cons.1 hin with rfl | hin
  · decide
  · exact hplain w (hws w hw) r hin

theorem splits_spaced {ws : List Text} (hws : ∀ w ∈ ws, w ∈ vocabulary) :
    Splits (spaced ws) ws [] := by
  induction ws with
  | nil => exact .here []
  | cons w ws ih =>
      obtain ⟨hw, hws⟩ := List.forall_mem_cons.1 hws
      have hword : Word w (spaced ws) := .inr ⟨run_of_mem_vocabulary w hw, atBlank_spaced ws⟩
      exact .blank (by decide) (.word hword (ih hws))

/-- Accepted tokens in front of a place where a word may start can be continued to a program. -/
theorem exists_continuation {a f : Text} {pre : List Token} (hbound : 0 < bound)
    (ha : Uncommented a f)
    (hwords : ∀ tail : Text, tail.AtBlank → Splits (f ++ tail) (pre.map Token.literal) tail)
    (hkinds : ∀ t ∈ pre, t.kind = .ofWord t.literal) (hpre : Leads bound {} pre s) :
    ∃ text program, compile bound (a ++ text) = .ok program ∧ BeginsWith (a ++ text) pre := by
  obtain ⟨ws, hws, body, hbody⟩ := exists_completion hbound hpre
  have hall := (hwords _ (atBlank_spaced ws)).append (splits_spaced hws)
  obtain ⟨ts, p, htokens, hliterals⟩ :=
    tokens_of_splits (ha.append (uncommented_spaced hws)) hall
  have hsame : (pre ++ ws.map Token.ofWord).map Token.literal = ts.map Token.literal := by
    rw [hliterals, List.map_append, List.map_map]
    exact congrArg _ (List.map_id ws)
  have hkinds' : ∀ t ∈ pre ++ ws.map Token.ofWord, t.kind = .ofWord t.literal := by
    intro t ht
    rcases List.mem_append.1 ht with ht | ht
    · exact hkinds t ht
    · obtain ⟨w, -, rfl⟩ := List.mem_map.1 ht
      rfl
  have halike := alike_of_words hsame hkinds' (kind_of_tokens htokens)
  obtain ⟨first, rest, hfirst, -, rfl⟩ := exists_append_of_forall₂ halike
  exact ⟨spaced ws, _, compile_of_derives htokens (hbody.congr halike), _, _, first, htokens,
    List.prefix_append first rest, hfirst⟩

theorem failure_place (source : Text) (failure : CompileFailure) :
    (failure.place source).failure = failure := by
  unfold CompileFailure.place
  split <;> rfl

theorem compileFeed_of_compile {source : Text} {error : CompileError}
    (h : compile bound source = .error error) :
    compileFeed bound (Feed.ofText source none) = .error error.failure := by
  unfold compile at h
  cases hfeed : compileFeed bound (Feed.ofText source none) with
  | ok program =>
      rw [hfeed] at h
      cases h
  | error failure =>
      rw [hfeed] at h
      obtain rfl := Except.error.inj h
      rw [failure_place]

def StatementCause.isAtEnd : StatementCause → Bool
  | unexpectedEnd _ | neverClosed _ => true
  | _ => false

theorem isAtEnd_of_finish {eof : Token} (h : s.finish eof = .error (.statement e)) :
    e.cause.isAtEnd = true := by
  unfold finish at h
  split at h
  · obtain rfl := CompileFailure.statement.inj (Except.error.inj h)
    rfl
  · split at h
    · obtain rfl := CompileFailure.statement.inj (Except.error.inj h)
      rfl
    · split at h
      · cases h
      · cases h

theorem exists_refused_of_failure {source : Text} {error : CompileError}
    (h : compile bound source = .error error) (he : error.failure = .statement e)
    (hend : e.cause.isAtEnd = false) :
    ∃ pre t post s, (Feed.ofText source none).tokens.1 = pre ++ t :: post ∧
      Leads bound {} pre s ∧ handle bound s t = .error e := by
  have hfeed := compileFeed_of_compile h
  rw [he] at hfeed
  unfold compileFeed at hfeed
  rcases hscan : (Feed.ofText source none).tokens with ⟨tokens, last⟩
  simp only [hscan] at hfeed
  cases hfold : tokens.foldlM (handle bound) {} with
  | error e' =>
      rw [hfold] at hfeed
      obtain rfl := CompileFailure.statement.inj (Except.error.inj hfeed)
      exact exists_refused hfold
  | ok s =>
      rw [hfold] at hfeed
      cases last with
      | error e' => cases hfeed
      | ok eof =>
          rw [isAtEnd_of_finish hfeed] at hend
          cases hend

theorem boundOf_pos (setting : Int) : 0 < Expr.boundOf setting := by
  unfold Expr.boundOf
  by_cases hsetting : setting ≤ 0
  · rw [if_pos hsetting]
    decide
  · rw [if_neg hsetting]
    omega

/-- The part of a source that holds its first tokens. -/
theorem exists_front {source : Text} {pre post : List Token} {last : Except ScanError Token}
    (h : (Feed.ofText source none).tokens = (pre ++ post, last)) :
    ∃ front back f, source = front ++ back ∧ Uncommented front f ∧
      ∀ tail : Text, tail.AtBlank → Splits (f ++ tail) (pre.map Token.literal) tail := by
  obtain ⟨a, b, g, rest, rfl, ha, hsplits, -⟩ := splits_of_first_tokens h
  obtain ⟨f, rfl, hwords⟩ := hsplits.exchange
  obtain ⟨front, back, rfl, hfront, -⟩ := ha.split
  exact ⟨front, back ++ b, f, by simp, hfront, hwords⟩

/-- The failures of a source whose tokens are all accepted. -/
theorem failure_of_accepted {source : Text} {tokens : List Token} {eof : Token}
    {error : CompileError} (htokens : (Feed.ofText source none).tokens = (tokens, .ok eof))
    (hleads : Leads bound {} tokens s) (h : compile bound source = .error error) :
    (∃ statement, error.failure = .statement ⟨.unexpectedEnd statement, eof.pos⟩) ∨
      ∃ keyword, error.failure = .statement ⟨.neverClosed keyword.literal, keyword.pos⟩ ∧
        InnermostOpen bound tokens keyword := by
  have hfeed := compileFeed_of_compile h
  unfold Leads at hleads
  simp only [compileFeed, htokens, hleads] at hfeed
  unfold finish at hfeed
  by_cases hstate : s.state = .idle
  · rw [if_neg (not_not_intro hstate)] at hfeed
    cases hopened : s.opened with
    | cons keyword opened =>
        rw [hopened] at hfeed
        have hnested := Nested.start.run hleads hstate
        exact .inr ⟨keyword, (Except.error.inj hfeed).symm, hnested.innermostOpen hopened⟩
    | nil =>
        -- With no block open the program is complete, and it is always valid.
        obtain ⟨body, hbody⟩ := exists_derives_of_leads hleads hstate hopened
        rw [compile_of_derives htokens hbody] at h
        cases h
  · rw [if_pos hstate] at hfeed
    exact .inl ⟨_, (Except.error.inj hfeed).symm⟩

/-- An error that is raised at a token, not at the end of the input and not for a block that is
left open, points at the first token that no program can have there: no source that begins with the
tokens up to it compiles, and the part of the source before it can be continued to one that does. If
all tokens are accepted, then the whole source can be continued, and an error is about the end of
the input or about the innermost open block, at its keyword. -/
theorem errors_point_at_first_impossible_token (setting : Int) (source : Text) :
    let bound := Expr.boundOf setting
    let scan := (Feed.ofText source none).tokens
    (∀ error e, compile bound source = .error error → error.failure = .statement e →
      e.cause.isAtEnd = false →
      ∃ pre t post s, scan.1 = pre ++ t :: post ∧ Leads bound {} pre s ∧
        handle bound s t = .error e ∧ e.pos = t.pos ∧
        (∀ other, BeginsWith other (pre ++ [t]) → ∀ program, compile bound other ≠ .ok program) ∧
        ∃ front back, source = front ++ back ∧
          (∃ ts eof, (Feed.ofText front none).tokens = (ts, .ok eof) ∧
            List.Forall₂ Token.Alike pre ts) ∧
          ∃ text program, compile bound (front ++ text) = .ok program ∧
            BeginsWith (front ++ text) pre) ∧
    ∀ s eof, Leads bound {} scan.1 s → scan.2 = .ok eof →
      (∃ text program, compile bound (source ++ text) = .ok program ∧
        BeginsWith (source ++ text) scan.1) ∧
      ∀ error, compile bound source = .error error →
        (∃ statement, error.failure = .statement ⟨.unexpectedEnd statement, eof.pos⟩) ∨
          ∃ keyword, error.failure = .statement ⟨.neverClosed keyword.literal, keyword.pos⟩ ∧
            InnermostOpen bound scan.1 keyword := by
  intro bound scan
  have hbound : 0 < bound := boundOf_pos setting
  refine ⟨fun error e herror he hend => ?_, fun s eof hleads hlast => ⟨?_, ?_⟩⟩
  · obtain ⟨pre, t, post, s, htokens, hpre, hrefused⟩ := exists_refused_of_failure herror he hend
    have hscan : (Feed.ofText source none).tokens = (pre ++ t :: post, scan.2) :=
      Prod.ext htokens rfl
    have hkinds : ∀ u ∈ pre, u.kind = .ofWord u.literal := fun u hu =>
      kind_of_tokens hscan u (List.mem_append_left _ hu)
    obtain ⟨front, back, f, hsource, hfront, hwords⟩ := exists_front hscan
    have hall := hwords [] (fun _ hr => nomatch hr)
    rw [List.append_nil] at hall
    obtain ⟨ts, p, hts, hliterals⟩ := tokens_of_splits hfront hall
    exact ⟨pre, t, post, s, htokens, hpre, hrefused, handle_failsAt e hrefused,
      fun other hother => compile_ne_ok_of_refused hpre hrefused hother,
      front, back, hsource, ⟨ts, _, hts, alike_of_words hliterals.symm hkinds (kind_of_tokens hts)⟩,
      exists_continuation hbound hfront hwords hkinds hpre⟩
  · have hscan : (Feed.ofText source none).tokens = (scan.1, .ok eof) := Prod.ext rfl hlast
    obtain ⟨f, hf, hall⟩ := splits_of_tokens hscan
    obtain ⟨front, heq, hwords⟩ := hall.exchange
    rw [List.append_nil] at heq
    subst heq
    exact exists_continuation hbound hf hwords (kind_of_tokens hscan) hleads
  · intro error herror
    exact failure_of_accepted (Prod.ext rfl hlast) hleads herror

/-- The third word of this source is refused, whatever follows it. -/
theorem unknown_word_is_impossible :
    ∃ error e, compile (Expr.boundOf 0) "turn left fly" = .error error ∧
      error.failure = .statement e ∧ e.pos = ⟨1, 11⟩ ∧
      (∃ pre t, e.pos = t.pos ∧ ∀ other, BeginsWith other (pre ++ [t]) →
        ∀ program, compile (Expr.boundOf 0) other ≠ .ok program) ∧
      ∃ front back text program, Text.ofString "turn left fly" = front ++ back ∧
        compile (Expr.boundOf 0) (front ++ text) = .ok program := by
  let e : StatementError := ⟨.unknownStatement ⟨.keyword, "fly", ⟨1, 11⟩⟩, ⟨1, 11⟩⟩
  have hfeed : compileFeed (Expr.boundOf 0) (Feed.ofText "turn left fly" none) =
      .error (.statement e) := rfl
  obtain ⟨error, herror, he⟩ : ∃ error, compile (Expr.boundOf 0) "turn left fly" = .error error ∧
      error.failure = .statement e := by
    refine ⟨_, ?_, failure_place "turn left fly" (.statement e)⟩
    rw [compile, hfeed]
  obtain ⟨pre, t, -, -, -, -, -, ht, hnone, front, back, hsource, -, text, program, hsome, -⟩ :=
    (errors_point_at_first_impossible_token 0 "turn left fly").1 error e herror he rfl
  exact ⟨error, e, herror, he, rfl, ⟨pre, t, ht, hnone⟩, front, back, text, program, hsource, hsome⟩

end Tortoise
