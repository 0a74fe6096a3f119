import Tortoise.Proofs.Compile.Tree
import Tortoise.Proofs.Success

/-!
# What each state accepts

For every state, the tokens it takes and the session after each of them.
-/

namespace Tortoise

theorem colorIndex?_eq_some_iff {name : Text} {index : Nat} :
    colorIndex? name = some index ↔ palette[index]? = some name := by
  unfold colorIndex?
  rw [List.idxOf?, List.findIdx?_eq_some_iff_getElem]
  constructor
  · rintro ⟨hlt, heq, _⟩
    rw [List.getElem?_eq_getElem hlt, beq_iff_eq.1 heq]
  · intro h
    obtain ⟨hlt, rfl⟩ := List.getElem?_eq_some_iff.1 h
    refine ⟨hlt, beq_self_eq_true _, ?_⟩
    intro j hj
    have hnodup : palette.Nodup := by decide
    have hne := List.pairwise_iff_getElem.1 hnodup j index (by omega) hlt hj
    simpa using hne

namespace Token

theorem is_eq_false_of_kind {t : Token} (h : t.kind ≠ .keyword) (k : Keyword) :
    t.is k = false := by
  simp [is, h]

theorem kind_of_is {t : Token} {k : Keyword} (h : t.is k = true) : t.kind = .keyword := by
  simp only [is, Bool.and_eq_true, beq_iff_eq] at h
  exact h.1

theorem kind_ne_expression_of_is {t : Token} {k : Keyword} (h : t.is k = true) :
    t.kind ≠ .expression := by
  rw [kind_of_is h]
  decide

theorem is_eq_decide {t : Token} {j : Keyword} (hj : t.is j = true) (k : Keyword) :
    t.is k = decide (j = k) := by
  have hspelling : (j.spelling == k.spelling) = decide (j = k) := by
    cases j <;> cases k <;> rfl
  have hliteral : t.literal = j.spelling := by
    simp only [is, Bool.and_eq_true, beq_iff_eq] at hj
    exact hj.2
  rw [is, kind_of_is hj, hliteral, hspelling]
  rfl

end Token

def State.starting (t : Token) : Keyword → Option State
  | .set => some .set
  | .start => some .start
  | .stop => some .stop
  | .move => some .move
  | .turn => some .turn
  | .ifThen => some (.ifCondition t)
  | .whileLoop => some (.whileCondition t)
  | .untilLoop => some (.untilCondition t)
  | .repeatLoop => some (.repeatCount t)
  | .increment => some .increment
  | .decrement => some .decrement
  | _ => none

theorem State.starting_of_ite {t : Token} {k : Keyword} {found state : State}
    {other : Option State} (hk : starting t k = some found)
    (hother : other = some state → ∃ k, t.is k = true ∧ starting t k = some state)
    (h : (if t.is k then some found else other) = some state) :
    ∃ k, t.is k = true ∧ starting t k = some state := by
  by_cases ht : t.is k = true
  · rw [if_pos ht] at h
    exact ⟨k, ht, hk.trans h⟩
  · rw [if_neg ht] at h
    exact hother h

theorem State.begins?_eq_some_iff {t : Token} {state : State} :
    begins? t = some state ↔ ∃ k, t.is k = true ∧ starting t k = some state := by
  constructor
  · unfold begins?
    repeat refine starting_of_ite rfl ?_
    intro h
    simp at h
  · rintro ⟨k, hk, hstate⟩
    unfold begins?
    simp only [Token.is_eq_decide hk]
    cases k <;> exact hstate

namespace Session

section Transitions

variable {bound : Nat} {s s' : Session} {t : Token}

theorem expression_eq_ok_iff {e : Expr} : expression bound t = .ok e ↔ t.Reads bound e := by
  unfold expression Token.Reads
  split
  next hkind =>
    cases hparse : Expr.parse bound t.literal with
    | error err => simp [fail]
    | ok e' => simp [hkind]
  next hkind => simp [fail, hkind]

theorem bind_expression_eq_ok_iff {f : Expr → Session} :
    (expression bound t >>= fun e => pure (f e)) = .ok s' ↔ ∃ e, t.Reads bound e ∧ s' = f e := by
  rw [bind_eq_ok]
  apply exists_congr
  intro e
  rw [expression_eq_ok_iff]
  refine and_congr_right fun _ => ?_
  exact ⟨fun h => (Except.ok.inj h).symm, fun h => congrArg Except.ok h.symm⟩

theorem emitAction_eq_ok_iff {action : Action} :
    emitAction bound s action t = .ok s' ↔
      ∃ e, t.Reads bound e ∧ s' = s.emit (.act action e) :=
  bind_expression_eq_ok_iff

theorem emitStep_eq_ok_iff {op : Infix} :
    emitStep bound s op t = .ok s' ↔
      ∃ name, t.Reads bound (.var name) ∧
        s' = s.emit (.assign name (.binary op (.var name) (.literal 1))) := by
  unfold emitStep
  rw [bind_eq_ok]
  constructor
  · rintro ⟨e, he, h⟩
    split at h
    next name => exact ⟨name, expression_eq_ok_iff.1 he, (Except.ok.inj h).symm⟩
    next => simp [fail] at h
  · rintro ⟨name, he, rfl⟩
    exact ⟨_, expression_eq_ok_iff.2 he, rfl⟩

theorem idleExpression_eq_ok_iff :
    idleExpression bound s t = .ok s' ↔
      (∃ name, t.Reads bound (.var name) ∧ s' = s.goto (.assignOperator name)) ∨
        ∃ name value, t.Reads bound (.binary .equal (.var name) value) ∧
          s' = s.emit (.assign name value) := by
  unfold idleExpression
  rw [bind_eq_ok]
  constructor
  · rintro ⟨e, he, h⟩
    split at h
    next name => exact .inl ⟨name, expression_eq_ok_iff.1 he, (Except.ok.inj h).symm⟩
    next name value =>
      exact .inr ⟨name, value, expression_eq_ok_iff.1 he, (Except.ok.inj h).symm⟩
    next => simp [fail] at h
  · rintro (⟨name, he, rfl⟩ | ⟨name, value, he, rfl⟩)
    · exact ⟨_, expression_eq_ok_iff.2 he, rfl⟩
    · exact ⟨_, expression_eq_ok_iff.2 he, rfl⟩

theorem handle_idle_iff (hs : s.state = .idle) :
    handle bound s t = .ok s' ↔
      (∃ name, t.Reads bound (.var name) ∧ s' = s.goto (.assignOperator name)) ∨
        (∃ name value, t.Reads bound (.binary .equal (.var name) value) ∧
          s' = s.emit (.assign name value)) ∨
        (t.is .otherwise = true ∧ elseBlock s t = .ok s') ∨
        (t.is .endBlock = true ∧ endBlock s t = .ok s') ∨
        ∃ k state, t.is k = true ∧ State.starting t k = some state ∧ s' = s.goto state := by
  simp only [handle, hs, idle]
  by_cases hkind : t.kind = .expression
  · have hnot (k : Keyword) : t.is k = false :=
      Token.is_eq_false_of_kind (by rw [hkind]; decide) k
    rw [if_pos hkind, idleExpression_eq_ok_iff]
    simp [hnot]
  · have hreads (e : Expr) : ¬ t.Reads bound e := fun h => hkind h.1
    rw [if_neg hkind]
    simp only [hreads, false_and, exists_false, false_or]
    by_cases helse : t.is .otherwise = true
    · simp only [helse, if_true, Token.is_eq_decide helse, reduceCtorEq, decide_false,
        Bool.false_eq_true, false_and, false_or, true_and]
      constructor
      · exact fun h => .inl h
      · rintro (h | ⟨k, state, hk, hstate, _⟩)
        · exact h
        · obtain rfl : Keyword.otherwise = k := of_decide_eq_true hk
          simp [State.starting] at hstate
    · by_cases hend : t.is .endBlock = true
      · simp only [helse, hend, if_true, if_false, Token.is_eq_decide hend, Bool.false_eq_true,
          false_and, false_or, true_and]
        constructor
        · exact fun h => .inl h
        · rintro (h | ⟨k, state, hk, hstate, _⟩)
          · exact h
          · obtain rfl : Keyword.endBlock = k := of_decide_eq_true hk
            simp [State.starting] at hstate
      · simp only [helse, hend, if_false, Bool.false_eq_true, false_and, false_or]
        cases hbegins : State.begins? t with
        | none =>
            simp only [fail, reduceCtorEq, false_iff]
            rintro ⟨k, state, hk, hstate, _⟩
            rw [State.begins?_eq_some_iff.2 ⟨k, hk, hstate⟩] at hbegins
            simp at hbegins
        | some state =>
            obtain ⟨k, hk, hstate⟩ := State.begins?_eq_some_iff.1 hbegins
            constructor
            · intro h
              exact ⟨k, state, hk, hstate, (Except.ok.inj h).symm⟩
            · rintro ⟨k', state', hk', hstate', rfl⟩
              rw [State.begins?_eq_some_iff.2 ⟨k', hk', hstate'⟩] at hbegins
              rw [Option.some.inj hbegins]

theorem handle_end (bound : Nat) (hs : s.state = .idle) (ht : t.is .endBlock = true) :
    handle bound s t = endBlock s t := by
  simp [handle, hs, idle, Token.kind_of_is ht, Token.is_eq_decide ht]

theorem handle_else (bound : Nat) (hs : s.state = .idle) (ht : t.is .otherwise = true) :
    handle bound s t = elseBlock s t := by
  simp [handle, hs, idle, Token.kind_of_is ht, ht]

theorem handle_keyword_iff {k : Keyword} {cause : StatementCause} {next : Session} :
    (if t.is k then .ok next else fail t cause) = .ok s' ↔ t.is k = true ∧ s' = next := by
  by_cases hk : t.is k = true
  · simp [hk, eq_comm]
  · simp [hk, fail]

theorem handle_assignOperator_iff {name : Text} :
    handle bound (s.goto (.assignOperator name)) t = .ok s' ↔
      t.is .assign = true ∧ s' = s.goto (.assignValue name) :=
  handle_keyword_iff

theorem handle_assignValue_iff {name : Text} :
    handle bound (s.goto (.assignValue name)) t = .ok s' ↔
      ∃ e, t.Reads bound e ∧ s' = s.emit (.assign name e) :=
  bind_expression_eq_ok_iff

theorem handle_set_iff :
    handle bound (s.goto .set) t = .ok s' ↔
      t.is .color = true ∧ s' = s.goto .setColorTo ∨
        t.is .thickness = true ∧ s' = s.goto .setThicknessTo := by
  change (if t.is .color then .ok (s.goto .setColorTo)
    else if t.is .thickness then .ok (s.goto .setThicknessTo) else _) = Except.ok s' ↔ _
  by_cases hcolor : t.is .color = true
  · simp [hcolor, Token.is_eq_decide hcolor, eq_comm]
  · rw [if_neg hcolor, handle_keyword_iff]
    simp [hcolor]

theorem handle_setColorTo_iff :
    handle bound (s.goto .setColorTo) t = .ok s' ↔
      t.is .towards = true ∧ s' = s.goto .color :=
  handle_keyword_iff

theorem handle_setThicknessTo_iff :
    handle bound (s.goto .setThicknessTo) t = .ok s' ↔
      t.is .towards = true ∧ s' = s.goto .thickness :=
  handle_keyword_iff

theorem handle_color_iff :
    handle bound (s.goto .color) t = .ok s' ↔
      (∃ index, t.Names index ∧ s' = s.emit (.act .color (.literal (Int64.ofNat index)))) ∨
        ∃ e, t.Reads bound e ∧ s' = s.emit (.act .color e) := by
  by_cases hkind : t.kind = .keyword
  · have hreads (e : Expr) : ¬ t.Reads bound e :=
      fun h => absurd (hkind.symm.trans h.1) (by decide)
    simp only [Token.Names, hkind, true_and, ← colorIndex?_eq_some_iff, hreads, false_and,
      exists_false, or_false]
    cases hindex : colorIndex? t.literal with
    | none =>
        have hhandle : handle bound (s.goto .color) t = fail t (.unknownColor t) := by
          simp [handle, goto, hkind, hindex]
        simp [hhandle, fail]
    | some i =>
        have hhandle : handle bound (s.goto .color) t =
            .ok (s.emit (.act .color (.literal (Int64.ofNat i)))) := by
          simp [handle, goto, hkind, hindex, emit]
        simp [hhandle, eq_comm]
  · have hhandle : handle bound (s.goto .color) t =
        emitAction bound (s.goto .color) .color t := by
      simp [handle, goto, hkind]
    rw [hhandle, emitAction_eq_ok_iff]
    simp only [Token.Names, hkind, false_and, exists_false, false_or]
    rfl

theorem handle_thickness_iff :
    handle bound (s.goto .thickness) t = .ok s' ↔
      ∃ e, t.Reads bound e ∧ s' = s.emit (.act .thickness e) :=
  emitAction_eq_ok_iff

theorem handle_start_iff :
    handle bound (s.goto .start) t = .ok s' ↔
      t.is .stroke = true ∧ s' = s.emit (.act .stroke (.literal 1)) :=
  handle_keyword_iff

theorem handle_stop_iff :
    handle bound (s.goto .stop) t = .ok s' ↔
      t.is .stroke = true ∧ s' = s.emit (.act .stroke (.literal 0)) :=
  handle_keyword_iff

/-- Two keywords that go on in their own way, and otherwise an expression. -/
theorem handle_choice_iff {j k : Keyword} (hjk : j ≠ k) {first second : Session}
    {other : Result Session} {f : Expr → Session}
    (hother : other = .ok s' ↔ ∃ e, t.Reads bound e ∧ s' = f e) :
    (if t.is j then .ok first else if t.is k then .ok second else other) = .ok s' ↔
      t.is j = true ∧ s' = first ∨ t.is k = true ∧ s' = second ∨
        ∃ e, t.Reads bound e ∧ s' = f e := by
  have hreads (k : Keyword) (h : t.is k = true) (e : Expr) : ¬ t.Reads bound e :=
    fun he => Token.kind_ne_expression_of_is h he.1
  by_cases hj : t.is j = true
  · simp [hj, Token.is_eq_decide hj k, hjk, hreads j hj, eq_comm]
  · by_cases hk : t.is k = true
    · simp [hj, hk, hreads k hk, eq_comm]
    · simp [hj, hk, hother]

theorem handle_move_iff :
    handle bound (s.goto .move) t = .ok s' ↔
      t.is .forward = true ∧ s' = s.goto .moveForward ∨
        t.is .backward = true ∧ s' = s.goto .moveBackward ∨
          ∃ e, t.Reads bound e ∧ s' = s.emit (.act .move e) :=
  handle_choice_iff (by decide) emitAction_eq_ok_iff

theorem handle_moveForward_iff :
    handle bound (s.goto .moveForward) t = .ok s' ↔
      ∃ e, t.Reads bound e ∧ s' = s.emit (.act .move e) :=
  emitAction_eq_ok_iff

theorem handle_moveBackward_iff :
    handle bound (s.goto .moveBackward) t = .ok s' ↔
      ∃ e, t.Reads bound e ∧ s' = s.emit (.act .move (.unary .negate e)) :=
  bind_expression_eq_ok_iff

theorem handle_turn_iff :
    handle bound (s.goto .turn) t = .ok s' ↔
      t.is .left = true ∧ s' = s.emit (.act .turn (.literal 90)) ∨
        t.is .right = true ∧ s' = s.emit (.act .turn (.literal (-90))) ∨
          ∃ e, t.Reads bound e ∧ s' = s.emit (.act .turn e) :=
  handle_choice_iff (by decide) emitAction_eq_ok_iff

theorem handle_ifCondition_iff {keyword : Token} :
    handle bound (s.goto (.ifCondition keyword)) t = .ok s' ↔
      ∃ e, t.Reads bound e ∧ s' = s.enter keyword (s.code.openIf e) :=
  bind_expression_eq_ok_iff

theorem handle_whileCondition_iff {keyword : Token} :
    handle bound (s.goto (.whileCondition keyword)) t = .ok s' ↔
      ∃ e, t.Reads bound e ∧ s' = s.enter keyword (s.code.openWhile e) :=
  bind_expression_eq_ok_iff

theorem handle_untilCondition_iff {keyword : Token} :
    handle bound (s.goto (.untilCondition keyword)) t = .ok s' ↔
      ∃ e, t.Reads bound e ∧ s' = s.enter keyword (s.code.openUntil e) :=
  bind_expression_eq_ok_iff

theorem handle_repeatCount_iff {keyword : Token} :
    handle bound (s.goto (.repeatCount keyword)) t = .ok s' ↔
      ∃ e, t.Reads bound e ∧ s' = s.goto (.repeatTimes keyword e) :=
  bind_expression_eq_ok_iff

theorem handle_repeatTimes_iff {keyword : Token} {count : Expr} :
    handle bound (s.goto (.repeatTimes keyword count)) t = .ok s' ↔
      t.is .times = true ∧
        s' = s.enter keyword (s.code.openRepeat count (s.blocks.repeats + 1)) :=
  handle_keyword_iff

theorem handle_increment_iff :
    handle bound (s.goto .increment) t = .ok s' ↔
      ∃ name, t.Reads bound (.var name) ∧
        s' = s.emit (.assign name (.binary .add (.var name) (.literal 1))) :=
  emitStep_eq_ok_iff

theorem handle_decrement_iff :
    handle bound (s.goto .decrement) t = .ok s' ↔
      ∃ name, t.Reads bound (.var name) ∧
        s' = s.emit (.assign name (.binary .sub (.var name) (.literal 1))) :=
  emitStep_eq_ok_iff

end Transitions

def Leads (bound : Nat) (s : Session) (tokens : List Token) (s' : Session) : Prop :=
  tokens.foldlM (handle bound) s = .ok s'

section Runs

variable {bound : Nat} {s s' : Session} {t : Token} {tokens rest : List Token}

theorem leads_nil_iff : Leads bound s [] s' ↔ s' = s :=
  ⟨fun h => (Except.ok.inj h).symm, fun h => congrArg Except.ok h.symm⟩

theorem leads_cons_iff :
    Leads bound s (t :: tokens) s' ↔
      ∃ mid, handle bound s t = .ok mid ∧ Leads bound mid tokens s' :=
  foldlM_cons_eq_ok

theorem leads_append_iff :
    Leads bound s (tokens ++ rest) s' ↔
      ∃ mid, Leads bound s tokens mid ∧ Leads bound mid rest s' :=
  foldlM_append_eq_ok

theorem Leads.cons {mid : Session} (ht : handle bound s t = .ok mid)
    (h : Leads bound mid tokens s') : Leads bound s (t :: tokens) s' :=
  leads_cons_iff.2 ⟨mid, ht, h⟩

theorem Leads.last (ht : handle bound s t = .ok s') : Leads bound s [t] s' :=
  .cons ht (leads_nil_iff.2 rfl)

theorem Leads.append {mid : Session} (h : Leads bound s tokens mid)
    (hrest : Leads bound mid rest s') : Leads bound s (tokens ++ rest) s' :=
  leads_append_iff.2 ⟨mid, h, hrest⟩

theorem Leads.unique {other : Session} (h : Leads bound s tokens s')
    (hother : Leads bound s tokens other) : s' = other :=
  Except.ok.inj (h.symm.trans hother)

theorem handle_start {k : Keyword} {state : State} (hs : s.state = .idle) (hk : t.is k = true)
    (hstate : State.starting t k = some state) : handle bound s t = .ok (s.goto state) :=
  (handle_idle_iff hs).2 (.inr (.inr (.inr (.inr ⟨k, state, hk, hstate, rfl⟩))))

end Runs

end Session

end Tortoise
