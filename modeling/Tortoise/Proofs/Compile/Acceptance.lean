import Tortoise.Proofs.Compile.Emission

/-!
# Accepted tokens derive a body

If tokens lead from an idle session to an idle session without leaving more blocks open, they
start with a body that ends at the end of the tokens or at an `else` or `end` of a block around
it. With no block around there is no such `else` or `end`.
-/

namespace Tortoise

open Session

variable {bound : Nat} {s s' : Session}

/-- A session that ends idle takes another token in every other state. -/
theorem Session.Leads.exists_cons {state : State} {tokens : List Token}
    (h : Leads bound (s.goto state) tokens s') (hidle : s'.state = .idle)
    (hstate : state ≠ .idle) :
    ∃ t rest mid, tokens = t :: rest ∧ handle bound (s.goto state) t = .ok mid ∧
      Leads bound mid rest s' := by
  cases tokens with
  | nil =>
      rw [leads_nil_iff.1 h] at hidle
      exact absurd hidle hstate
  | cons t rest =>
      obtain ⟨mid, ht, hrest⟩ := leads_cons_iff.1 h
      exact ⟨t, rest, mid, rfl, ht, hrest⟩

inductive StartsWell (bound : Nat) (tokens : List Token) : Prop
  | simple {first rest : List Token} {statement : Simple} :
      statement.Derives bound first → tokens = first ++ rest → StartsWell bound tokens
  | opening {first rest : List Token} {opening : Opening} :
      opening.Derives bound first → tokens = first ++ rest → StartsWell bound tokens

section First

variable {t : Token} {tokens : List Token} (hidle : s'.state = .idle)
include hidle

theorem startsWell_assign {name : Text} (hv : t.Reads bound (.var name))
    (h : Leads bound (s.goto (.assignOperator name)) tokens s') :
    StartsWell bound (t :: tokens) := by
  obtain ⟨eq, rest, mid, rfl, hstep, hrest⟩ := h.exists_cons hidle (by simp)
  obtain ⟨heq, rfl⟩ := handle_assignOperator_iff.1 hstep
  obtain ⟨e, rest, mid, rfl, hstep, hrest⟩ := hrest.exists_cons hidle (by simp)
  obtain ⟨value, he, rfl⟩ := handle_assignValue_iff.1 hstep
  exact .simple (.assign hv heq he) rfl

theorem startsWell_set (ht : t.is .set = true) (h : Leads bound (s.goto .set) tokens s') :
    StartsWell bound (t :: tokens) := by
  obtain ⟨what, rest, mid, rfl, hstep, hrest⟩ := h.exists_cons hidle (by simp)
  rcases handle_set_iff.1 hstep with ⟨hcolor, rfl⟩ | ⟨hthickness, rfl⟩
  · obtain ⟨link, rest, mid, rfl, hstep, hrest⟩ := hrest.exists_cons hidle (by simp)
    obtain ⟨hto, rfl⟩ := handle_setColorTo_iff.1 hstep
    obtain ⟨e, rest, mid, rfl, hstep, hrest⟩ := hrest.exists_cons hidle (by simp)
    rcases handle_color_iff.1 hstep with ⟨index, hindex, rfl⟩ | ⟨value, he, rfl⟩
    · exact .simple (.namedColor ht hcolor hto hindex) rfl
    · exact .simple (.color ht hcolor hto he) rfl
  · obtain ⟨link, rest, mid, rfl, hstep, hrest⟩ := hrest.exists_cons hidle (by simp)
    obtain ⟨hto, rfl⟩ := handle_setThicknessTo_iff.1 hstep
    obtain ⟨e, rest, mid, rfl, hstep, hrest⟩ := hrest.exists_cons hidle (by simp)
    obtain ⟨value, he, rfl⟩ := handle_thickness_iff.1 hstep
    exact .simple (.thickness ht hthickness hto he) rfl

theorem startsWell_move (ht : t.is .move = true) (h : Leads bound (s.goto .move) tokens s') :
    StartsWell bound (t :: tokens) := by
  obtain ⟨u, rest, mid, rfl, hstep, hrest⟩ := h.exists_cons hidle (by simp)
  rcases handle_move_iff.1 hstep with ⟨hforward, rfl⟩ | ⟨hbackward, rfl⟩ | ⟨value, he, rfl⟩
  · obtain ⟨e, rest, mid, rfl, hstep, hrest⟩ := hrest.exists_cons hidle (by simp)
    obtain ⟨value, he, rfl⟩ := handle_moveForward_iff.1 hstep
    exact .simple (.moveForward ht hforward he) rfl
  · obtain ⟨e, rest, mid, rfl, hstep, hrest⟩ := hrest.exists_cons hidle (by simp)
    obtain ⟨value, he, rfl⟩ := handle_moveBackward_iff.1 hstep
    exact .simple (.moveBackward ht hbackward he) rfl
  · exact .simple (.move ht he) rfl

theorem startsWell_repeat (ht : t.is .repeatLoop = true)
    (h : Leads bound (s.goto (.repeatCount t)) tokens s') : StartsWell bound (t :: tokens) := by
  obtain ⟨e, rest, mid, rfl, hstep, hrest⟩ := h.exists_cons hidle (by simp)
  obtain ⟨count, he, rfl⟩ := handle_repeatCount_iff.1 hstep
  obtain ⟨times, rest, mid, rfl, hstep, hrest⟩ := hrest.exists_cons hidle (by simp)
  obtain ⟨htimes, rfl⟩ := handle_repeatTimes_iff.1 hstep
  exact .opening (.repeatLoop ht he htimes) rfl

/-- The statements of a keyword and one more token. -/
theorem startsWell_pair {k : Keyword} {state : State} (hk : t.is k = true)
    (hstate : State.starting t k = some state) (h : Leads bound (s.goto state) tokens s')
    (hset : k ≠ .set) (hmove : k ≠ .move) (hrepeat : k ≠ .repeatLoop) :
    StartsWell bound (t :: tokens) := by
  have hbusy : state ≠ .idle := by
    rintro rfl
    cases k <;> simp [State.starting] at hstate
  obtain ⟨u, rest, mid, rfl, hstep, _⟩ := h.exists_cons hidle hbusy
  cases k <;> simp only [State.starting, Option.some.injEq, reduceCtorEq] at hstate <;>
    subst hstate
  case start =>
    obtain ⟨hstroke, rfl⟩ := handle_start_iff.1 hstep
    exact .simple (.startStroke hk hstroke) rfl
  case stop =>
    obtain ⟨hstroke, rfl⟩ := handle_stop_iff.1 hstep
    exact .simple (.stopStroke hk hstroke) rfl
  case turn =>
    rcases handle_turn_iff.1 hstep with ⟨hleft, rfl⟩ | ⟨hright, rfl⟩ | ⟨value, he, rfl⟩
    · exact .simple (.turnLeft hk hleft) rfl
    · exact .simple (.turnRight hk hright) rfl
    · exact .simple (.turn hk he) rfl
  case ifThen =>
    obtain ⟨cond, he, rfl⟩ := handle_ifCondition_iff.1 hstep
    exact .opening (.ifThen hk he) rfl
  case whileLoop =>
    obtain ⟨cond, he, rfl⟩ := handle_whileCondition_iff.1 hstep
    exact .opening (.whileLoop hk he) rfl
  case untilLoop =>
    obtain ⟨cond, he, rfl⟩ := handle_untilCondition_iff.1 hstep
    exact .opening (.untilLoop hk he) rfl
  case increment =>
    obtain ⟨name, hv, rfl⟩ := handle_increment_iff.1 hstep
    exact .simple (.increment hk hv) rfl
  case decrement =>
    obtain ⟨name, hv, rfl⟩ := handle_decrement_iff.1 hstep
    exact .simple (.decrement hk hv) rfl
  all_goals contradiction

theorem startsWell_of_leads (hs : s.state = .idle) (h : Leads bound s (t :: tokens) s') :
    t.is .otherwise = true ∨ t.is .endBlock = true ∨ StartsWell bound (t :: tokens) := by
  obtain ⟨mid, ht, hrest⟩ := leads_cons_iff.1 h
  rcases (handle_idle_iff hs).1 ht with
    ⟨name, hv, rfl⟩ | ⟨name, value, he, rfl⟩ | ⟨helse, _⟩ | ⟨hend, _⟩ | ⟨k, state, hk, hstate, rfl⟩
  · exact .inr (.inr (startsWell_assign hidle hv hrest))
  · exact .inr (.inr (.simple (.equation he) rfl))
  · exact .inl helse
  · exact .inr (.inl hend)
  · refine .inr (.inr ?_)
    by_cases hset : k = .set
    · subst hset
      obtain rfl := Option.some.inj hstate
      exact startsWell_set hidle hk hrest
    by_cases hmove : k = .move
    · subst hmove
      obtain rfl := Option.some.inj hstate
      exact startsWell_move hidle hk hrest
    by_cases hrepeat : k = .repeatLoop
    · subst hrepeat
      obtain rfl := Option.some.inj hstate
      exact startsWell_repeat hidle hk hrest
    · exact startsWell_pair hidle hk hstate hrest hset hmove hrepeat

end First

/-- The tokens start with a body that ends at their end or at an `else` or `end`. -/
def StartsWithBody (bound : Nat) (tokens : List Token) : Prop :=
  ∃ first rest body, tokens = first ++ rest ∧ Body.Derives bound first body ∧
    (rest = [] ∨ ∃ t more, rest = t :: more ∧ (t.is .otherwise = true ∨ t.is .endBlock = true))

theorem Simple.Derives.length_pos {tokens : List Token} {statement : Simple}
    (h : statement.Derives bound tokens) : 0 < tokens.length := by
  cases h <;> simp

theorem Opening.Derives.length_pos {tokens : List Token} {opening : Opening}
    (h : opening.Derives bound tokens) : 0 < tokens.length := by
  cases h <;> simp

theorem Body.Derives.leads_rest {first rest : List Token} {body : Body}
    (h : body.Derives bound first) (hs : s.state = .idle)
    (hleads : Leads bound s (first ++ rest) s') :
    Leads bound (s.append (body.code s.code.size s.blocks.repeats)) rest s' := by
  obtain ⟨mid, hfirst, hrest⟩ := leads_append_iff.1 hleads
  rwa [(h.leads hs).unique hfirst]

/-- Inside a block, a body that ends is followed by an `else` or `end`. -/
theorem exists_closing {tokens : List Token} {keyword : Token} {opened : List Token}
    (hbody : StartsWithBody bound tokens) (hleads : Leads bound s tokens s')
    (hs : s.state = .idle) (hopened : s.opened = keyword :: opened)
    (hless : s'.opened.length ≤ opened.length) :
    ∃ first t more body, tokens = first ++ t :: more ∧ Body.Derives bound first body ∧
      (t.is .otherwise = true ∨ t.is .endBlock = true) ∧
      Leads bound (s.append (body.code s.code.size s.blocks.repeats)) (t :: more) s' := by
  obtain ⟨first, rest, body, rfl, hfirst, hrest⟩ := hbody
  have hbehind := hfirst.leads_rest hs hleads
  rcases hrest with rfl | ⟨t, more, rfl, ht⟩
  · rw [leads_nil_iff.1 hbehind, opened_append, hopened, List.length_cons] at hless
    omega
  · exact ⟨first, t, more, body, rfl, hfirst, ht, hbehind⟩

theorem elseBlock_within_loop {keyword t : Token} {opening : Opening}
    {inner : List Instruction} (hloop : ∀ cond, opening ≠ .ifThen cond) :
    elseBlock ((s.within keyword opening).append inner) t = fail t .elseOutside := by
  cases opening with
  | ifThen cond => exact absurd rfl (hloop cond)
  | loop negated cond => rfl
  | repeatLoop count => rfl

section Induction

variable {n : Nat} (ih : ∀ {s : Session} {tokens : List Token}, tokens.length < n →
  Leads bound s tokens s' → s.state = .idle → s'.opened.length ≤ s.opened.length →
  StartsWithBody bound tokens)
include ih

theorem startsWithBody_simple {first rest : List Token} {statement : Simple}
    (hlen : (first ++ rest).length ≤ n) (hstatement : statement.Derives bound first)
    (hleads : Leads bound s (first ++ rest) s') (hs : s.state = .idle)
    (hless : s'.opened.length ≤ s.opened.length) : StartsWithBody bound (first ++ rest) := by
  have hpos := hstatement.length_pos
  rw [List.length_append] at hlen
  obtain ⟨mid, hfirst, hrest⟩ := leads_append_iff.1 hleads
  obtain rfl := (hstatement.leads hs).unique hfirst
  obtain ⟨second, last, body, rfl, hsecond, hlast⟩ := ih (by omega) hrest hs hless
  exact ⟨first ++ second, last, .simple statement body, by simp, .simple hstatement hsecond, hlast⟩

theorem startsWithBody_else {first inside more : List Token} {keyword middle : Token}
    {cond : Expr} {yes : Body} (hlen : more.length < n)
    (hopening : Opening.Derives bound first (.ifThen cond)) (hinside : yes.Derives bound inside)
    (hmiddle : middle.is .otherwise = true) {code : List Instruction}
    (hleads : Leads bound (s.otherwise keyword cond code) more s') (hs : s.state = .idle)
    (hless : s'.opened.length ≤ s.opened.length) :
    StartsWithBody bound (first ++ inside ++ middle :: more) := by
  have hmore : StartsWithBody bound more := by
    refine ih hlen hleads rfl ?_
    change _ ≤ (keyword :: s.opened).length
    rw [List.length_cons]
    omega
  obtain ⟨second, close, rest, no, rfl, hsecond, hclose, hbehind⟩ :=
    exists_closing hmore hleads rfl rfl hless
  obtain ⟨after, hhandle, hrest⟩ := leads_cons_iff.1 hbehind
  rcases hclose with helse | hend
  · rw [handle_else bound rfl helse, elseBlock_otherwise] at hhandle
    simp [fail] at hhandle
  · rw [handle_end bound rfl hend, endBlock_otherwise keyword hs] at hhandle
    obtain rfl := Except.ok.inj hhandle
    simp only [List.length_append, List.length_cons] at hlen
    obtain ⟨third, last, next, rfl, hthird, hlast⟩ := ih (by omega) hrest hs hless
    exact ⟨first ++ inside ++ middle :: second ++ close :: third, last, .ifElse cond yes no next,
      by simp, .ifElse hopening hinside hmiddle hsecond hend hthird, hlast⟩

theorem startsWithBody_opening {first rest : List Token} {opening : Opening}
    (hlen : (first ++ rest).length ≤ n) (hopening : opening.Derives bound first)
    (hleads : Leads bound s (first ++ rest) s') (hs : s.state = .idle)
    (hless : s'.opened.length ≤ s.opened.length) : StartsWithBody bound (first ++ rest) := by
  have hpos := hopening.length_pos
  rw [List.length_append] at hlen
  obtain ⟨mid, hfirst, hrest⟩ := leads_append_iff.1 hleads
  obtain ⟨keyword, -, -, hlead⟩ := hopening.leads hs
  obtain rfl := hlead.unique hfirst
  have hinner : StartsWithBody bound rest := by
    refine ih (by omega) hrest rfl ?_
    change _ ≤ (keyword :: s.opened).length
    rw [List.length_cons]
    omega
  obtain ⟨inside, close, more, inner, rfl, hinside, hclose, hbehind⟩ :=
    exists_closing hinner hrest rfl rfl hless
  obtain ⟨after, hhandle, hmore⟩ := leads_cons_iff.1 hbehind
  simp only [List.length_append, List.length_cons] at hlen
  rw [← List.append_assoc]
  rcases hclose with helse | hend
  · rw [handle_else bound rfl helse] at hhandle
    by_cases hif : ∃ cond, opening = .ifThen cond
    · obtain ⟨cond, rfl⟩ := hif
      rw [elseBlock_within] at hhandle
      obtain rfl := Except.ok.inj hhandle
      exact startsWithBody_else ih (by omega) hopening hinside helse hmore hs hless
    · rw [elseBlock_within_loop fun cond h => hif ⟨cond, h⟩] at hhandle
      simp [fail] at hhandle
  · rw [handle_end bound rfl hend, endBlock_within keyword hs] at hhandle
    obtain rfl := Except.ok.inj hhandle
    obtain ⟨second, last, next, rfl, hsecond, hlast⟩ := ih (by omega) hmore hs hless
    exact ⟨first ++ inside ++ close :: second, last, .block opening inner next, by simp,
      .block hopening hinside hend hsecond, hlast⟩

end Induction

theorem startsWithBody_of_leads {tokens : List Token} (hleads : Leads bound s tokens s')
    (hs : s.state = .idle) (hidle : s'.state = .idle)
    (hless : s'.opened.length ≤ s.opened.length) : StartsWithBody bound tokens := by
  -- What is inside a block is read before what follows it, so the induction is on the length.
  induction hlen : tokens.length using Nat.strongRecOn generalizing s tokens with
  | _ n ih =>
    have hshort {r : Session} {rest : List Token} (hrest : rest.length < n)
        (hr : Leads bound r rest s') (hridle : r.state = .idle)
        (hrless : s'.opened.length ≤ r.opened.length) : StartsWithBody bound rest :=
      ih _ hrest hr hridle hrless rfl
    cases tokens with
    | nil => exact ⟨[], [], .done, rfl, .done, .inl rfl⟩
    | cons t tokens =>
      rcases startsWell_of_leads hidle hs hleads with helse | hend | hwell
      · exact ⟨[], t :: tokens, .done, rfl, .done, .inr ⟨t, tokens, rfl, .inl helse⟩⟩
      · exact ⟨[], t :: tokens, .done, rfl, .done, .inr ⟨t, tokens, rfl, .inr hend⟩⟩
      · cases hwell with
        | simple hstatement htokens =>
            rw [htokens] at hlen hleads ⊢
            exact startsWithBody_simple hshort (Nat.le_of_eq hlen) hstatement hleads hs hless
        | opening hopening htokens =>
            rw [htokens] at hlen hleads ⊢
            exact startsWithBody_opening hshort (Nat.le_of_eq hlen) hopening hleads hs hless

/-- With no block open, accepted tokens derive a body as a whole. -/
theorem exists_derives_of_leads {tokens : List Token} (hleads : Leads bound {} tokens s')
    (hidle : s'.state = .idle) (hopened : s'.opened = []) :
    ∃ body, Body.Derives bound tokens body := by
  obtain ⟨first, rest, body, rfl, hfirst, hrest⟩ :=
    startsWithBody_of_leads hleads rfl hidle (by simp [hopened])
  rcases hrest with rfl | ⟨t, more, rfl, ht⟩
  · exact ⟨body, by rwa [List.append_nil]⟩
  · obtain ⟨mid, hhandle, _⟩ := leads_cons_iff.1 (hfirst.leads_rest rfl hleads)
    rcases ht with helse | hend
    · rw [handle_else bound rfl helse] at hhandle
      simp [elseBlock, Session.append, BlockStack.top?, fail] at hhandle
    · rw [handle_end bound rfl hend] at hhandle
      simp [endBlock, Session.append, BlockStack.pop?, fail] at hhandle

end Tortoise
