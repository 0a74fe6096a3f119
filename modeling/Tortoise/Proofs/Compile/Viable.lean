import Tortoise.Proofs.Compile.Program
import Tortoise.Proofs.Token.Scan

/-!
# Sessions can always be completed

Between statements, a session stands inside the blocks that its tokens left open: `Nested` says
which, and every statement keeps it. So the end of a block never fails. A statement at hand can be
finished in every state, with words from a small vocabulary. Together, whatever tokens are accepted
can be continued to the tokens of a body.
-/

namespace Tortoise

open Session

variable {bound : Nat} {s s' : Session} {t keyword : Token} {tokens first rest more : List Token}

theorem Body.Derives.append {body next : Body} (h : body.Derives bound first)
    (hnext : next.Derives bound rest) : ∃ all : Body, all.Derives bound (first ++ rest) := by
  induction h with
  | done => exact ⟨next, hnext⟩
  | simple hstatement _ ih =>
      obtain ⟨all, hall⟩ := ih
      rw [List.append_assoc]
      exact ⟨_, .simple hstatement hall⟩
  | block hopening hinner hclose _ _ ih =>
      obtain ⟨all, hall⟩ := ih
      rw [List.append_assoc, List.cons_append]
      exact ⟨_, .block hopening hinner hclose hall⟩
  | ifElse hopening hyes hmiddle hno hclose _ _ _ ih =>
      obtain ⟨all, hall⟩ := ih
      rw [List.append_assoc, List.cons_append]
      exact ⟨_, .ifElse hopening hyes hmiddle hno hclose hall⟩

/-- What may stand in an open block: a body, or behind an `if` two of them. -/
inductive Arms (bound : Nat) : Opening → List Token → Prop
  | one {opening : Opening} {inside : List Token} {body : Body}
      (hinside : body.Derives bound inside) : Arms bound opening inside
  | both {cond : Expr} {first second : List Token} {middle : Token} {yes no : Body}
      (hyes : yes.Derives bound first) (hmiddle : middle.is .otherwise = true)
      (hno : no.Derives bound second) : Arms bound (.ifThen cond) (first ++ middle :: second)

/-- A block with its end is a body. -/
theorem Arms.close {opening : Opening} {inside : List Token} (h : Arms bound opening inside)
    (hopening : opening.Derives bound first) (hclose : t.is .endBlock = true) :
    ∃ body : Body, body.Derives bound (first ++ inside ++ [t]) := by
  cases h with
  | one hinside => exact ⟨_, .block hopening hinside hclose .done⟩
  | both hyes hmiddle hno =>
      rw [← List.append_assoc]
      exact ⟨_, .ifElse hopening hyes hmiddle hno hclose .done⟩

/-- The tokens lead to the session, which stands between statements inside the open blocks. -/
inductive Nested (bound : Nat) : List Token → Session → Prop
  | top {tokens : List Token} {body : Body} {code : List Instruction}
      (hbody : body.Derives bound tokens) : Nested bound tokens (Session.append {} code)
  | within {tokens rest inside : List Token} {s : Session} {keyword : Token} {opening : Opening}
      {body : Body} {code : List Instruction} (hs : Nested bound tokens s)
      (hopening : opening.Derives bound (keyword :: rest)) (hinside : body.Derives bound inside) :
      Nested bound (tokens ++ (keyword :: rest ++ inside))
        ((s.within keyword opening).append code)
  | otherwise {tokens rest first second : List Token} {s : Session} {keyword middle : Token}
      {cond : Expr} {yes no : Body} {before code : List Instruction} (hs : Nested bound tokens s)
      (hopening : Opening.Derives bound (keyword :: rest) (.ifThen cond))
      (hyes : yes.Derives bound first) (hmiddle : middle.is .otherwise = true)
      (hno : no.Derives bound second) :
      Nested bound (tokens ++ (keyword :: rest ++ (first ++ middle :: second)))
        ((s.otherwise keyword cond before).append code)

def InnermostOpen (bound : Nat) (tokens : List Token) (keyword : Token) : Prop :=
  ∃ outer rest inside opening, tokens = outer ++ (keyword :: rest ++ inside) ∧
    Opening.Derives bound (keyword :: rest) opening ∧ Arms bound opening inside

namespace Nested

theorem start : Nested bound [] {} := by
  have hstart : Nested bound [] (Session.append {} []) := .top .done
  rwa [append_nil] at hstart

theorem state_eq (h : Nested bound tokens s) : s.state = .idle := by
  cases h <;> rfl

theorem innermostOpen {opened : List Token} (h : Nested bound tokens s)
    (hopened : s.opened = keyword :: opened) : InnermostOpen bound tokens keyword := by
  cases h with
  | top => cases hopened
  | within hs hopening hinside =>
      obtain ⟨rfl, -⟩ := List.cons.inj hopened
      exact ⟨_, _, _, _, rfl, hopening, .one hinside⟩
  | otherwise hs hopening hyes hmiddle hno =>
      obtain ⟨rfl, -⟩ := List.cons.inj hopened
      exact ⟨_, _, _, _, rfl, hopening, .both hyes hmiddle hno⟩

/-- A body leaves the session in the same blocks. -/
theorem extend (h : Nested bound tokens s) {body : Body} (hbody : body.Derives bound more)
    (code : List Instruction) : Nested bound (tokens ++ more) (s.append code) := by
  cases h with
  | top hbefore =>
      obtain ⟨all, hall⟩ := hbefore.append hbody
      rw [append_append]
      exact .top hall
  | within hs hopening hinside =>
      obtain ⟨all, hall⟩ := hinside.append hbody
      rw [append_append, List.append_assoc, List.append_assoc]
      exact .within hs hopening hall
  | otherwise hs hopening hyes hmiddle hno =>
      obtain ⟨all, hall⟩ := hno.append hbody
      rw [append_append, List.append_assoc, List.append_assoc, List.append_assoc,
        List.cons_append]
      exact .otherwise hs hopening hyes hmiddle hall

theorem enter (h : Nested bound tokens s) {opening : Opening}
    (hopening : opening.Derives bound first) (hleads : Leads bound s first s') :
    Nested bound (tokens ++ first) s' := by
  obtain ⟨keyword, rest, rfl, hlead⟩ := hopening.leads h.state_eq
  obtain rfl := hlead.unique hleads
  have hwithin : Nested bound (tokens ++ (keyword :: rest ++ []))
      ((s.within keyword opening).append []) := .within h hopening .done
  rwa [append_nil, List.append_nil] at hwithin

theorem handle_else (h : Nested bound tokens s) (ht : t.is .otherwise = true)
    (hhandle : handle bound s t = .ok s') : Nested bound (tokens ++ [t]) s' := by
  rw [Session.handle_else bound h.state_eq ht] at hhandle
  cases h with
  | top => simp [elseBlock, Session.append, BlockStack.top?, fail] at hhandle
  | @within tokens rest inside s keyword opening body code hs hopening hinside =>
      by_cases hif : ∃ cond, opening = .ifThen cond
      · obtain ⟨cond, rfl⟩ := hif
        rw [elseBlock_within] at hhandle
        obtain rfl := Except.ok.inj hhandle
        have hotherwise : Nested bound (tokens ++ (keyword :: rest ++ (inside ++ t :: [])))
            ((s.otherwise keyword cond code).append []) :=
          .otherwise hs hopening hinside ht .done
        rwa [append_nil, ← List.append_assoc (keyword :: rest), ← List.append_assoc] at hotherwise
      · rw [elseBlock_within_loop fun cond h => hif ⟨cond, h⟩] at hhandle
        cases hhandle
  | otherwise =>
      rw [elseBlock_otherwise] at hhandle
      cases hhandle

/-- What the end of a block leads to. -/
theorem handle_end (h : Nested bound tokens s) (ht : t.is .endBlock = true)
    (hhandle : handle bound s t = .ok s') : Nested bound (tokens ++ [t]) s' := by
  rw [Session.handle_end bound h.state_eq ht] at hhandle
  cases h with
  | top => simp [endBlock, Session.append, BlockStack.pop?, fail] at hhandle
  | within hs hopening hinside =>
      rw [endBlock_within _ hs.state_eq] at hhandle
      obtain rfl := Except.ok.inj hhandle
      obtain ⟨body, hbody⟩ := (Arms.one hinside).close hopening ht
      rw [List.append_assoc]
      exact hs.extend hbody _
  | otherwise hs hopening hyes hmiddle hno =>
      rw [endBlock_otherwise _ hs.state_eq] at hhandle
      obtain rfl := Except.ok.inj hhandle
      obtain ⟨body, hbody⟩ := (Arms.both hyes hmiddle hno).close hopening ht
      rw [List.append_assoc]
      exact hs.extend hbody _

/-- Whatever is accepted between statements keeps track of the open blocks. -/
theorem run (h : Nested bound tokens s) (hleads : Leads bound s more s')
    (hidle : s'.state = .idle) : Nested bound (tokens ++ more) s' := by
  -- A statement is passed at once, so the induction is on the number of tokens.
  induction hlen : more.length using Nat.strongRecOn generalizing s tokens more with
  | _ n ih =>
    cases more with
    | nil =>
        obtain rfl := leads_nil_iff.1 hleads
        rwa [List.append_nil]
    | cons t more =>
        have hstep {mid : Session} {front back : List Token} (hfront : 0 < front.length)
            (hmore : t :: more = front ++ back) (hmid : Nested bound (tokens ++ front) mid)
            (hback : Leads bound mid back s') : Nested bound (tokens ++ (t :: more)) s' := by
          have hshort : back.length < n := by
            rw [← hlen, hmore, List.length_append]
            omega
          rw [hmore, ← List.append_assoc]
          exact ih _ hshort hmid hback rfl
        rcases startsWell_of_leads hidle h.state_eq hleads with helse | hend | hwell
        · obtain ⟨mid, hhandle, hrest⟩ := leads_cons_iff.1 hleads
          exact hstep (by simp) rfl (h.handle_else helse hhandle) hrest
        · obtain ⟨mid, hhandle, hrest⟩ := leads_cons_iff.1 hleads
          exact hstep (by simp) rfl (h.handle_end hend hhandle) hrest
        · cases hwell with
          | simple hstatement htokens =>
              rw [htokens] at hleads
              obtain ⟨mid, hfirst, hrest⟩ := leads_append_iff.1 hleads
              obtain rfl := (hstatement.leads h.state_eq).unique hfirst
              have hbody := Body.Derives.simple hstatement .done
              rw [List.append_nil] at hbody
              exact hstep hstatement.length_pos htokens (h.extend hbody _) hrest
          | opening hopening htokens =>
              rw [htokens] at hleads
              obtain ⟨mid, hfirst, hrest⟩ := leads_append_iff.1 hleads
              exact hstep hopening.length_pos htokens (h.enter hopening hfirst) hrest

end Nested

def Token.ofWord (w : Text) : Token := ⟨.ofWord w, w, .first⟩

def vocabulary : List Text := ["=", "1", "X", "color", "to", "stroke", "times", "end"]

/-- Open blocks can be ended. -/
theorem Nested.close (h : Nested bound tokens s) (code : List Instruction) :
    ∃ n s', Leads bound (s.append code) (List.replicate n (.ofWord "end")) s' ∧
      s'.state = .idle ∧ s'.opened = [] := by
  have hend : (Token.ofWord "end").is .endBlock = true := by decide
  induction h generalizing code with
  | top hbody => exact ⟨0, _, leads_nil_iff.2 rfl, rfl, rfl⟩
  | @within _ _ _ s keyword opening _ before hs _ _ ih =>
      obtain ⟨n, s', hleads, hclosed⟩ :=
        ih (opening.wrap s.code.size s.blocks.repeats (before ++ code))
      refine ⟨n + 1, s', .cons ?_ hleads, hclosed⟩
      rw [append_append, Session.handle_end bound rfl hend, endBlock_within _ hs.state_eq]
  | @otherwise _ _ _ _ s keyword _ cond _ _ before after hs _ _ _ _ ih =>
      obtain ⟨n, s', hleads, hclosed⟩ := ih (.branch cond (s.code.size + 1 : Nat)
        (s.code.size + 1 + before.length + 1 : Nat) :: (before ++
          .jump (s.code.size + 1 + before.length + 1 + (after ++ code).length : Nat) ::
            (after ++ code)))
      refine ⟨n + 1, s', .cons ?_ hleads, hclosed⟩
      rw [append_append, Session.handle_end bound rfl hend, endBlock_otherwise _ hs.state_eq]

def Completes (bound : Nat) (s : Session) : Prop :=
  ∃ (ws : List Text) (s' : Session), (∀ w ∈ ws, w ∈ vocabulary) ∧
    Leads bound s (ws.map Token.ofWord) s' ∧ s'.state = .idle

theorem completes_of_idle (hs : s.state = .idle) : Completes bound s :=
  ⟨[], s, by simp, leads_nil_iff.2 rfl, hs⟩

theorem Completes.step {w : Text} (hw : w ∈ vocabulary)
    (hhandle : handle bound s (.ofWord w) = .ok s') (h : Completes bound s') :
    Completes bound s := by
  obtain ⟨ws, last, hws, hleads, hidle⟩ := h
  exact ⟨w :: ws, last, List.forall_mem_cons.2 ⟨hw, hws⟩, .cons hhandle hleads, hidle⟩

section States

variable (hbound : 0 < bound) (s : Session)
include hbound

theorem reads_one : (Token.ofWord "1").Reads bound (.literal (Int64.ofNat 1)) :=
  Token.reads_numeral .first hbound rfl (by decide)

theorem reads_name : (Token.ofWord "X").Reads bound (.var "X") :=
  Token.reads_identifier .first hbound rfl

/-- A state that takes any expression and then is done can be finished. -/
theorem completes_expression {f : Expr → Session} (hidle : ∀ e, (f e).state = .idle)
    (h : ∀ e, (Token.ofWord "1").Reads bound e → handle bound s (.ofWord "1") = .ok (f e)) :
    Completes bound s :=
  .step (by decide) (h _ (reads_one hbound)) (completes_of_idle (hidle _))

/-- Every state can be finished. -/
theorem completes_goto (state : State) : Completes bound (s.goto state) := by
  have hcolor : Completes bound (s.goto .color) :=
    completes_expression hbound _ (fun _ => rfl) fun e he => handle_color_iff.2 (.inr ⟨e, he, rfl⟩)
  have hthickness : Completes bound (s.goto .thickness) :=
    completes_expression hbound _ (fun _ => rfl) fun e he => handle_thickness_iff.2 ⟨e, he, rfl⟩
  have hvalue (name : Text) : Completes bound (s.goto (.assignValue name)) :=
    completes_expression hbound _ (fun _ => rfl) fun e he => handle_assignValue_iff.2 ⟨e, he, rfl⟩
  have hto : Text.ofString "to" ∈ vocabulary := by decide
  have hsetColor : Completes bound (s.goto .setColorTo) :=
    .step hto (handle_setColorTo_iff.2 ⟨by decide, rfl⟩) hcolor
  have htimes (keyword : Token) (count : Expr) :
      Completes bound (s.goto (.repeatTimes keyword count)) := by
    have hword : Text.ofString "times" ∈ vocabulary := by decide
    exact .step hword (handle_repeatTimes_iff.2 ⟨by decide, rfl⟩) (completes_of_idle rfl)
  have hstroke : Text.ofString "stroke" ∈ vocabulary := by decide
  have hname : Text.ofString "X" ∈ vocabulary := by decide
  cases state with
  | idle => exact completes_of_idle rfl
  | assignOperator name =>
      have hword : Text.ofString "=" ∈ vocabulary := by decide
      exact .step hword (handle_assignOperator_iff.2 ⟨by decide, rfl⟩) (hvalue name)
  | assignValue name => exact hvalue name
  | set =>
      have hword : Text.ofString "color" ∈ vocabulary := by decide
      exact .step hword (handle_set_iff.2 (.inl ⟨by decide, rfl⟩)) hsetColor
  | setColorTo => exact hsetColor
  | setThicknessTo =>
      exact .step hto (handle_setThicknessTo_iff.2 ⟨by decide, rfl⟩) hthickness
  | color => exact hcolor
  | thickness => exact hthickness
  | start => exact .step hstroke (handle_start_iff.2 ⟨by decide, rfl⟩) (completes_of_idle rfl)
  | stop => exact .step hstroke (handle_stop_iff.2 ⟨by decide, rfl⟩) (completes_of_idle rfl)
  | move =>
      exact completes_expression hbound _ (fun _ => rfl) fun e he =>
        handle_move_iff.2 (.inr (.inr ⟨e, he, rfl⟩))
  | moveForward =>
      exact completes_expression hbound _ (fun _ => rfl) fun e he =>
        handle_moveForward_iff.2 ⟨e, he, rfl⟩
  | moveBackward =>
      exact completes_expression hbound _ (fun _ => rfl) fun e he =>
        handle_moveBackward_iff.2 ⟨e, he, rfl⟩
  | turn =>
      exact completes_expression hbound _ (fun _ => rfl) fun e he =>
        handle_turn_iff.2 (.inr (.inr ⟨e, he, rfl⟩))
  | ifCondition keyword =>
      exact completes_expression hbound _ (fun _ => rfl) fun e he =>
        handle_ifCondition_iff.2 ⟨e, he, rfl⟩
  | whileCondition keyword =>
      exact completes_expression hbound _ (fun _ => rfl) fun e he =>
        handle_whileCondition_iff.2 ⟨e, he, rfl⟩
  | untilCondition keyword =>
      exact completes_expression hbound _ (fun _ => rfl) fun e he =>
        handle_untilCondition_iff.2 ⟨e, he, rfl⟩
  | repeatCount keyword =>
      have hword : Text.ofString "1" ∈ vocabulary := by decide
      exact .step hword (handle_repeatCount_iff.2 ⟨_, reads_one hbound, rfl⟩) (htimes keyword _)
  | repeatTimes keyword count => exact htimes keyword count
  | increment =>
      exact .step hname (handle_increment_iff.2 ⟨_, reads_name hbound, rfl⟩) (completes_of_idle rfl)
  | decrement =>
      exact .step hname (handle_decrement_iff.2 ⟨_, reads_name hbound, rfl⟩) (completes_of_idle rfl)

end States

/-- Whatever tokens are accepted, some words continue them to a body. -/
theorem exists_completion (hbound : 0 < bound) (h : Leads bound {} tokens s) :
    ∃ ws : List Text, (∀ w ∈ ws, w ∈ vocabulary) ∧
      ∃ body : Body, body.Derives bound (tokens ++ ws.map Token.ofWord) := by
  obtain ⟨ws, mid, hws, hmid, hidle⟩ : Completes bound s := completes_goto hbound s s.state
  have hnested := Nested.start.run (h.append hmid) hidle
  obtain ⟨n, last, hclose, hlast, hopened⟩ := hnested.close []
  rw [append_nil] at hclose
  refine ⟨ws ++ List.replicate n (Text.ofString "end"), ?_, ?_⟩
  · intro w hw
    rcases List.mem_append.1 hw with hw | hw
    · exact hws w hw
    · rw [List.eq_of_mem_replicate hw]
      decide
  · rw [List.map_append, List.map_replicate, ← List.append_assoc]
    exact exists_derives_of_leads ((h.append hmid).append hclose) hlast hopened

end Tortoise
