import Tortoise.Compile.Basic
import Tortoise.Proofs.Compile.Acceptance
import Tortoise.Proofs.Expr.Plain

/-!
# Compilation and trees

A source compiles if and only if its tokens derive a body, and the program is the code of the body.
The code of a derived body is always valid: its expressions were read from tokens, and its jumps
stay within it.
-/

namespace Tortoise

def Simple.Plain : Simple → Prop
  | assign name value => name.isIdentifier = true ∧ value.Plain
  | increment name => name.isIdentifier = true
  | decrement name => name.isIdentifier = true
  | act _ argument => argument.Plain

def Opening.Plain : Opening → Prop
  | ifThen cond => cond.Plain
  | loop _ cond => cond.Plain
  | repeatLoop count => count.Plain

def Body.Plain : Body → Prop
  | done => True
  | simple statement next => statement.Plain ∧ next.Plain
  | block opening inner next => opening.Plain ∧ inner.Plain ∧ next.Plain
  | ifElse cond yes no next => cond.Plain ∧ yes.Plain ∧ no.Plain ∧ next.Plain

theorem Expr.Plain.test {cond : Expr} (h : cond.Plain) (negated : Bool) :
    (Opening.test negated cond).Plain := by
  cases negated with
  | false => exact h
  | true => exact ⟨rfl, h⟩

section Derived

variable {bound : Nat} {tokens : List Token}

theorem Token.Reads.plain {t : Token} {e : Expr} (h : t.Reads bound e) : e.Plain :=
  Expr.plain_of_parse h.2

theorem Token.reads_numeral {digits : Text} (pos : Position) (hsize : digits.size ≤ bound)
    (hdigits : digits.isNumeral = true) (hvalue : digits.numeralValue ≤ 0x7fffffffffffffff) :
    Token.Reads bound ⟨.expression, digits, pos⟩ (.literal (Int64.ofNat digits.numeralValue)) :=
  ⟨rfl, Expr.parse_numeral hsize hdigits hvalue⟩

theorem Token.reads_identifier {name : Text} (pos : Position) (hsize : name.size ≤ bound)
    (hname : name.isIdentifier = true) :
    Token.Reads bound ⟨.expression, name, pos⟩ (.var name) :=
  ⟨rfl, Expr.parse_identifier hsize hname⟩

theorem Simple.Derives.plain {statement : Simple} (h : statement.Derives bound tokens) :
    statement.Plain := by
  cases h with
  | assign hv _ he => exact ⟨hv.plain, he.plain⟩
  | equation he => exact he.plain.2
  | namedColor => trivial
  | color _ _ _ he => exact he.plain
  | thickness _ _ _ he => exact he.plain
  | startStroke => trivial
  | stopStroke => trivial
  | move _ he => exact he.plain
  | moveForward _ _ he => exact he.plain
  | moveBackward _ _ he => exact ⟨rfl, he.plain⟩
  | turnLeft => trivial
  | turnRight => trivial
  | turn _ he => exact he.plain
  | increment _ hv => exact hv.plain
  | decrement _ hv => exact hv.plain

theorem Opening.Derives.plain {opening : Opening} (h : opening.Derives bound tokens) :
    opening.Plain := by
  cases h with
  | ifThen _ he => exact he.plain
  | whileLoop _ he => exact he.plain
  | untilLoop _ he => exact he.plain
  | repeatLoop _ he _ => exact he.plain

theorem Body.Derives.plain {body : Body} (h : body.Derives bound tokens) : body.Plain := by
  induction h with
  | done => trivial
  | simple hstatement _ ih => exact ⟨hstatement.plain, ih⟩
  | block hopening _ _ _ ihi ihn => exact ⟨hopening.plain, ihi, ihn⟩
  | ifElse hopening _ _ _ _ _ ihy ihn ihx => exact ⟨hopening.plain, ihy, ihn, ihx⟩

end Derived

namespace Instruction

variable {size : Nat}

theorem flaw?_assign {name : Text} {e : Expr} (hname : name.isEmpty = false)
    (he : e.isAbsent = false) : (assign name e).flaw? size = none := by
  simp [flaw?, assign, hname, he]

theorem flaw?_jump {target : Nat} (h : target ≤ size) : (jump target).flaw? size = none := by
  simp [flaw?, jump, inRange, h]

theorem flaw?_branch {cond : Expr} {yes no : Nat} (hcond : cond.isAbsent = false)
    (hyes : yes ≤ size) (hno : no ≤ size) : (branch cond yes no).flaw? size = none := by
  simp [flaw?, branch, inRange, hcond, hyes, hno]

theorem flaw?_act {action : Action} {e : Expr} (he : e.isAbsent = false) :
    (act action e).flaw? size = none := by
  simp [flaw?, act, Action.ofCode?_code, he]

theorem flaw?_unset {name : Text} (hname : name.isEmpty = false) :
    (unset name).flaw? size = none := by
  simp [flaw?, unset, hname]

end Instruction

theorem Simple.Plain.flaw? {statement : Simple} (h : statement.Plain) (size : Nat) :
    statement.instruction.flaw? size = none := by
  cases statement with
  | assign name value =>
      exact Instruction.flaw?_assign (Text.ne_nil_of_isIdentifier h.1) h.2.isAbsent_eq_false
  | increment name => exact Instruction.flaw?_assign (Text.ne_nil_of_isIdentifier h) rfl
  | decrement name => exact Instruction.flaw?_assign (Text.ne_nil_of_isIdentifier h) rfl
  | act action argument => exact Instruction.flaw?_act h.isAbsent_eq_false

theorem Opening.isEmpty_counter (depth : Nat) : (counter depth).isEmpty = false := rfl

theorem Opening.Plain.flaw? {opening : Opening} (h : opening.Plain) {b depth size : Nat}
    {inner : List Instruction} (hinner : ∀ ins ∈ inner, ins.flaw? size = none)
    (hsize : b + (opening.lead + inner.length + opening.trail) ≤ size) :
    ∀ ins ∈ opening.wrap b depth inner, ins.flaw? size = none := by
  cases opening with
  | ifThen cond =>
      simp only [lead, trail] at hsize
      intro ins hins
      rcases List.mem_cons.1 hins with rfl | hins
      · exact Instruction.flaw?_branch h.isAbsent_eq_false (by omega) (by omega)
      · exact hinner ins hins
  | loop negated cond =>
      simp only [lead, trail] at hsize
      simp only [wrap, List.mem_cons, List.mem_append, List.not_mem_nil, or_false]
      rintro ins (rfl | hins | rfl)
      · exact Instruction.flaw?_branch (Expr.Plain.test h negated).isAbsent_eq_false (by omega)
          (by omega)
      · exact hinner ins hins
      · exact Instruction.flaw?_jump (by omega)
  | repeatLoop count =>
      simp only [lead, trail] at hsize
      simp only [wrap, List.mem_cons, List.mem_append, List.not_mem_nil, or_false]
      rintro ins (rfl | rfl | hins | rfl | rfl | rfl)
      · exact Instruction.flaw?_assign (isEmpty_counter depth) h.isAbsent_eq_false
      · exact Instruction.flaw?_branch rfl (by omega) (by omega)
      · exact hinner ins hins
      · exact Instruction.flaw?_assign (isEmpty_counter depth) rfl
      · exact Instruction.flaw?_jump (by omega)
      · exact Instruction.flaw?_unset (isEmpty_counter depth)

theorem Body.Plain.flaw? {body : Body} (h : body.Plain) {b depth size : Nat}
    (hsize : b + body.size ≤ size) : ∀ ins ∈ body.code b depth, ins.flaw? size = none := by
  induction body generalizing b depth with
  | done => simp [code]
  | simple statement next ih =>
      simp only [Body.size] at hsize
      intro ins hins
      rcases List.mem_cons.1 hins with rfl | hins
      · exact h.1.flaw? size
      · exact ih h.2 (by omega) ins hins
  | block opening inner next ihi ihn =>
      simp only [Body.size] at hsize
      intro ins hins
      rcases List.mem_append.1 hins with hins | hins
      · refine h.1.flaw? (ihi h.2.1 (by omega)) ?_ ins hins
        rw [length_code]
        omega
      · exact ihn h.2.2 (by omega) ins hins
  | ifElse cond yes no next ihy ihn ihx =>
      simp only [Body.size] at hsize
      simp only [code, List.mem_cons, List.mem_append]
      rintro ins (rfl | hins | rfl | hins | hins)
      · exact Instruction.flaw?_branch h.1.isAbsent_eq_false (by omega) (by omega)
      · exact ihy h.2.1 (by omega) ins hins
      · exact Instruction.flaw?_jump (by omega)
      · exact ihn h.2.2.1 (by omega) ins hins
      · exact ihx h.2.2.2 (by omega) ins hins

def Body.program (body : Body) : Program := (body.code 0 0).toArray

@[simp] theorem Body.size_program (body : Body) : body.program.size = body.size := by
  simp [program]

theorem Body.Plain.invalid? {body : Body} (h : body.Plain) : body.program.invalid? = none := by
  unfold Program.invalid?
  rw [List.findSome?_eq_none_iff]
  rintro ⟨ins, index⟩ hins
  have hmem : ins ∈ body.code 0 0 := List.fst_mem_of_mem_zipIdx hins
  rw [Option.map_eq_none_iff, Body.size_program]
  exact h.flaw? (by omega) ins hmem

open Session

section Compilation

variable {bound : Nat} {source : Text}

theorem finish_eq_ok_iff {s : Session} {eof : Token} {program : Program} :
    s.finish eof = .ok program ↔
      s.state = .idle ∧ s.opened = [] ∧ s.code.code = program ∧ s.code.code.invalid? = none := by
  unfold finish Buffer.program
  by_cases hstate : s.state = .idle
  · cases hopened : s.opened with
    | cons keyword rest => simp [hstate]
    | nil =>
        cases hinvalid : s.code.code.invalid? with
        | some e => simp [hstate]
        | none => simp [hstate]
  · simp [hstate]

theorem compileFeed_eq_ok_iff {feed : Feed} {tokens : List Token}
    {last : Except ScanError Token} (htokens : feed.tokens = (tokens, last))
    {program : Program} :
    compileFeed bound feed = .ok program ↔
      ∃ s eof, Leads bound {} tokens s ∧ last = .ok eof ∧ s.finish eof = .ok program := by
  unfold compileFeed Leads
  simp only [htokens]
  cases hfold : tokens.foldlM (handle bound) {} with
  | error e => simp
  | ok s =>
      cases last with
      | error e => simp
      | ok eof => simp

theorem compile_eq_ok_iff {program : Program} :
    compile bound source = .ok program ↔
      ∃ tokens eof s, (Feed.ofText source none).tokens = (tokens, .ok eof) ∧
        Leads bound {} tokens s ∧ s.finish eof = .ok program := by
  have hfeed : compile bound source = .ok program ↔
      compileFeed bound (Feed.ofText source none) = .ok program := by
    unfold compile
    cases compileFeed bound (Feed.ofText source none) <;> simp
  rw [hfeed]
  constructor
  · intro h
    obtain ⟨s, eof, hleads, hlast, hfinish⟩ := (compileFeed_eq_ok_iff rfl).1 h
    exact ⟨_, eof, s, Prod.ext rfl hlast, hleads, hfinish⟩
  · rintro ⟨tokens, eof, s, htokens, hleads, hfinish⟩
    exact (compileFeed_eq_ok_iff htokens).2 ⟨s, eof, hleads, rfl, hfinish⟩

theorem exists_body_of_compile {program : Program} (h : compile bound source = .ok program) :
    ∃ tokens eof body, (Feed.ofText source none).tokens = (tokens, .ok eof) ∧
      Body.Derives bound tokens body ∧ program = body.program := by
  obtain ⟨tokens, eof, s, htokens, hleads, hfinish⟩ := compile_eq_ok_iff.1 h
  obtain ⟨hstate, hopened, rfl, _⟩ := finish_eq_ok_iff.1 hfinish
  obtain ⟨body, hbody⟩ := exists_derives_of_leads hleads hstate hopened
  refine ⟨tokens, eof, body, htokens, hbody, ?_⟩
  rw [hleads.unique (hbody.leads rfl)]
  exact Array.empty_append

theorem compile_of_derives {tokens : List Token} {eof : Token} {body : Body}
    (htokens : (Feed.ofText source none).tokens = (tokens, .ok eof))
    (hbody : body.Derives bound tokens) : compile bound source = .ok body.program := by
  have hcode : ((Session.append {} (body.code 0 0)).code.code : Program) = body.program :=
    Array.empty_append
  have hfinish : (Session.append {} (body.code 0 0)).finish eof = .ok body.program := by
    refine finish_eq_ok_iff.2 ⟨rfl, rfl, hcode, ?_⟩
    rw [hcode]
    exact hbody.plain.invalid?
  exact compile_eq_ok_iff.2 ⟨tokens, eof, _, htokens, hbody.leads rfl, hfinish⟩

/-- Whatever tree the tokens of a compiled source derive, its code is the program. -/
theorem exists_tokens_of_compile {program : Program} (h : compile bound source = .ok program) :
    ∃ tokens eof, (Feed.ofText source none).tokens = (tokens, .ok eof) ∧
      (∃ body, Body.Derives bound tokens body) ∧
      ∀ body, Body.Derives bound tokens body → body.program = program := by
  obtain ⟨tokens, eof, body, htokens, hbody, _⟩ := exists_body_of_compile h
  refine ⟨tokens, eof, htokens, ⟨body, hbody⟩, fun tree htree => ?_⟩
  rw [compile_of_derives htokens htree] at h
  exact Except.ok.inj h

end Compilation

/-- Compilation token by token, with places resolved long after they were emitted, is the recursive
compiler of trees: a source compiles if and only if its tokens derive a body, and then to the code
of the body. -/
theorem compile_eq_tree_compiler (bound : Nat) (source : Text) (program : Program) :
    compile bound source = .ok program ↔
      ∃ tokens eof body, (Feed.ofText source none).tokens = (tokens, .ok eof) ∧
        Body.Derives bound tokens body ∧ program = (body.code 0 0).toArray := by
  constructor
  · exact exists_body_of_compile
  · rintro ⟨tokens, eof, body, htokens, hbody, rfl⟩
    exact compile_of_derives htokens hbody

end Tortoise
