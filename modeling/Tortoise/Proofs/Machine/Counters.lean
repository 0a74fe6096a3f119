import Tortoise.Proofs.Machine.Advance

/-!
# Counters are exactly scoped

In every state that steps and runs of a compiled program lead to, the hidden variables are the
counters of the repeat blocks around the instruction at hand. So a counter has a value whenever it
is read, no two blocks that are open share one, and none is left when the program has halted.

From inside an action the host may step the machine, but a `Host` does so only once. What several
steps from inside one action would lead to is not among the states.
-/

namespace Tortoise

namespace Machine

variable {σ : Type}

/-- The states that steps and runs lead to from a start without hidden variables. A run is cut short
by its fuel, so that all the states in the course of a run are among them. From inside a single step
the host must not start a run, which would execute the program to its end in the middle of it. -/
inductive Reachable (program : Program) (h : Host σ) (s₀ : σ) : σ → Machine → Prop
  | start (limit : Int) (timeout : Duration) {env : Env} : env.visible = env.entries →
      Reachable program h s₀ s₀ { Machine.new program limit timeout with env }
  | step {s : σ} {m : Machine} (fuel depth : Nat) : Reachable program h s₀ s m → h.NeverRuns →
      Reachable program h s₀ (m.step h fuel depth s).1 (m.step h fuel depth s).2.1
  | run {s : σ} {m : Machine} (fuel depth : Nat) : Reachable program h s₀ s m →
      Reachable program h s₀ (m.run h fuel depth s).1 (m.run h fuel depth s).2.1

structure Tracks (body : Body) (m : Machine) : Prop where
  program_eq : m.program = body.program
  valid : m.invalid = none
  hidden : ∀ name, Env.isHidden name = true →
    (m.env.contains name = true ↔ InScope (body.spans 0 0) m.pc name)

section Tracking

variable {body : Body} {h : Host σ} {I : σ → Prop} {s : σ} {m : Machine}

theorem isHidden_of_inScope {pc : Nat} {name : Text} (hname : InScope (body.spans 0 0) pc name) :
    Env.isHidden name = true := by
  obtain ⟨r, hr, _, rfl⟩ := hname
  obtain ⟨k, _, hcounter⟩ := (Body.within_of_mem_spans hr).counts
  rw [hcounter]
  exact Opening.isHidden_counter k

theorem Tracks.ready (hplain : body.Plain) (hm : m.Tracks body)
    (hguarded : m.running = true ∨ h.NeverRuns) : m.Ready h := by
  refine ⟨hm.valid, hguarded, fun ins hins => ?_⟩
  rw [hm.program_eq] at hins
  apply ((hplain.respects 0 0).program hins).discreet
  intro name hname
  exact (hm.hidden name (isHidden_of_inScope hname)).2 hname

theorem Tracks.advance (hplain : body.Plain) (hm : m.Tracks body) {m' : Machine}
    (hadvances : m.Advances m') : m'.Tracks body := by
  refine ⟨hadvances.program_eq.trans hm.program_eq, hadvances.invalid_eq.trans hm.valid, ?_⟩
  intro name hname
  rcases hadvances.moves with ⟨hpc, henv⟩ | ⟨ins, hins, hpasses, htransforms⟩
  · rw [hpc, henv]
    exact hm.hidden name hname
  · rw [hm.program_eq] at hins
    have hrespects := (hplain.respects 0 0).program hins
    rw [htransforms.contains_iff, hrespects.scopes _ hpasses name hname, hm.hidden name hname]

theorem step_tracks (hplain : body.Plain) (hI : h.Preserves I) (fuel depth : Nat)
    (hguarded : m.running = true ∨ h.NeverRuns) (htracks : m.Tracks body) (hm : Discreet I s m) :
    ∃ s' m' outcome, stepWith h.note (perform h fuel depth) s m = (s', m', outcome) ∧
      Discreet I s' m' ∧ m'.Tracks body ∧ m'.running = m.running := by
  obtain ⟨s', m', outcome, hstep, hm', hadvances⟩ := stepWith_advances hI
    (perform_idle hI fuel depth) (htracks.ready hplain hguarded) hm
  exact ⟨s', m', outcome, hstep, hm', htracks.advance hplain hadvances, hadvances.running_eq⟩

theorem runLoop_tracks (hplain : body.Plain) (hI : h.Preserves I) (fuel depth budget : Nat)
    (hrunning : m.running = true) (htracks : m.Tracks body) (hm : Discreet I s m) :
    ∃ s' m' outcome, runLoop h (perform h fuel depth) budget s m = (s', m', outcome) ∧
      Discreet I s' m' ∧ m'.Tracks body := by
  induction budget generalizing s m with
  | zero => exact ⟨s, m, none, rfl, hm, htracks⟩
  | succ budget ih =>
      obtain ⟨s₁, m₁, outcome, hstep, hm₁, htracks₁, hrunning₁⟩ :=
        step_tracks hplain hI fuel depth (Or.inl hrunning) htracks hm
      cases hstop : h.stop s with
      | some cause =>
          simp only [runLoop, hstop]
          exact ⟨s, m, _, rfl, hm, htracks⟩
      | none =>
          simp only [runLoop, hstop, hstep]
          cases outcome with
          | error e => exact ⟨s₁, m₁, _, rfl, hm₁, htracks₁⟩
          | ok going =>
              cases going with
              | false => exact ⟨s₁, m₁, _, rfl, hm₁, htracks₁⟩
              | true => exact ih (hrunning₁.trans hrunning) htracks₁ hm₁

theorem run_tracks (hplain : body.Plain) (hI : h.Preserves I) (fuel depth : Nat)
    (htracks : m.Tracks body) (hm : Discreet I s m) :
    Discreet I (m.run h fuel depth s).1 (m.run h fuel depth s).2.1 ∧
      (m.run h fuel depth s).2.1.Tracks body := by
  cases hrunning : m.running with
  | true =>
      simp only [run, runWith, hrunning, if_true]
      exact ⟨hm, htracks⟩
  | false =>
      obtain ⟨s', m', outcome, hloop, hm', htracks'⟩ := runLoop_tracks
        (m := { m with running := true }) hplain hI fuel depth fuel rfl
        ⟨htracks.program_eq, htracks.valid, htracks.hidden⟩ ⟨hm.host, hm.diagnostics⟩
      simp only [run, runWith, hrunning, hloop]
      exact ⟨⟨hm'.host, hm'.diagnostics⟩,
        ⟨htracks'.program_eq, htracks'.valid, htracks'.hidden⟩⟩

theorem start_tracks (hplain : body.Plain) (limit : Int) (timeout : Duration) {env : Env}
    (henv : env.visible = env.entries) :
    Tracks body { Machine.new body.program limit timeout with env } := by
  refine ⟨rfl, ?_, fun name hname => iff_of_false ?_ ?_⟩
  · simp [Machine.new, hplain.invalid?]
  · simp [Env.visible_eq_entries_iff.1 henv name hname]
  · exact body.not_inScope (Or.inl (Nat.le_refl 0)) name

theorem Reachable.tracks (hplain : body.Plain) (hI : h.Preserves I) {s₀ : σ} (hs₀ : I s₀)
    (hm : Reachable body.program h s₀ s m) : Discreet I s m ∧ m.Tracks body := by
  induction hm with
  | start limit timeout henv =>
      refine ⟨⟨hs₀, ?_⟩, start_tracks hplain limit timeout henv⟩
      simp [Machine.new]
  | step fuel depth _ hnever ih =>
      obtain ⟨hdiscreet, htracks⟩ := ih
      obtain ⟨s', m', outcome, hstep, hdiscreet', htracks', _⟩ :=
        step_tracks hplain hI fuel depth (Or.inr hnever) htracks hdiscreet
      simp only [Machine.step, hstep]
      exact ⟨hdiscreet', htracks'⟩
  | run fuel depth _ ih =>
      obtain ⟨hdiscreet, htracks⟩ := ih
      exact run_tracks hplain hI fuel depth htracks hdiscreet

end Tracking

/-- The hidden variables are the counters of the blocks around the instruction at hand, which are
different; no diagnostic names one, and at the end there is none. Beside its detail a diagnostic
quotes the instruction at hand, which may be one that counts. -/
structure Scoped (spans : List Span) (m : Machine) : Prop where
  hidden_iff : ∀ name, (m.env.contains name = true ∧ Env.isHidden name = true) ↔
    ∃ r ∈ spans, r.Covers m.pc ∧ r.counter = name
  distinct : ((spans.filter fun r => r.Covers m.pc).map (·.counter)).Nodup
  unnamed : ∀ d ∈ m.diagnostics, Rune.char '#' ∉ d.detail
  none_left : m.isHalted = true → m.env.size = m.env.visible.length

theorem Tracks.scoped {σ : Type} {body : Body} {I : σ → Prop} {s : σ} {m : Machine}
    (hm : m.Tracks body) (hdiscreet : Discreet I s m) : m.Scoped (body.spans 0 0) := by
  refine ⟨?_, body.nodup_countersAt 0 0 m.pc, hdiscreet.diagnostics, ?_⟩
  · intro name
    constructor
    · rintro ⟨hcontains, hname⟩
      exact (hm.hidden name hname).1 hcontains
    · intro hscope
      have hname := isHidden_of_inScope hscope
      exact ⟨(hm.hidden name hname).2 hscope, hname⟩
  · intro hhalted
    have hend : 0 + body.size ≤ m.pc := by
      simpa [isHalted, hm.program_eq] using hhalted
    have hvisible : m.env.visible = m.env.entries := by
      refine Env.visible_eq_entries_iff.2 fun name hname => ?_
      rw [Bool.eq_false_iff]
      intro hcontains
      exact body.not_inScope (Or.inr hend) name ((hm.hidden name hname).1 hcontains)
    rw [hvisible, Env.size]

end Machine

/-- Repeat counters are exactly scoped. For each tree that the tokens of a compiled source derive,
its repeat blocks stand in the program with their own instructions, which are the only ones to store
or forget a hidden variable; and every reachable state has exactly the counters in scope. Not even
the diagnostics beyond the recorded ones name a counter. -/
theorem counters_exactly_scoped {bound : Nat} {source : Text} {program : Program}
    (hcompile : compile bound source = .ok program) :
    ∃ tokens eof, (Feed.ofText source none).tokens = (tokens, .ok eof) ∧
      (∃ body, Body.Derives bound tokens body) ∧
      ∀ body, Body.Derives bound tokens body →
        (∀ r ∈ body.spans 0 0, r.Stands program) ∧
        (∀ i ins name, program[i]? = some ins → Env.isHidden name = true → ins.Writes name →
          ∃ r ∈ body.spans 0 0, r.counter = name ∧ r.Owns i) ∧
        (∀ {σ : Type} (h : Host σ) (s₀ s : σ) (m : Machine),
          Machine.Reachable program h s₀ s m → m.Scoped (body.spans 0 0)) ∧
        ∀ {σ : Type} (h : Host σ) (s₀ s : σ) (log : List Event) (m : Machine),
          Machine.Reachable program h.recorded (s₀, []) (s, log) m →
            ∀ kind detail, .diagnostic kind detail ∈ log → Rune.char '#' ∉ detail := by
  obtain ⟨tokens, eof, htokens, hexists, hprogram⟩ := exists_tokens_of_compile hcompile
  refine ⟨tokens, eof, htokens, hexists, ?_⟩
  intro body hbody
  obtain rfl := hprogram body hbody
  have hplain := hbody.plain
  refine ⟨?_, ?_, ?_, ?_⟩
  · intro r hr
    exact Body.stands_of_codeAt (codeAt_program body) hr
  · intro i ins name hins hname hwrites
    exact ((hplain.respects 0 0).program hins).owned name hname hwrites
  · intro σ h s₀ s m hm
    obtain ⟨hdiscreet, htracks⟩ := hm.tracks hplain h.preserves_true trivial
    exact htracks.scoped hdiscreet
  · intro σ h s₀ s log m hm kind detail hevent
    obtain ⟨hdiscreet, _⟩ := hm.tracks hplain h.preserves_clean_log (by simp)
    exact hdiscreet.host _ hevent

/-- Inside the inner of two blocks both counters are in scope, and a diagnostic names neither. -/
theorem nested_repeats_scoped :
    ∃ program, compile 256 (Text.ofString "repeat 2 times repeat 3 times move X end end") =
        .ok program ∧
      let run (fuel : Nat) := ({ Machine.new program 0 .zero with env := {} }.run
        { act := fun s _ _ => (s, .proceed) } fuel 0 ()).2.1
      (∀ fuel, (run fuel).Scoped
        [⟨Opening.counter 0, 0, 10⟩, ⟨Opening.counter 1, 2, 7⟩]) ∧
      (run 5).pc = 5 ∧ (run 5).diagnostics.size = 1 ∧
      (run 5).env.contains (Opening.counter 0) = true ∧
      (run 5).env.contains (Opening.counter 1) = true := by
  let body : Body := .block (.repeatLoop (.literal 2)) (.block (.repeatLoop (.literal 3))
    (.simple (.act .move (.var (Text.ofString "X"))) .done) .done) .done
  let tokens : List Token := [⟨.keyword, Text.ofString "repeat", ⟨1, 1⟩⟩,
    ⟨.expression, Text.ofString "2", ⟨1, 8⟩⟩, ⟨.keyword, Text.ofString "times", ⟨1, 10⟩⟩,
    ⟨.keyword, Text.ofString "repeat", ⟨1, 16⟩⟩, ⟨.expression, Text.ofString "3", ⟨1, 23⟩⟩,
    ⟨.keyword, Text.ofString "times", ⟨1, 25⟩⟩, ⟨.keyword, Text.ofString "move", ⟨1, 31⟩⟩,
    ⟨.expression, Text.ofString "X", ⟨1, 36⟩⟩, ⟨.keyword, Text.ofString "end", ⟨1, 38⟩⟩,
    ⟨.keyword, Text.ofString "end", ⟨1, 42⟩⟩]
  have htokens : (Feed.ofText
      (Text.ofString "repeat 2 times repeat 3 times move X end end") none).tokens =
      (tokens, .ok ⟨.eof, [], ⟨1, 45⟩⟩) := rfl
  have htwo : Token.Reads 256 ⟨.expression, Text.ofString "2", ⟨1, 8⟩⟩ (.literal 2) :=
    Token.reads_numeral _ (by decide) (by decide) (by decide)
  have hthree : Token.Reads 256 ⟨.expression, Text.ofString "3", ⟨1, 23⟩⟩ (.literal 3) :=
    Token.reads_numeral _ (by decide) (by decide) (by decide)
  have hX : Token.Reads 256 ⟨.expression, Text.ofString "X", ⟨1, 36⟩⟩ (.var (Text.ofString "X")) :=
    Token.reads_identifier _ (by decide) (by decide)
  have hbody : body.Derives 256 tokens :=
    .block (.repeatLoop rfl htwo rfl)
      (.block (.repeatLoop rfl hthree rfl) (.simple (.move rfl hX) .done) rfl .done) rfl .done
  have hcompile := compile_of_derives htokens hbody
  obtain ⟨tokens', eof, htokens', _, hall⟩ := counters_exactly_scoped hcompile
  obtain ⟨rfl, _⟩ := Prod.mk.inj (htokens.symm.trans htokens')
  obtain ⟨_, _, hscoped, _⟩ := hall body hbody
  have hempty : Env.visible {} = Env.entries {} := rfl
  have hrun (fuel : Nat) := hscoped { act := fun s _ _ => (s, .proceed) } () _ _
    (.run fuel 0 (.start 0 .zero hempty))
  have hpc : ({ Machine.new body.program 0 .zero with env := {} }.run
      ({ act := fun s _ _ => (s, .proceed) } : Host Unit) 5 0 ()).2.1.pc = 5 := rfl
  refine ⟨body.program, hcompile, hrun, hpc, rfl, ?_, ?_⟩
  · exact ((hrun 5).hidden_iff _).2 ⟨_, List.mem_cons_self, by rw [hpc]; decide, rfl⟩ |>.1
  · exact ((hrun 5).hidden_iff _).2
      ⟨_, List.mem_cons_of_mem _ List.mem_cons_self, by rw [hpc]; decide, rfl⟩ |>.1

end Tortoise
