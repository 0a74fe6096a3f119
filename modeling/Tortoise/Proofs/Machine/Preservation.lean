import Tortoise.Proofs.Machine.Simulation

/-!
# Compiled programs mean what their trees mean

A run of the compiled program halts if and only if the execution of the tree terminates, with the
same actions, variables and diagnostics. If neither ends, each has done what the other has done so
far, sooner or later.
-/

namespace Tortoise

/-- What runs of all lengths do is what executions with all clocks do, and the clocks differ only in
how far an execution gets. -/
structure Realizes {σ : Type}
    (run : Nat → (σ × List Event) × Machine × Option (Except RunError Unit))
    (execution : Nat → Trace) : Prop where
  coherent : ∀ m n, m ≤ n → (execution m).Extends (execution n)
  never_fails : ∀ fuel e, (run fuel).2.2 ≠ some (.error e)
  halts_iff : (∃ fuel, (run fuel).2.2 = some (.ok ())) ↔
    ∃ clock env, (execution clock).final = some env
  same_events : ∀ fuel clock env, (run fuel).2.2 = some (.ok ()) →
    (execution clock).final = some env → (run fuel).1.2 = (execution clock).events
  same_variables : ∀ fuel clock env, (run fuel).2.2 = some (.ok ()) →
    (execution clock).final = some env → (run fuel).2.1.env.visible = env.entries
  diagnostics_told : ∀ fuel, (run fuel).2.1.Tells (run fuel).1.2
  run_prefix : ∀ fuel, ∃ clock, (run fuel).1.2 <+: (execution clock).events
  execution_prefix : ∀ clock, ∃ fuel, (execution clock).events <+: (run fuel).1.2

namespace Snapshot

variable {program : Program} {x : Snapshot}

theorem go_eq_of_halted {m n : Nat} (hm : program.size ≤ (x.go program m).pc) (hle : m ≤ n) :
    x.go program n = x.go program m := by
  obtain ⟨k, rfl⟩ := Nat.exists_eq_add_of_le hle
  rw [go_add, go_of_halted hm]

theorem go_unique {m n : Nat} (hm : program.size ≤ (x.go program m).pc)
    (hn : program.size ≤ (x.go program n).pc) : x.go program m = x.go program n := by
  rcases Nat.le_total m n with hle | hle
  · exact (go_eq_of_halted hm hle).symm
  · exact go_eq_of_halted hn hle

theorem log_prefix_of_le {m n : Nat} (hle : m ≤ n) :
    (x.go program m).log <+: (x.go program n).log := by
  obtain ⟨k, rfl⟩ := Nat.exists_eq_add_of_le hle
  rw [go_add]
  exact log_prefix_go k

end Snapshot

section Ends

variable {program : Program} {x : Snapshot} {execution : Nat → Trace}
  (hfollows : ∀ clock, x.Follows program clock (execution clock) program.size 0)
include hfollows

theorem exists_go_halted_iff :
    (∃ n, n ≠ 0 ∧ program.size ≤ (x.go program n).pc) ↔
      ∃ clock env, (execution clock).final = some env := by
  constructor
  · rintro ⟨n, _, hend⟩
    -- With a clock beyond the steps made, an execution that goes on would make more of them.
    obtain ⟨k, y, rfl, _, _, hnone⟩ := hfollows (n + 1)
    cases hfinal : (execution (n + 1)).final with
    | some env => exact ⟨n + 1, env, hfinal⟩
    | none =>
        obtain ⟨hk, hpc⟩ := hnone hfinal
        rw [Snapshot.go_eq_of_halted hend (by omega)] at hpc
        omega
  · rintro ⟨clock, env, hfinal⟩
    obtain ⟨n, y, rfl, _, hsome, _⟩ := hfollows clock
    obtain ⟨hpc, _, _⟩ := hsome env hfinal
    have hstay := Snapshot.go_eq_of_halted (Nat.le_of_eq hpc.symm) (Nat.le_succ n)
    refine ⟨n + 1, by omega, ?_⟩
    exact Nat.le_of_eq (hpc.symm.trans (congrArg Snapshot.pc hstay.symm))

theorem go_of_final (hlog : x.log = []) {n clock : Nat} {env : Env}
    (hend : program.size ≤ (x.go program n).pc) (hfinal : (execution clock).final = some env) :
    (x.go program n).log = (execution clock).events ∧ (x.go program n).Sees env := by
  obtain ⟨k, y, rfl, hevents, hsome, _⟩ := hfollows clock
  obtain ⟨hpc, hsees, _⟩ := hsome env hfinal
  rw [Snapshot.go_unique hend (Nat.le_of_eq hpc.symm)]
  exact ⟨by rw [hevents, hlog, List.nil_append], hsees⟩

theorem go_prefix_execution (hlog : x.log = []) (n : Nat) :
    (x.go program n).log <+: (execution n).events := by
  obtain ⟨k, y, rfl, hevents, hsome, hnone⟩ := hfollows n
  rw [hlog, List.nil_append] at hevents
  rw [← hevents]
  cases hfinal : (execution n).final with
  | none => exact Snapshot.log_prefix_of_le (hnone hfinal).1
  | some env =>
      obtain ⟨hpc, _, _⟩ := hsome env hfinal
      rcases Nat.le_total n k with hle | hle
      · exact Snapshot.log_prefix_of_le hle
      · have hstay := Snapshot.go_eq_of_halted (Nat.le_of_eq hpc.symm) hle
        exact ⟨[], by rw [List.append_nil, hstay]⟩

theorem realizes_of_follows {σ : Type} (hlog : x.log = [])
    (hcoherent : ∀ m n, m ≤ n → (execution m).Extends (execution n))
    {run : Nat → (σ × List Event) × Machine × Option (Except RunError Unit)}
    (hrun : ∀ fuel, Machine.Shows program (run fuel).1.2 (run fuel).2.1 (x.go program fuel) ∧
      (run fuel).2.2 =
        if fuel ≠ 0 ∧ (run fuel).2.1.isHalted = true then some (.ok ()) else none) :
    Realizes run execution := by
  have hhalted (fuel : Nat) : (run fuel).2.2 = some (.ok ()) ↔
      fuel ≠ 0 ∧ program.size ≤ (x.go program fuel).pc := by
    rw [(hrun fuel).2, Machine.isHalted_iff (hrun fuel).1]
    by_cases hend : fuel ≠ 0 ∧ program.size ≤ (x.go program fuel).pc
    · simp [hend]
    · simp [hend]
  have hlogs (fuel : Nat) : (run fuel).1.2 = (x.go program fuel).log := (hrun fuel).1.log_eq
  refine ⟨hcoherent, ?_, ?_, ?_, ?_, ?_, ?_, ?_⟩
  · intro fuel e
    rw [(hrun fuel).2]
    split <;> simp
  · simp only [hhalted]
    exact exists_go_halted_iff hfollows
  · intro fuel clock env hok hfinal
    rw [hlogs]
    exact (go_of_final hfollows hlog ((hhalted fuel).1 hok).2 hfinal).1
  · intro fuel clock env hok hfinal
    rw [(hrun fuel).1.env_eq]
    exact (go_of_final hfollows hlog ((hhalted fuel).1 hok).2 hfinal).2
  · intro fuel
    rw [hlogs]
    exact (hrun fuel).1.tells
  · intro fuel
    rw [hlogs]
    exact ⟨fuel, go_prefix_execution hfollows hlog fuel⟩
  · intro clock
    obtain ⟨n, y, rfl, hevents, _, _⟩ := hfollows clock
    rw [hlog, List.nil_append] at hevents
    exact ⟨n, [], by rw [List.append_nil, hlogs, hevents]⟩

end Ends

/-- The machine with a body as its program realizes the body. -/
theorem Body.Plain.realizes {body : Body} (hplain : body.Plain) {σ : Type} {h : Host σ}
    (hq : h.Quiet) (s : σ) {env : Env} (henv : env.visible = env.entries) {limit : Int}
    (hlimit : limit ≤ 0) (timeout : Duration) (depth : Nat) :
    Realizes
      (fun fuel =>
        { Machine.new body.program limit timeout with env }.run h.recorded fuel depth (s, []))
      (fun clock => body.run clock env) := by
  let x : Snapshot := ⟨0, env, []⟩
  have hshows : Machine.Shows body.program []
      { Machine.new body.program limit timeout with env } x := by
    refine ⟨rfl, ?_, ?_, rfl, rfl, rfl, ⟨rfl, rfl⟩⟩
    · simp [Machine.new, hplain.invalid?]
    · exact Int.toNat_of_nonpos hlimit
  have hfollows (clock : Nat) :
      x.Follows body.program clock (body.run clock env) body.program.size 0 := by
    have hbody := Snapshot.follows_body hplain clock (codeAt_program body) (x := x) rfl henv
    rwa [Nat.zero_add, ← Body.size_program] at hbody
  refine realizes_of_follows hfollows rfl (fun m n hle => body.run_extends hle env) fun fuel => ?_
  obtain ⟨s', m', hrun, hafter⟩ := Machine.run_shows hq.recorded h.logs_recorded fuel depth
    (s := (s, [])) rfl hshows
  rw [hrun]
  exact ⟨hafter, rfl⟩

/-- Compiling preserves meaning. The tokens of a source that compiles derive a tree, and for each
tree they derive, a machine without a limit and with a host that is quiet does with the program what
the tree does. The log of the host is kept in front of it and changes nothing. -/
theorem compile_preserves_meaning {bound : Nat} {source : Text} {program : Program}
    (hcompile : compile bound source = .ok program) :
    ∃ tokens eof, (Feed.ofText source none).tokens = (tokens, .ok eof) ∧
      (∃ body, Body.Derives bound tokens body) ∧
      ∀ body, Body.Derives bound tokens body →
        ∀ {σ : Type} (h : Host σ), h.Quiet → ∀ (s : σ) (env : Env), env.visible = env.entries →
          ∀ (limit : Int) (timeout : Duration) (depth : Nat), limit ≤ 0 →
            let start := { Machine.new program limit timeout with env }
            (∀ fuel, start.run h fuel depth s =
              Machine.unlogged (start.run h.recorded fuel depth (s, []))) ∧
            Realizes (fun fuel => start.run h.recorded fuel depth (s, []))
              (fun clock => body.run clock env) := by
  obtain ⟨tokens, eof, htokens, hexists, hprogram⟩ := exists_tokens_of_compile hcompile
  refine ⟨tokens, eof, htokens, hexists, ?_⟩
  intro body hbody σ h hq s env henv limit timeout depth hlimit
  obtain rfl := hprogram body hbody
  exact ⟨fun fuel => (Machine.unlogged_run hq fuel depth (s, []) _).symm,
    hbody.plain.realizes hq s henv hlimit timeout depth⟩

/-- A block of two rounds moves twice and halts. -/
theorem repeat_move_preserves_meaning :
    ∃ program fuel, compile 256 (Text.ofString "repeat 2 times move 5 end") = .ok program ∧
      let run := { Machine.new program 0 .zero with env := {} }.run
        (Host.recorded { act := fun s _ _ => (s, .proceed) }) fuel 0 ((), [])
      run.2.2 = some (.ok ()) ∧ run.1.2 = [.action .move 5, .action .move 5] := by
  let body : Body :=
    .block (.repeatLoop (.literal 2)) (.simple (.act .move (.literal 5)) .done) .done
  let tokens : List Token := [⟨.keyword, Text.ofString "repeat", ⟨1, 1⟩⟩,
    ⟨.expression, Text.ofString "2", ⟨1, 8⟩⟩, ⟨.keyword, Text.ofString "times", ⟨1, 10⟩⟩,
    ⟨.keyword, Text.ofString "move", ⟨1, 16⟩⟩, ⟨.expression, Text.ofString "5", ⟨1, 21⟩⟩,
    ⟨.keyword, Text.ofString "end", ⟨1, 23⟩⟩]
  have htokens : (Feed.ofText (Text.ofString "repeat 2 times move 5 end") none).tokens =
      (tokens, .ok ⟨.eof, [], ⟨1, 26⟩⟩) := rfl
  have htwo : Token.Reads 256 ⟨.expression, Text.ofString "2", ⟨1, 8⟩⟩ (.literal 2) :=
    Token.reads_numeral _ (by decide) (by decide) (by decide)
  have hfive : Token.Reads 256 ⟨.expression, Text.ofString "5", ⟨1, 21⟩⟩ (.literal 5) :=
    Token.reads_numeral _ (by decide) (by decide) (by decide)
  have hbody : body.Derives 256 tokens :=
    .block (.repeatLoop rfl htwo rfl) (.simple (.move rfl hfive) .done) rfl .done
  have hcompile := compile_of_derives htokens hbody
  obtain ⟨tokens', eof, htokens', _, hall⟩ := compile_preserves_meaning hcompile
  obtain ⟨rfl, _⟩ := Prod.mk.inj (htokens.symm.trans htokens')
  have hrealizes := (hall body hbody { act := fun s _ _ => (s, .proceed) } ⟨fun _ _ _ => rfl,
    fun _ => rfl⟩ () {} rfl 0 .zero 0 (by decide)).2
  obtain ⟨fuel, hfuel⟩ := hrealizes.halts_iff.2 ⟨1, {}, rfl⟩
  exact ⟨body.program, fuel, hcompile, hfuel, hrealizes.same_events fuel 1 {} hfuel rfl⟩

end Tortoise
