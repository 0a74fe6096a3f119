import Tortoise.Application.Journey
import Tortoise.Proofs.Expr.Exact
import Tortoise.Proofs.Settings.Precedence

/-!
# Time limits

A time limit is asked for in seconds, in a flag, the environment or the configuration file, and
kept in nanoseconds, 64 bits of them. The seconds are checked for their sign and for nothing else,
and their product with 10⁹ wraps. So a limit is kept as it stands if it is one of at most
9223372036 seconds. A longer one is kept as a shorter one, or as one that never ends a run.
-/

namespace Tortoise

open Arguments

namespace Duration

def maxSeconds : Int := 9223372036

variable {n : Int64}

theorem toInt_ofSeconds (n : Int64) :
    (ofSeconds n).nanoseconds.toInt = (n.toInt * 10 ^ 9).bmod (2 ^ 64) :=
  Int64.toInt_mul n 1000000000

theorem toInt_ofSeconds_of_le (hn : 0 ≤ n.toInt) (hmax : n.toInt ≤ maxSeconds) :
    (ofSeconds n).nanoseconds.toInt = n.toInt * 10 ^ 9 := by
  have hfits : Representable (n.toInt * 10 ^ 9) := by
    unfold maxSeconds at hmax
    constructor <;> omega
  rw [toInt_ofSeconds, bmod_of_representable hfits]

/-- Seconds beyond the most are not kept, they are fewer afterwards. -/
theorem toInt_ofSeconds_lt (hmax : maxSeconds < n.toInt) :
    (ofSeconds n).nanoseconds.toInt < n.toInt * 10 ^ 9 := by
  have hrange := Int64.toInt_lt (ofSeconds n).nanoseconds
  unfold maxSeconds at hmax
  omega

end Duration

/-- A time limit is over once it has passed, provided that it is positive. -/
theorem Journey.isOver_iff {timeout : Duration} {elapsed : Nat} :
    isOver timeout elapsed = true ↔
      0 < timeout.nanoseconds.toInt ∧ timeout.nanoseconds.toInt ≤ elapsed := by
  simp [isOver, Int64.lt_iff_toInt_lt]

namespace Disk

variable {d : Disk} {env : Environment} {args : List String} {s : Settings}

theorem invoke_of_help {flags : Flags} {positional : List String}
    (hparse : Flags.parse args = .ok (flags, positional)) (hhelp : flags.help.getD false = true) :
    d.invoke env args = .ok (.help flags) := by
  simp only [invoke, Invocation.ofArguments, hparse, hhelp, if_true]
  rfl

theorem invoke_of_config_error {flags : Flags} {positional : List String} {e : ConfigError}
    (hparse : Flags.parse args = .ok (flags, positional)) (hhelp : flags.help.getD false = false)
    (hfile : d.configFile (d.configPath flags) = .error e) :
    d.invoke env args = .error (.config e) := by
  simp only [invoke, Invocation.ofArguments, hparse, hhelp, Bool.false_eq_true, if_false]
  cases hnamed : (flags.config.getD "").isEmpty with
  | true =>
      simp only [if_true, StateT.run_bind, find_run d flags hnamed, pure_bind, loadConfig_run,
        hfile]
      rfl
  | false =>
      rw [configPath_of_named d flags hnamed] at hfile
      simp only [Bool.false_eq_true, if_false, StateT.run_bind, pure_bind, loadConfig_run, hfile]
      rfl

/-- A command line that runs a program has readable flags, asks for no help, and finds a readable
configuration file or none; its settings are those that were gathered, and they passed. -/
theorem exists_of_invoke (h : d.invoke env args = .ok (.run s)) :
    ∃ flags positional file, Flags.parse args = .ok (flags, positional) ∧
      flags.help.getD false = false ∧ d.configFile (d.configPath flags) = .ok file ∧
      Settings.check flags (d.configPath flags) positional (Wishes.gather flags env file) =
        .ok s := by
  cases hparse : Flags.parse args with
  | error e =>
      rw [d.invoke_of_flag_error env args hparse] at h
      cases h
  | ok parsed =>
      obtain ⟨flags, positional⟩ := parsed
      cases hhelp : flags.help.getD false with
      | true =>
          rw [invoke_of_help hparse hhelp] at h
          cases h
      | false =>
          cases hfile : d.configFile (d.configPath flags) with
          | error e =>
              rw [invoke_of_config_error hparse hhelp hfile] at h
              cases h
          | ok file =>
              rw [d.invoke_eq flags env args hparse hhelp hfile] at h
              obtain ⟨s', hcheck, hrun⟩ := map_eq_ok.1 h
              obtain rfl := Invocation.run.inj hrun
              exact ⟨flags, positional, file, rfl, hhelp, hfile, hcheck⟩

theorem configFile_of_empty {flags : Flags} (h : flags.config = none) :
    configFile {} (configPath {} flags) = .ok none := by
  have helements : Path.elements "./robologo.toml" = [".", "robologo.toml"] := by decide
  have hrelative : "./robologo.toml".startsWith "/" = false := by decide +kernel
  have hpath : Path.join "." ConfigFile.fileName = "robologo.toml" := by
    change Path.clean "./robologo.toml" = "robologo.toml"
    simp only [Path.clean, helements, hrelative]
    rfl
  simp only [configPath, h, hpath]
  rfl

end Disk

/-- The time limit of a command line that is accepted comes from the effective number of seconds,
which is not negative: it is their exact number of nanoseconds, wrapped to 64 bits. It is exact if
and only if there are at most 9223372036 seconds. Then it is zero only where the seconds are, and it
ends a run once the seconds have passed and not before. A limit of more seconds is shortened or
never ends a run. -/
theorem time_limits_are_exact_within_range {d : Disk} {env : Environment} {args : List String}
    {s : Settings} (h : d.invoke env args = .ok (.run s)) :
    ∃ flags positional given file, ∃ n : Int64, Flags.parse args = .ok (flags, positional) ∧
      Flags.Sets (reorder args) given positional ∧
      d.configFile (d.configPath flags) = .ok file ∧
      Sources.Effective ⟨given, env, file⟩ .timeout n ∧ 0 ≤ n.toInt ∧
      s.timeout.nanoseconds.toInt = (n.toInt * 10 ^ 9).bmod (2 ^ 64) ∧
      (s.timeout.nanoseconds.toInt = n.toInt * 10 ^ 9 ↔ n.toInt ≤ Duration.maxSeconds) ∧
      (n.toInt ≤ Duration.maxSeconds →
        0 ≤ s.timeout.nanoseconds.toInt ∧ (s.timeout = .zero ↔ n = 0) ∧
        ∀ elapsed : Nat, Journey.isOver s.timeout elapsed = true ↔
          0 < n.toInt ∧ n.toInt * 10 ^ 9 ≤ elapsed) ∧
      (Duration.maxSeconds < n.toInt → s.timeout.nanoseconds.toInt < n.toInt * 10 ^ 9) := by
  obtain ⟨flags, positional, file, hparse, -, hfile, hcheck⟩ := Disk.exists_of_invoke h
  obtain ⟨given, hsets, htells⟩ := Flags.exists_sets hparse
  obtain ⟨hgood, hfollow, -⟩ := Settings.check_eq_ok_iff.1 hcheck
  let n : Int64 := (Wishes.gather flags env file).timeout
  have heffective : Sources.Effective ⟨given, env, file⟩ .timeout n :=
    Sources.effective_gather htells env file .timeout
  have htimeout : s.timeout = .ofSeconds n := hfollow.timeout
  have hpos : 0 ≤ n.toInt := Int64.le_iff_toInt_le.1 hgood.timeout
  refine ⟨flags, positional, given, file, n, hparse, hsets, hfile, heffective, hpos, ?_⟩
  rw [htimeout]
  refine ⟨Duration.toInt_ofSeconds n, ⟨fun hexact => ?_, Duration.toInt_ofSeconds_of_le hpos⟩,
    fun hmax => ?_, Duration.toInt_ofSeconds_lt⟩
  · by_contra hmore
    have hless := Duration.toInt_ofSeconds_lt (Int.not_le.1 hmore)
    omega
  · have hexact := Duration.toInt_ofSeconds_of_le hpos hmax
    refine ⟨by omega, ?_, fun elapsed => ?_⟩
    · have hzero : Duration.ofSeconds n = .zero ↔ (Duration.ofSeconds n).nanoseconds.toInt = 0 := by
        rw [toInt_eq_zero_iff]
        exact ⟨congrArg Duration.nanoseconds, fun h => congrArg Duration.mk h⟩
      rw [hzero, hexact, ← toInt_eq_zero_iff]
      omega
    · rw [Journey.isOver_iff, hexact]
      constructor <;> rintro ⟨hlow, hhigh⟩ <;> exact ⟨by omega, hhigh⟩

/-- The longest limit that is kept, from the environment. -/
theorem longest_limit_is_kept :
    ∃ s, Disk.invoke {} { timeout := "9223372036" } ["a.robo"] = .ok (.run s) ∧
      s.timeout.nanoseconds.toInt = 9223372036000000000 ∧
      ∀ elapsed : Nat, Journey.isOver s.timeout elapsed = true ↔ 9223372036000000000 ≤ elapsed := by
  let env : Environment := { timeout := "9223372036" }
  have hparse : Flags.parse ["a.robo"] = .ok ({}, ["a.robo"]) := by decide +kernel
  have hfile : Disk.configFile {} (Disk.configPath {} {}) = .ok none :=
    Disk.configFile_of_empty rfl
  have hwishes : Wishes.gather {} env none = { Wishes.default with timeout := 9223372036 } := by decide +kernel
  obtain ⟨s, hrun⟩ : ∃ s, Disk.invoke {} env ["a.robo"] = .ok (.run s) := by
    rw [Disk.invoke_eq {} {} env _ hparse rfl hfile, hwishes]
    exact ⟨_, rfl⟩
  obtain ⟨flags, positional, given, file, n, hflags, hsets, hfile', hn, -, -, hexact, hwithin, -⟩ :=
    time_limits_are_exact_within_range hrun
  obtain ⟨rfl, rfl⟩ := Prod.mk.inj (Except.ok.inj (hflags.symm.trans hparse))
  obtain rfl := Except.ok.inj (hfile'.symm.trans hfile)
  have horder : reorder ["a.robo"] = ["a.robo"] := by decide +kernel
  rw [horder] at hsets
  obtain rfl := hsets.unique (.positional (by decide +kernel))
  have hseconds : Sources.Effective ⟨[], env, none⟩ .timeout (9223372036 : Int64) := by
    refine ⟨.environment, .timeout (by decide +kernel) (by decide), fun o hrank w hgiven => ?_⟩
    cases hgiven with
    | flag htext => cases htext
    | timeout | file | builtin => exact absurd hrank (by decide)
  obtain rfl : n = 9223372036 := hn.unique hseconds
  refine ⟨s, hrun, hexact.2 (by decide), fun elapsed => ?_⟩
  have hvalue : Int64.toInt 9223372036 = 9223372036 := by decide
  rw [(hwithin (by decide)).2.2 elapsed, hvalue]
  omega

/-- A second more is kept as a limit that never ends a run, and twice as many seconds are kept as
less than a third of a second. -/
theorem longer_limits_are_lost :
    (∃ s, Disk.invoke {} {} ["--timeout", "9223372037", "a.robo"] = .ok (.run s) ∧
      Sources.Effective ⟨[(.timeout, "9223372037")], {}, none⟩ .timeout (9223372037 : Int64) ∧
      s.timeout.nanoseconds.toInt = -9223372036709551616 ∧
      ∀ elapsed, Journey.isOver s.timeout elapsed = false) ∧
    ∃ s, Disk.invoke {} {} ["--timeout", "18446744074", "a.robo"] = .ok (.run s) ∧
      Sources.Effective ⟨[(.timeout, "18446744074")], {}, none⟩ .timeout (18446744074 : Int64) ∧
      s.timeout.nanoseconds.toInt = 290448384 ∧ Journey.isOver s.timeout 290448384 = true := by
  have heffective {text : String} {n : Int64} (h : Text.readNumeral text = .ok n) :
      Sources.Effective ⟨[(.timeout, text)], {}, none⟩ .timeout n :=
    ⟨.flag, .flag rfl h, fun o hrank => absurd hrank (Nat.not_lt_zero _)⟩
  have hinvoke {args : List String} {flags : Flags} (hflags : flags.config = none)
      (hhelp : flags.help = none) (hparse : Flags.parse args = .ok (flags, ["a.robo"])) :
      Disk.invoke {} {} args = (Settings.check flags (Disk.configPath {} flags) ["a.robo"]
        (Wishes.gather flags {} none)).map .run :=
    Disk.invoke_eq {} flags {} args hparse (by rw [hhelp]; rfl) (Disk.configFile_of_empty hflags)
  have hparse : Flags.parse ["--timeout", "9223372037", "a.robo"] =
      .ok ({ timeout := some 9223372037 }, ["a.robo"]) := by decide +kernel
  have hparse' : Flags.parse ["--timeout", "18446744074", "a.robo"] =
      .ok ({ timeout := some 18446744074 }, ["a.robo"]) := by decide +kernel
  refine ⟨⟨_, hinvoke rfl rfl hparse, heffective (by decide +kernel), by decide, fun elapsed => ?_⟩,
    _, hinvoke rfl rfl hparse', heffective (by decide +kernel), by decide, by decide⟩
  rfl

end Tortoise
