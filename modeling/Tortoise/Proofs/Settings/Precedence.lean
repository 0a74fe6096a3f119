import Tortoise.Proofs.Settings.Roles
import Tortoise.Settings.Basic

/-!
# The precedence of settings

Each setting has up to four origins: a flag, an environment variable, the configuration file and
the value that is built in. `Given` says what an origin gives to a setting, and `Effective` that no
higher origin gives anything to it. A command line takes the effective value of every setting, and
only these values are checked, so a value that is overridden has no part in the result, neither in
the settings nor in an error.
-/

namespace Tortoise

open Arguments

inductive Setting where
  | timeout
  | logLevel
  | logFormat
  | maxSteps
  | maxExprLen
  | encoding
  | trace
deriving DecidableEq

namespace Setting

def Value : Setting → Type
  | timeout | maxSteps | maxExprLen => Int64
  | logLevel | logFormat | encoding => String
  | trace => Bool

def flag : Setting → Flag
  | timeout => .timeout
  | logLevel => .logLevel
  | logFormat => .logFormat
  | maxSteps => .maxSteps
  | maxExprLen => .maxExprLen
  | encoding => .encoding
  | trace => .trace

def key : Setting → String
  | timeout => "timeout"
  | logLevel => "log-level"
  | logFormat => "log-format"
  | maxSteps => "max-steps"
  | maxExprLen => "max-expr-len"
  | encoding => "encoding"
  | trace => "trace"

def builtin : (x : Setting) → x.Value
  | timeout => (0 : Int64)
  | logLevel => "info"
  | logFormat => "text"
  | maxSteps => (0 : Int64)
  | maxExprLen => (0 : Int64)
  | encoding => "utf-8"
  | trace => false

def entry (c : ConfigFile) : (x : Setting) → x.Value
  | timeout => c.timeout
  | logLevel => Text.lowercase c.logLevel
  | logFormat => c.logFormat
  | maxSteps => c.maxSteps
  | maxExprLen => c.maxExprLen
  | encoding => c.encoding
  | trace => c.trace

def Reads : (x : Setting) → String → x.Value → Prop
  | timeout, text, (n : Int64) => Text.readNumeral text = .ok n
  | logLevel, text, (name : String) => name = text
  | logFormat, text, (name : String) => name = text
  | maxSteps, text, (n : Int64) => Text.readNumeral text = .ok n
  | maxExprLen, text, (n : Int64) => Text.readNumeral text = .ok n
  | encoding, text, (name : String) => name = text
  | trace, text, (b : Bool) => Flags.truth? text = some b

theorem Reads.unique {x : Setting} {text : String} {v w : x.Value} (hv : x.Reads text v)
    (hw : x.Reads text w) : v = w := by
  cases x with
  | timeout => exact Except.ok.inj (hv.symm.trans hw)
  | logLevel => exact hv.trans hw.symm
  | logFormat => exact hv.trans hw.symm
  | maxSteps => exact Except.ok.inj (hv.symm.trans hw)
  | maxExprLen => exact Except.ok.inj (hv.symm.trans hw)
  | encoding => exact hv.trans hw.symm
  | trace => exact Option.some.inj (hv.symm.trans hw)

end Setting

namespace Flags

/-- The flags that arguments set, each with its text, and the arguments behind them. -/
inductive Sets : List String → List (Flag × String) → List String → Prop
  | nil : Sets [] [] []
  | positional {arg : String} {rest : List String} (harg : isFlagLike arg = false) :
      Sets (arg :: rest) [] (arg :: rest)
  | ended (rest : List String) : Sets ("--" :: rest) [] rest
  | whole {arg : String} {s : Spelling} {flag : Flag} {rest positional : List String}
      {given : List (Flag × String)} (h : Known arg s flag) (hwhole : s.isWhole flag = true)
      (hrest : Sets rest given positional) :
      Sets (arg :: rest) ((flag, s.value.getD "true") :: given) positional
  | valued {arg value : String} {s : Spelling} {flag : Flag} {rest positional : List String}
      {given : List (Flag × String)} (h : Known arg s flag) (hwhole : s.isWhole flag = false)
      (hrest : Sets rest given positional) :
      Sets (arg :: value :: rest) ((flag, value) :: given) positional

theorem Known.unique {arg : String} {s s' : Spelling} {flag flag' : Flag} (h : Known arg s flag)
    (h' : Known arg s' flag') : s = s' ∧ flag = flag' := by
  obtain rfl := Except.ok.inj (h.spelling.symm.trans h'.spelling)
  exact ⟨rfl, Option.some.inj (h.name.symm.trans h'.name)⟩

/-- Arguments set flags in one way. -/
theorem Sets.unique {args positional positional' : List String}
    {given given' : List (Flag × String)} (h : Sets args given positional) (h' : Sets args given' positional') : given = given' := by
  induction h generalizing given' with
  | nil => cases h'; rfl
  | positional harg =>
      cases h' with
      | positional => rfl
      | ended => rfl
      | whole h | valued h => simp [h.isFlagLike] at harg
  | ended rest =>
      cases h' with
      | positional => rfl
      | ended => rfl
      | whole h | valued h => exact absurd h.beq_dashes (by simp)
  | whole h hwhole hrest ih =>
      cases h' with
      | positional harg => simp [h.isFlagLike] at harg
      | ended => exact absurd h.beq_dashes (by simp)
      | whole h' hwhole' hrest' =>
          obtain ⟨rfl, rfl⟩ := h.unique h'
          rw [ih hrest']
      | valued h' hwhole' =>
          obtain ⟨rfl, rfl⟩ := h.unique h'
          simp [hwhole] at hwhole'
  | valued h hwhole hrest ih =>
      cases h' with
      | positional harg => simp [h.isFlagLike] at harg
      | ended => exact absurd h.beq_dashes (by simp)
      | whole h' hwhole' =>
          obtain ⟨rfl, rfl⟩ := h.unique h'
          simp [hwhole] at hwhole'
      | valued h' hwhole' hrest' =>
          obtain ⟨rfl, rfl⟩ := h.unique h'
          rw [ih hrest']

def lastText? (given : List (Flag × String)) (flag : Flag) : Option String :=
  given.reverse.lookup flag

theorem lastText?_cons (flag : Flag) (text : String) (given : List (Flag × String)) (other : Flag) :
    lastText? ((flag, text) :: given) other =
      (lastText? given other).or (if other = flag then some text else none) := by
  rw [lastText?, List.reverse_cons, List.lookup_append, List.lookup_cons, List.lookup_nil]
  by_cases h : other = flag
  · simp [h, lastText?]
  · simp [h, lastText?, beq_false_of_ne h]

def value? (fs : Flags) : (x : Setting) → Option x.Value
  | .timeout => fs.timeout
  | .logLevel => fs.logLevel
  | .logFormat => fs.logFormat
  | .maxSteps => fs.maxSteps
  | .maxExprLen => fs.maxExprLen
  | .encoding => fs.encoding
  | .trace => fs.trace

variable {fs fs' : Flags} {args positional : List String} {flag : Flag} {name text : String}

theorem number_eq_ok {n : Int64} : number name text = .ok n ↔ Text.readNumeral text = .ok n := by
  unfold number
  cases Text.readNumeral text <;> simp [Except.mapError]

theorem truth_eq_ok {b : Bool} : truth name text = .ok b ↔ truth? text = some b := by
  unfold truth
  cases truth? text <;> simp

theorem exists_of_read {α : Type} {read : Except FlagError α} {update : α → Flags}
    (h : (do return update (← read)) = Except.ok fs') : ∃ a, read = .ok a ∧ fs' = update a := by
  obtain ⟨a, ha, h⟩ := bind_eq_ok.1 h
  exact ⟨a, ha, (Except.ok.inj h).symm⟩

/-- A flag gives its value to its own setting. -/
theorem value?_set_self {x : Setting} (h : fs.set x.flag name text = .ok fs') (v : x.Value) :
    fs'.value? x = some v ↔ x.Reads text v := by
  have hnumber {n w : Int64} (hn : number name text = .ok n) :
      some n = some w ↔ Text.readNumeral text = .ok w := by
    rw [number_eq_ok.1 hn, Option.some_inj, Except.ok.injEq]
  cases x with
  | timeout | maxSteps | maxExprLen =>
      obtain ⟨n, hn, rfl⟩ := exists_of_read h
      exact hnumber hn
  | logLevel | logFormat | encoding =>
      obtain rfl := Except.ok.inj h
      exact Option.some_inj.trans eq_comm
  | trace =>
      obtain ⟨b, hb, rfl⟩ := exists_of_read h
      exact Iff.of_eq (congrArg (· = some v) (truth_eq_ok.1 hb).symm)

/-- The other settings stay as they are. -/
theorem value?_set_of_ne {x : Setting} (h : fs.set flag name text = .ok fs') (hne : x.flag ≠ flag) :
    fs'.value? x = fs.value? x := by
  cases flag with
  | timeout | maxSteps | maxExprLen | dump | trace | help =>
      obtain ⟨a, -, rfl⟩ := exists_of_read h
      cases x <;> first | rfl | exact absurd rfl hne
  | logLevel | logFormat | encoding | emit | config =>
      obtain rfl := Except.ok.inj h
      cases x <;> first | rfl | exact absurd rfl hne

theorem value?_set (h : fs.set flag name text = .ok fs') (x : Setting) (v : x.Value) :
    fs'.value? x = some v ↔ if x.flag = flag then x.Reads text v else fs.value? x = some v := by
  by_cases hx : x.flag = flag
  · subst hx
    rw [if_pos rfl, value?_set_self h]
  · rw [if_neg hx, value?_set_of_ne h hx]

/-- How reading flags goes on behind the first argument. -/
theorem parseFrom_cons_eq_ok {arg : String} {rest : List String}
    (h : parseFrom fs (arg :: rest) = .ok (fs', positional)) :
    (isFlagLike arg = false ∧ fs' = fs ∧ positional = arg :: rest) ∨
    (arg = "--" ∧ fs' = fs ∧ positional = rest) ∨
    ∃ s flag text after next, Known arg s flag ∧
      (s.isWhole flag = true ∧ text = s.value.getD "true" ∧ after = rest ∨
        s.isWhole flag = false ∧ text :: after = rest) ∧
      fs.set flag s.name text = .ok next ∧ parseFrom next after = .ok (fs', positional) := by
  by_cases harg : isFlagLike arg = true
  · by_cases hdashes : arg = "--"
    · subst hdashes
      rw [parseFrom_dashes] at h
      obtain ⟨rfl, rfl⟩ := Prod.mk.inj (Except.ok.inj h)
      exact .inr (.inl ⟨rfl, rfl, rfl⟩)
    · obtain ⟨s, flag, hknown⟩ : ∃ s flag, Known arg s flag := by
        rw [parseFrom, harg, if_neg (by simp), if_neg (by simpa using hdashes)] at h
        obtain ⟨s, hs, h⟩ := bind_eq_ok.1 h
        cases hflag : Flag.ofName? s.name with
        | none =>
            rw [hflag] at h
            cases h
        | some flag => exact ⟨s, flag, harg, hs, hflag⟩
      refine .inr (.inr ⟨s, flag, ?_⟩)
      cases hwhole : s.isWhole flag with
      | true =>
          rw [parseFrom_whole hknown hwhole] at h
          obtain ⟨next, hset, h⟩ := bind_eq_ok.1 h
          exact ⟨_, _, next, hknown, .inl ⟨rfl, rfl, rfl⟩, hset, h⟩
      | false =>
          rw [parseFrom_partial hknown hwhole] at h
          cases rest with
          | nil => cases h
          | cons text after =>
              obtain ⟨next, hset, h⟩ := bind_eq_ok.1 h
              exact ⟨_, _, next, hknown, .inr ⟨rfl, rfl⟩, hset, h⟩
  · rw [Bool.not_eq_true] at harg
    rw [parseFrom, harg] at h
    obtain ⟨rfl, rfl⟩ := Prod.mk.inj (Except.ok.inj h)
    exact .inl ⟨harg, rfl, rfl⟩

def Tells (fs : Flags) (given : List (Flag × String)) (x : Setting) (v : x.Value) : Prop :=
  match lastText? given x.flag with
  | some text => x.Reads text v
  | none => fs.value? x = some v

theorem tells_cons (h : fs.set flag name text = .ok fs') (given : List (Flag × String))
    (x : Setting) (v : x.Value) : fs'.Tells given x v ↔ fs.Tells ((flag, text) :: given) x v := by
  unfold Tells
  rw [lastText?_cons]
  cases lastText? given x.flag with
  | some later => rfl
  | none =>
      refine (value?_set h x v).trans ?_
      by_cases hx : x.flag = flag
      · simp only [if_pos hx]
        rfl
      · simp only [if_neg hx]
        rfl

/-- Reading flags takes the last text of each. -/
theorem exists_sets (h : parseFrom fs args = .ok (fs', positional)) :
    ∃ given, Sets args given positional ∧
      ∀ (x : Setting) (v : x.Value), fs'.value? x = some v ↔ fs.Tells given x v := by
  induction hlength : args.length using Nat.strong_induction_on generalizing args fs with
  | _ length ih =>
      cases args with
      | nil =>
          obtain ⟨rfl, rfl⟩ := Prod.mk.inj (Except.ok.inj h)
          exact ⟨[], .nil, fun _ _ => Iff.rfl⟩
      | cons arg rest =>
          obtain ⟨harg, rfl, rfl⟩ | ⟨rfl, rfl, rfl⟩ | ⟨s, flag, text, after, next, hknown, htext,
            hset, hnext⟩ := parseFrom_cons_eq_ok h
          · exact ⟨[], .positional harg, fun _ _ => Iff.rfl⟩
          · exact ⟨[], .ended _, fun _ _ => Iff.rfl⟩
          · have hshorter : after.length < length := by
              obtain ⟨-, -, rfl⟩ | ⟨-, rfl⟩ := htext
              · simp [← hlength]
              · simp only [← hlength, List.length_cons]
                omega
            obtain ⟨given, hsets, htells⟩ := ih _ hshorter hnext rfl
            refine ⟨(flag, text) :: given, ?_, fun x v =>
              (htells x v).trans (tells_cons hset _ x v)⟩
            obtain ⟨hwhole, rfl, rfl⟩ | ⟨hwhole, rfl⟩ := htext
            · exact .whole hknown hwhole hsets
            · exact .valued hknown hwhole hsets

end Flags

inductive Origin where
  | flag
  | environment
  | file
  | builtin
deriving DecidableEq

def Origin.rank : Origin → Nat
  | flag => 0
  | environment => 1
  | file => 2
  | builtin => 3

structure Sources where
  /-- The flags with their texts, in order. -/
  flags : List (Flag × String)
  environment : Environment
  file : Option ConfigFile

namespace Sources

variable {s s' : Sources} {o : Origin} {x : Setting} {v w : x.Value}

/-- What an origin gives to a setting. There are three environment variables, of which two count
only as integers that are not negative, and a key of the file counts in its proper spelling. -/
inductive Given (s : Sources) : Origin → (x : Setting) → x.Value → Prop
  | flag {x : Setting} {text : String} {v : x.Value}
      (htext : Flags.lastText? s.flags x.flag = some text) (hv : x.Reads text v) :
      Given s .flag x v
  | timeout {n : Int64} (hn : Text.readDecimal s.environment.timeout = .ok n) (hpos : 0 ≤ n) :
      Given s .environment .timeout n
  | maxSteps {n : Int64} (hn : Text.readDecimal s.environment.maxSteps = .ok n) (hpos : 0 ≤ n) :
      Given s .environment .maxSteps n
  | logLevel (hset : s.environment.logLevel ≠ "") :
      Given s .environment .logLevel (Text.lowercase s.environment.logLevel)
  | file {x : Setting} {c : ConfigFile} (hc : s.file = some c) (hkey : x.key ∈ c.keys) :
      Given s .file x (x.entry c)
  | builtin (x : Setting) : Given s .builtin x x.builtin

def Effective (s : Sources) (x : Setting) (v : x.Value) : Prop :=
  ∃ o, s.Given o x v ∧ ∀ o' : Origin, o'.rank < o.rank → ∀ w, ¬ s.Given o' x w

/-- Where the two differ in what an origin gives, an origin above overrides it. -/
def DifferBelow (s s' : Sources) : Prop :=
  ∀ o x v, ¬ (s.Given o x v ↔ s'.Given o x v) →
    ∃ (o' : Origin) (w : x.Value), o'.rank < o.rank ∧ s.Given o' x w

theorem Given.unique (hv : s.Given o x v) (hw : s.Given o x w) : v = w := by
  cases hv with
  | flag htext hv =>
      cases hw with
      | flag htext' hw =>
          obtain rfl := Option.some.inj (htext.symm.trans htext')
          exact hv.unique hw
  | timeout hn hpos =>
      cases hw with
      | timeout hn' hpos' => exact Except.ok.inj (hn.symm.trans hn')
  | maxSteps hn hpos =>
      cases hw with
      | maxSteps hn' hpos' => exact Except.ok.inj (hn.symm.trans hn')
  | logLevel hset => cases hw; rfl
  | file hc hkey =>
      cases hw with
      | file hc' hkey' => rw [Option.some.inj (hc.symm.trans hc')]
  | builtin x => cases hw; rfl

theorem Effective.unique (hv : s.Effective x v) (hw : s.Effective x w) : v = w := by
  obtain ⟨o, ho, habove⟩ := hv
  obtain ⟨o', ho', habove'⟩ := hw
  have hrank : o.rank = o'.rank := by
    rcases Nat.lt_trichotomy o.rank o'.rank with hlt | heq | hlt
    · exact absurd ho (habove' o hlt v)
    · exact heq
    · exact absurd ho' (habove o' hlt w)
  obtain rfl : o = o' := by cases o <;> cases o' <;> first | rfl | cases hrank
  exact ho.unique ho'

/-- Values that are overridden do not matter. -/
theorem Effective.of_differBelow (h : s.Effective x v) (hdiffer : s.DifferBelow s') :
    s'.Effective x v := by
  obtain ⟨o, ho, habove⟩ := h
  -- Nothing is given above `o`, so there is no difference at `o` or above.
  have hsame (o' : Origin) (hrank : o'.rank ≤ o.rank) (w : x.Value) :
      s.Given o' x w ↔ s'.Given o' x w := by
    by_contra hnot
    obtain ⟨o'', w', hlt, hgiven⟩ := hdiffer o' x w hnot
    exact habove o'' (by omega) w' hgiven
  refine ⟨o, (hsame o le_rfl v).1 ho, fun o' hlt w hgiven => ?_⟩
  exact habove o' hlt w ((hsame o' hlt.le w).2 hgiven)

end Sources

namespace Wishes

def value (w : Wishes) : (x : Setting) → x.Value
  | .timeout => w.timeout
  | .logLevel => w.logLevel
  | .logFormat => w.logFormat
  | .maxSteps => w.maxSteps
  | .maxExprLen => w.maxExprLen
  | .encoding => w.encoding
  | .trace => w.trace

theorem eq_of_value_eq {w w' : Wishes} (h : ∀ x, w.value x = w'.value x) : w = w' := by
  obtain ⟨timeout, logLevel, logFormat, maxSteps, maxExprLen, encoding, trace⟩ := w
  obtain rfl : timeout = w'.timeout := h .timeout
  obtain rfl : logLevel = w'.logLevel := h .logLevel
  obtain rfl : logFormat = w'.logFormat := h .logFormat
  obtain rfl : maxSteps = w'.maxSteps := h .maxSteps
  obtain rfl : maxExprLen = w'.maxExprLen := h .maxExprLen
  obtain rfl : encoding = w'.encoding := h .encoding
  obtain rfl : trace = w'.trace := h .trace
  rfl

end Wishes

namespace Environment

def level? (env : Environment) : Option String :=
  if env.logLevel.isEmpty then none else some (Text.lowercase env.logLevel)

def value? (env : Environment) : (x : Setting) → Option x.Value
  | .timeout => count? env.timeout
  | .maxSteps => count? env.maxSteps
  | .logLevel => env.level?
  | _ => none

theorem level?_eq_some_iff {env : Environment} {level : String} :
    env.level? = some level ↔ env.logLevel ≠ "" ∧ level = Text.lowercase env.logLevel := by
  by_cases hset : env.logLevel = ""
  · simp [level?, hset]
  · rw [level?, if_neg (by simpa using hset), Option.some_inj, eq_comm]
    simp [hset]

theorem count?_eq_some_iff {value : String} {n : Int64} :
    count? value = some n ↔ Text.readDecimal value = .ok n ∧ 0 ≤ n := by
  unfold count?
  cases Text.readDecimal value with
  | error e => simp
  | ok m =>
      by_cases hm : m < 0
      · simp only [if_pos hm, reduceCtorEq, Except.ok.injEq, false_iff, not_and]
        rintro rfl
        exact Int64.not_le.2 hm
      · simp only [if_neg hm, Option.some_inj, Except.ok.injEq, iff_self_and]
        rintro rfl
        exact Int64.not_lt.1 hm

end Environment

namespace Sources

variable {s s' : Sources} {x : Setting} {v : x.Value}

theorem given_environment_iff : s.Given .environment x v ↔ s.environment.value? x = some v := by
  constructor
  · intro h
    cases h with
    | timeout hn hpos => exact Environment.count?_eq_some_iff.2 ⟨hn, hpos⟩
    | maxSteps hn hpos => exact Environment.count?_eq_some_iff.2 ⟨hn, hpos⟩
    | logLevel hset => exact Environment.level?_eq_some_iff.2 ⟨hset, rfl⟩
  · intro h
    cases x with
    | timeout =>
        obtain ⟨hn, hpos⟩ := Environment.count?_eq_some_iff.1 h
        exact .timeout hn hpos
    | maxSteps =>
        obtain ⟨hn, hpos⟩ := Environment.count?_eq_some_iff.1 h
        exact .maxSteps hn hpos
    | logLevel =>
        obtain ⟨hset, rfl⟩ := Environment.level?_eq_some_iff.1 h
        exact .logLevel hset
    | logFormat | maxExprLen | encoding | trace => cases h

theorem given_file_iff :
    s.Given .file x v ↔ Wishes.fromFile s.file x.key (fun c => x.entry c) = some v := by
  constructor
  · intro h
    cases h with
    | file hc hkey => simp [Wishes.fromFile, hc, ConfigFile.defines, hkey]
  · intro h
    unfold Wishes.fromFile at h
    split at h
    next c hc =>
      split at h
      next hkey =>
        obtain rfl := Option.some.inj h
        exact .file hc (by simpa [ConfigFile.defines] using hkey)
      next => cases h
    next => cases h

/-- What the flags of a command line give. -/
theorem given_flag_iff {flags : Flags}
    (h : ∀ (x : Setting) (v : x.Value), flags.value? x = some v ↔ Flags.Tells {} s.flags x v) :
    s.Given .flag x v ↔ flags.value? x = some v := by
  rw [h]
  unfold Flags.Tells
  constructor
  · intro hgiven
    cases hgiven with
    | flag htext hv =>
        rw [htext]
        exact hv
  · intro htells
    split at htells
    next text htext => exact .flag htext htells
    next => cases x <;> cases htells

/-- Whatever else is given to a setting with a flag is overridden. -/
theorem differBelow_of_flag (hflags : s.flags = s'.flags) (hgiven : s.Given .flag x v)
    (hothers : ∀ y, y ≠ x → s.environment.value? y = s'.environment.value? y ∧
      Wishes.fromFile s.file y.key (fun c => y.entry c) =
        Wishes.fromFile s'.file y.key (fun c => y.entry c)) :
    s.DifferBelow s' := by
  intro o y w hdiffer
  cases o with
  | flag =>
      refine absurd ⟨fun h => ?_, fun h => ?_⟩ hdiffer
      · cases h with
        | flag htext hw => exact .flag (hflags ▸ htext) hw
      · cases h with
        | flag htext hw => exact .flag (hflags ▸ htext) hw
  | environment =>
      by_cases hy : y = x
      · exact ⟨.flag, hy ▸ v, by decide, by subst hy; exact hgiven⟩
      · refine absurd ?_ hdiffer
        rw [given_environment_iff, given_environment_iff, (hothers y hy).1]
  | file =>
      by_cases hy : y = x
      · exact ⟨.flag, hy ▸ v, by decide, by subst hy; exact hgiven⟩
      · refine absurd ?_ hdiffer
        rw [given_file_iff, given_file_iff, (hothers y hy).2]
  | builtin =>
      refine absurd ⟨fun h => ?_, fun h => ?_⟩ hdiffer
      · cases h
        exact .builtin y
      · cases h
        exact .builtin y

/-- The first of the values that there are is the effective one. -/
theorem effective_getD {a b c : Option x.Value} (ha : ∀ v, s.Given .flag x v ↔ a = some v)
    (hb : ∀ v, s.Given .environment x v ↔ b = some v) (hc : ∀ v, s.Given .file x v ↔ c = some v) :
    s.Effective x ((a <|> b <|> c).getD x.builtin) := by
  have hnone {o : Origin} {y : Option x.Value} (hy : ∀ v, s.Given o x v ↔ y = some v)
      (hnot : y = none) (w : x.Value) : ¬ s.Given o x w := by
    rw [hy, hnot]
    exact nofun
  cases hflag : a with
  | some v => exact ⟨.flag, (ha v).2 hflag, fun o h => absurd h (Nat.not_lt_zero _)⟩
  | none =>
      cases henv : b with
      | some v =>
          refine ⟨.environment, (hb v).2 henv, fun o h => ?_⟩
          cases o with
          | flag => exact hnone ha hflag
          | environment | file | builtin => exact absurd h (by decide)
      | none =>
          cases hfile : c with
          | some v =>
              refine ⟨.file, (hc v).2 hfile, fun o h => ?_⟩
              cases o with
              | flag => exact hnone ha hflag
              | environment => exact hnone hb henv
              | file | builtin => exact absurd h (by decide)
          | none =>
              refine ⟨.builtin, .builtin x, fun o h => ?_⟩
              cases o with
              | flag => exact hnone ha hflag
              | environment => exact hnone hb henv
              | file => exact hnone hc hfile
              | builtin => exact absurd h (by decide)

end Sources

theorem Wishes.value_gather (flags : Flags) (env : Environment) (file : Option ConfigFile)
    (x : Setting) : (gather flags env file).value x =
      (flags.value? x <|> env.value? x <|>
        fromFile file x.key (fun c => x.entry c)).getD x.builtin := by
  cases x <;> rfl

/-- What is gathered are the effective values. -/
theorem Sources.effective_gather {flags : Flags} {given : List (Flag × String)}
    (h : ∀ (x : Setting) (v : x.Value), flags.value? x = some v ↔ Flags.Tells {} given x v)
    (env : Environment) (file : Option ConfigFile) (x : Setting) :
    Effective ⟨given, env, file⟩ x ((Wishes.gather flags env file).value x) := by
  rw [Wishes.value_gather]
  exact effective_getD (fun _ => given_flag_iff h) (fun _ => given_environment_iff)
    fun _ => given_file_iff

structure Wishes.Acceptable (w : Wishes) : Prop where
  timeout : 0 ≤ w.timeout
  maxSteps : 0 ≤ w.maxSteps
  maxExprLen : 0 ≤ w.maxExprLen
  logLevel : (Log.Level.ofName? w.logLevel).isSome
  logFormat : (Log.Format.ofName? w.logFormat).isSome
  encoding : (Charset.ofName? w.encoding).isSome

structure Settings.Follow (s : Settings) (w : Wishes) : Prop where
  timeout : s.timeout = .ofSeconds w.timeout
  level : Log.Level.ofName? w.logLevel = some s.level
  format : Log.Format.ofName? w.logFormat = some s.format
  maxSteps : s.maxSteps = w.maxSteps
  maxExprLen : s.maxExprLen = w.maxExprLen
  encoding : s.encoding = w.encoding
  trace : s.trace = w.trace

/-- A check in front of a computation. -/
theorem unless_eq_ok_iff {α : Type} {p : Prop} [Decidable p] {e : SettingsError}
    {rest : PUnit → Except SettingsError α} {a : α} :
    (if p then throw e >>= rest else rest ⟨⟩) = .ok a ↔ ¬ p ∧ rest ⟨⟩ = .ok a := by
  by_cases hp : p
  · rw [if_pos hp]
    exact iff_of_false nofun fun h => h.1 hp
  · rw [if_neg hp]
    exact (and_iff_right hp).symm

theorem Settings.soleArgument_eq_ok_iff {positional : List String} {program : String} :
    soleArgument positional = .ok program ↔ positional = [program] := by
  unfold soleArgument
  split <;> simp_all

theorem Settings.check_eq_ok_iff {flags : Flags} {config : String} {positional : List String}
    {w : Wishes} {s : Settings} : check flags config positional w = .ok s ↔
      w.Acceptable ∧ s.Follow w ∧ positional = [s.program] ∧ s.dump = flags.dump.getD false ∧
        s.emit = flags.emit.getD "" ∧ s.config = config := by
  have hknown : ¬ (Charset.ofName? w.encoding).isNone = true ↔
      (Charset.ofName? w.encoding).isSome = true := by
    simp [Option.isSome_iff_ne_none]
  simp only [check, unless_eq_ok_iff, Int64.not_lt]
  constructor
  · rintro ⟨htimeout, hsteps, hlength, h⟩
    split at h
    next level hlevel =>
      split at h
      next format hformat =>
        obtain ⟨hencoding, h⟩ := unless_eq_ok_iff.1 h
        obtain ⟨program, hprogram, h⟩ := bind_eq_ok.1 h
        obtain rfl := Except.ok.inj h
        exact ⟨⟨htimeout, hsteps, hlength, by simp [hlevel], by simp [hformat],
            hknown.1 hencoding⟩,
          ⟨rfl, hlevel, hformat, rfl, rfl, rfl, rfl⟩, soleArgument_eq_ok_iff.1 hprogram, rfl, rfl,
          rfl⟩
      next => cases h
    next => cases h
  · rintro ⟨hw, hs, hpositional, hdump, hemit, hconfig⟩
    refine ⟨hw.timeout, hw.maxSteps, hw.maxExprLen, ?_⟩
    rw [hs.level, hs.format]
    refine unless_eq_ok_iff.2 ⟨hknown.2 hw.encoding, ?_⟩
    rw [soleArgument_eq_ok_iff.2 hpositional]
    refine congrArg Except.ok ?_
    rw [← hs.timeout, ← hs.maxSteps, ← hs.maxExprLen, ← hs.encoding, ← hs.trace, ← hdump, ← hemit,
      ← hconfig]

namespace Disk

variable (d : Disk) (flags : Flags) (path : String) (env : Environment) (args : List String)

def configPath : String :=
  let named := flags.config.getD ""
  let path := Path.join "." ConfigFile.fileName
  if !named.isEmpty then named
  else match d.isDirectory path with
    | .ok false => path
    | _ => ""

def configFile : Except ConfigError (Option ConfigFile) :=
  if path.isEmpty then .ok none
  else match d.read path with
    | .error e => .error (.unreadable path e)
    | .ok content => (ConfigFile.parse path content).map some

def invoke : Except SettingsError Invocation :=
  (StateT.run (m := Id) (Invocation.ofArguments env args) d).1

theorem invoke_of_flag_error {e : FlagError} (h : Flags.parse args = .error e) :
    d.invoke env args = .error (.flag e) := by
  simp only [invoke, Invocation.ofArguments, h]
  rfl

theorem loadConfig_run :
    StateT.run (m := Id) (Invocation.loadConfig path) d = pure (d.configFile path, d) := by
  unfold Invocation.loadConfig configFile
  by_cases hpath : path.isEmpty = true
  · simp only [if_pos hpath]
    rfl
  · simp only [if_neg hpath, ConfigFile.load, FileSystem.read, StateT.run_bind, StateT.run_get,
      pure_bind]
    cases d.read path with
    | error e => rfl
    | ok content =>
        simp only [StateT.run_pure, pure_bind]
        cases ConfigFile.parse path content <;> rfl

theorem configPath_of_named (hnamed : (flags.config.getD "").isEmpty = false) :
    d.configPath flags = flags.config.getD "" := by
  simp only [configPath, hnamed, Bool.not_false, if_true]

theorem find_run (hnamed : (flags.config.getD "").isEmpty = true) :
    StateT.run (m := Id) (ConfigFile.find ".") d = pure (d.configPath flags, d) := by
  simp only [configPath, hnamed, ConfigFile.find, FileSystem.isDirectory, StateT.run_bind,
    StateT.run_get, pure_bind]
  rcases d.isDirectory (Path.join "." ConfigFile.fileName) with e | ⟨_ | _⟩ <;> rfl

theorem invoke_eq {positional : List String} {file : Option ConfigFile}
    (hparse : Flags.parse args = .ok (flags, positional)) (hhelp : flags.help.getD false = false)
    (hfile : d.configFile (d.configPath flags) = .ok file) :
    d.invoke env args = (Settings.check flags (d.configPath flags) positional
      (Wishes.gather flags env file)).map .run := by
  simp only [invoke, Invocation.ofArguments, hparse, hhelp, Bool.false_eq_true, if_false]
  cases hnamed : (flags.config.getD "").isEmpty with
  | true =>
      simp only [if_true, StateT.run_bind, find_run d flags hnamed, pure_bind, loadConfig_run,
        hfile]
      rfl
  | false =>
      rw [configPath_of_named d flags hnamed] at hfile ⊢
      simp only [Bool.false_eq_true, if_false, StateT.run_bind, pure_bind, loadConfig_run, hfile]
      rfl

end Disk

/-- Every setting of a command line is the effective one. If flags cannot be read, they are refused
whatever the environment and the files are. Otherwise the command line is accepted if the effective
values pass their checks and there is one program, and it gets these values. Environments and
files that differ only in values that are overridden give the same result. -/
theorem first_origin_decides (args : List String) :
    (∀ e, Flags.parse args = .error e →
      ∀ (env : Environment) (d : Disk), d.invoke env args = .error (.flag e)) ∧
    ∀ flags positional, Flags.parse args = .ok (flags, positional) →
      flags.help.getD false = false →
      ∃ given, Flags.Sets (reorder args) given positional ∧
        (∀ env (d : Disk) file, d.configFile (d.configPath flags) = .ok file →
          ∃ w : Wishes, (∀ x, Sources.Effective ⟨given, env, file⟩ x (w.value x)) ∧
            ∀ s, d.invoke env args = .ok (.run s) ↔
              w.Acceptable ∧ s.Follow w ∧ positional = [s.program] ∧
                s.dump = flags.dump.getD false ∧ s.emit = flags.emit.getD "" ∧
                s.config = d.configPath flags) ∧
        ∀ env env' (d d' : Disk) file file', d.configPath flags = d'.configPath flags →
          d.configFile (d.configPath flags) = .ok file →
          d'.configFile (d'.configPath flags) = .ok file' →
          Sources.DifferBelow ⟨given, env, file⟩ ⟨given, env', file'⟩ →
          d.invoke env args = d'.invoke env' args := by
  refine ⟨fun e he env d => d.invoke_of_flag_error env args he,
    fun flags positional hparse hhelp => ?_⟩
  obtain ⟨given, hsets, htells⟩ := Flags.exists_sets hparse
  refine ⟨given, hsets, fun env d file hfile => ?_, fun env env' d d' file file' hpath hfile hfile'
    hdiffer => ?_⟩
  · refine ⟨_, Sources.effective_gather htells env file, fun s => ?_⟩
    rw [d.invoke_eq flags env args hparse hhelp hfile, map_eq_ok, ← Settings.check_eq_ok_iff]
    simp only [Invocation.run.injEq, exists_eq_right]
  · have hsame : Wishes.gather flags env file = Wishes.gather flags env' file' := by
      apply Wishes.eq_of_value_eq
      intro x
      have heffective := (Sources.effective_gather htells env file x).of_differBelow hdiffer
      exact heffective.unique (Sources.effective_gather htells env' file' x)
    rw [d.invoke_eq flags env args hparse hhelp hfile,
      d'.invoke_eq flags env' args hparse hhelp hfile', hpath, hsame]

/-- A negative time limit in the file is no error where a flag overrides it, and neither it nor the
environment has a part in the result. -/
theorem overridden_timeout_is_harmless :
    let args := ["a.robo", "-t", "3", "--config=c"]
    let negative : Disk := { files := [(["c"], Text.bytes "timeout=-5")] }
    let plain : Disk := { files := [(["c"], [])] }
    negative.invoke { timeout := "9" } args = plain.invoke { timeout := "soon" } args ∧
      ∃ s, negative.invoke { timeout := "9" } args = .ok (.run s) ∧ s.timeout = .ofSeconds 3 := by
  intro args negative plain
  let flags : Flags := { timeout := some 3, config := some "c" }
  let c : ConfigFile := { path := "c", timeout := -5, keys := ["timeout"] }
  let c' : ConfigFile := { path := "c" }
  have hparse : Flags.parse args = .ok (flags, ["a.robo"]) := by decide +kernel
  have hc : ConfigFile.parse "c" (Text.bytes "timeout=-5") = .ok c := by decide +kernel
  have hfile : negative.configFile "c" = .ok (some c) := by
    have hread : negative.read "c" = .ok (Text.bytes "timeout=-5") := rfl
    simp only [Disk.configFile, hread, hc]
    rfl
  have hfile' : plain.configFile "c" = .ok (some c') := rfl
  obtain ⟨given, hsets, hone, htwo⟩ := (first_origin_decides args).2 _ _ hparse rfl
  have hordered : Flags.Sets (reorder args) [(.timeout, "3"), (.config, "c")] ["a.robo"] := by
    have horder : reorder args = ["-t", "3", "--config=c", "a.robo"] := by decide +kernel
    have ht : Flags.Known "-t" ⟨"t", none⟩ .timeout :=
      ⟨by decide +kernel, by decide +kernel, by decide⟩
    have hconfig : Flags.Known "--config=c" ⟨"config", some "c"⟩ .config :=
      ⟨by decide +kernel, by decide +kernel, by decide⟩
    rw [horder]
    exact .valued ht rfl (.whole hconfig rfl (.positional (by decide +kernel)))
  obtain rfl := hsets.unique hordered
  have hdiffer : Sources.DifferBelow ⟨[(.timeout, "3"), (.config, "c")], { timeout := "9" }, some c⟩
      ⟨[(.timeout, "3"), (.config, "c")], { timeout := "soon" }, some c'⟩ := by
    have hthree : Setting.timeout.Reads "3" (3 : Int64) := by
      change Text.readNumeral "3" = .ok 3
      decide +kernel
    refine Sources.differBelow_of_flag rfl (.flag rfl hthree) fun y hy => ?_
    cases y with
    | timeout => exact absurd rfl hy
    | _ => exact ⟨rfl, rfl⟩
  refine ⟨htwo _ _ _ _ _ _ rfl hfile hfile' hdiffer, ?_⟩
  have hwishes : Wishes.gather flags { timeout := "9" } (some c) =
      { Wishes.default with timeout := 3 } := by decide +kernel
  rw [negative.invoke_eq flags _ args hparse rfl hfile, hwishes]
  exact ⟨_, rfl, rfl⟩

end Tortoise
