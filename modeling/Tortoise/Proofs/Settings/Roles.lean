import Tortoise.Proofs.Success
import Tortoise.Settings.Flags
import Mathlib.Data.List.TakeWhile

/-!
# The roles of arguments

Arguments are put in order before flags are read. `readFrom` reads them where they stand instead:
what follows a flag is its value, and everything else that is no flag is positional.

The two readings agree on `Settled` arguments. They part in two places. A flag that lacks its
value and stands last is followed by the first positional argument once that has been moved behind
it, and takes it. And `--h`, which needs no value, is not known as a switch when arguments are put
in order: a positional argument behind it is moved to the front as its value and ends the flags.
-/

namespace Tortoise.Flags
open Arguments

def readFrom (fs : Flags) : List String → Except FlagError (Flags × List String)
  | [] => .ok (fs, [])
  | arg :: rest =>
    if arg == "--" then .ok (fs, rest)
    else if !isFlagLike arg then do
      let (fs', positional) ← readFrom fs rest
      return (fs', arg :: positional)
    else do
      let s ← spelling arg
      match Flag.ofName? s.name with
      | none => throw (.unknown s.name)
      | some flag =>
        match s.value with
        | some value => readFrom (← fs.set flag s.name value) rest
        | none =>
          if flag.isSwitch then readFrom (← fs.set flag s.name "true") rest
          else match rest with
            | [] => throw (.noValue s.name)
            | value :: after => readFrom (← fs.set flag s.name value) after

structure Known (arg : String) (s : Spelling) (flag : Flag) : Prop where
  isFlagLike : isFlagLike arg = true
  spelling : spelling arg = .ok s
  name : Flag.ofName? s.name = some flag

def Spelling.isWhole (s : Spelling) (flag : Flag) : Bool := s.value.isSome || flag.isSwitch

theorem isFlagLike_iff {arg : String} :
    isFlagLike arg = true ↔ ∃ c cs, arg.toList = '-' :: c :: cs := by
  simp only [isFlagLike, Bool.and_eq_true, String.startsWith_string_iff, bne_iff_ne, ne_eq,
    ← String.toList_inj]
  rw [show "-".toList = ['-'] by decide]
  rcases arg.toList with _ | ⟨d, _ | ⟨c, cs⟩⟩ <;> simp [List.cons_prefix_cons, eq_comm]

/-- The text up to the first `=` and the text behind it. -/
theorem eq_append_behind (body : List Char) :
    body = body.takeWhile (· != '=') ++
      (match body.drop (body.takeWhile (· != '=')).length with
        | [] => none
        | _ :: value => some (String.ofList value)).elim [] (fun v => '=' :: v.toList) := by
  induction body with
  | nil => rfl
  | cons c body ih =>
      by_cases hc : c = '='
      · simp [hc]
      · simpa [hc] using ih

theorem not_mem_takeWhile_bne (body : List Char) : '=' ∉ body.takeWhile (· != '=') := by
  intro h
  simpa using List.mem_takeWhile_imp h

/-- How a flag is written. -/
theorem spelling_written {arg : String} {s : Spelling} (hflag : isFlagLike arg = true)
    (h : spelling arg = .ok s) :
    '=' ∉ s.name.toList ∧ ∃ dashes ∈ [['-'], ['-', '-']],
      arg.toList = dashes ++ s.name.toList ++ s.value.elim [] (fun v => '=' :: v.toList) := by
  obtain ⟨c, cs, harg⟩ := isFlagLike_iff.1 hflag
  by_cases hc : c = '-'
  · subst hc
    rcases cs with _ | ⟨d, ds⟩
    · simp [spelling, harg] at h
    · simp only [spelling, harg] at h
      split at h
      · cases h
      · obtain rfl := Except.ok.inj h
        refine ⟨by simp [not_mem_takeWhile_bne], ['-', '-'], by simp, ?_⟩
        rw [harg, String.toList_ofList, List.append_assoc]
        exact congrArg (['-', '-'] ++ ·) (eq_append_behind (d :: ds))
  · simp only [spelling, harg, List.cons.injEq, hc, false_and, imp_false,
      not_false_eq_true, implies_true] at h
    split at h
    · cases h
    · obtain rfl := Except.ok.inj h
      refine ⟨by simp [not_mem_takeWhile_bne], ['-'], by simp, ?_⟩
      rw [harg, String.toList_ofList, List.append_assoc]
      exact congrArg (['-'] ++ ·) (eq_append_behind (c :: cs))

theorem mem_names {name : String} {flag : Flag} (h : Flag.ofName? name = some flag) :
    (name, flag) ∈ Flag.names := by
  obtain ⟨_, _, hnames, -⟩ := List.lookup_eq_some_iff.1 h
  rw [hnames]
  exact List.mem_append_right _ List.mem_cons_self

theorem head_of_mem_names :
    ∀ p ∈ Flag.names, p.1.toList.head?.any (fun c => !c.isDigit) = true := by
  decide

/-- A switch is passed over when arguments are put in order, but for one of its spellings. -/
theorem switches_of_mem_names : ∀ p ∈ Flag.names, ∀ dashes ∈ [['-'], ['-', '-']],
    switches.contains (String.ofList (dashes ++ p.1.toList)) =
      (p.2.isSwitch && String.ofList (dashes ++ p.1.toList) != "--h") := by
  decide

namespace Known

variable {arg : String} {s : Spelling} {flag : Flag}

theorem beq_dashes (h : Known arg s flag) : (arg == "--") = false := by
  rw [beq_eq_false_iff_ne]
  rintro rfl
  have hdashes : Flags.spelling "--" = .error (.badSyntax "--") := by decide +kernel
  simpa [hdashes] using h.spelling

/-- A flag is not taken for the value of another one. -/
theorem isValue_eq_false (h : Known arg s flag) : isValue arg = false := by
  obtain ⟨-, dashes, hdashes, harg⟩ := spelling_written h.isFlagLike h.spelling
  have hhead := head_of_mem_names _ (mem_names h.name)
  obtain ⟨c, cs, hname⟩ : ∃ c cs, s.name.toList = c :: cs := by
    cases hname : s.name.toList with
    | nil => simp [hname] at hhead
    | cons c cs => exact ⟨c, cs, rfl⟩
  have hc : c.isDigit = false := by simpa [hname] using hhead
  have hdash : '-'.isDigit = false := by decide
  simp only [isValue, h.isFlagLike, isNumber, Text.readDecimal, harg, hname]
  simp only [List.mem_cons, List.not_mem_nil, or_false] at hdashes
  rcases hdashes with rfl | rfl
  · simp [Text.sign, hc, Except.isOk, Except.toBool]
  · simp [Text.sign, hdash, Except.isOk, Except.toBool]

theorem isComplete_of_value {value : String} (h : Known arg s flag) (hvalue : s.value = some value) :
    isComplete arg = true := by
  obtain ⟨-, dashes, -, harg⟩ := spelling_written h.isFlagLike h.spelling
  simp [isComplete, harg, hvalue]

theorem isComplete_of_bare (h : Known arg s flag) (hvalue : s.value = none) :
    isComplete arg = (flag.isSwitch && arg != "--h") := by
  obtain ⟨hname, dashes, hdashes, harg⟩ := spelling_written h.isFlagLike h.spelling
  rw [hvalue, Option.elim_none, List.append_nil] at harg
  have hequals : '=' ∉ arg.toList := by
    have hdash : '=' ∉ dashes := by
      simp only [List.mem_cons, List.not_mem_nil, or_false] at hdashes
      rcases hdashes with rfl | rfl <;> decide
    simp [harg, hdash, hname]
  have hwritten : arg = String.ofList (dashes ++ s.name.toList) := by
    rw [← harg, String.ofList_toList]
  have hswitch := switches_of_mem_names _ (mem_names h.name) dashes hdashes
  have hcontains : arg.toList.contains '=' = false := by simpa using hequals
  rw [isComplete, hcontains, Bool.false_or, hwritten]
  exact hswitch

end Known

variable {arg value : String} {rest : List String} {s : Spelling} {flag : Flag}

theorem parseFrom_whole (h : Known arg s flag) (hwhole : s.isWhole flag = true) (fs : Flags) :
    parseFrom fs (arg :: rest) =
      fs.set flag s.name (s.value.getD "true") >>= fun fs' => parseFrom fs' rest := by
  rw [parseFrom]
  simp only [h.isFlagLike, h.beq_dashes, h.spelling, h.name, bind, Except.bind]
  cases hvalue : s.value with
  | none => simp_all [Spelling.isWhole]
  | some value => simp

theorem readFrom_whole (h : Known arg s flag) (hwhole : s.isWhole flag = true) (fs : Flags) :
    readFrom fs (arg :: rest) =
      fs.set flag s.name (s.value.getD "true") >>= fun fs' => readFrom fs' rest := by
  rw [readFrom]
  simp only [h.isFlagLike, h.beq_dashes, h.spelling, h.name, bind, Except.bind]
  cases hvalue : s.value with
  | none => simp_all [Spelling.isWhole]
  | some value => simp

theorem parseFrom_partial (h : Known arg s flag) (hwhole : s.isWhole flag = false) (fs : Flags) :
    parseFrom fs (arg :: rest) = match rest with
      | [] => .error (.noValue s.name)
      | value :: after => fs.set flag s.name value >>= fun fs' => parseFrom fs' after := by
  obtain ⟨hvalue, hswitch⟩ : s.value = none ∧ flag.isSwitch = false := by
    simpa [Spelling.isWhole] using hwhole
  rw [parseFrom]
  simp only [h.isFlagLike, h.beq_dashes, h.spelling, h.name, hvalue, hswitch, bind, Except.bind]
  rcases rest with _ | ⟨value, after⟩
  · simp [throw, throwThe, MonadExceptOf.throw]
  · simp

theorem readFrom_partial (h : Known arg s flag) (hwhole : s.isWhole flag = false) (fs : Flags) :
    readFrom fs (arg :: rest) = match rest with
      | [] => .error (.noValue s.name)
      | value :: after => fs.set flag s.name value >>= fun fs' => readFrom fs' after := by
  obtain ⟨hvalue, hswitch⟩ : s.value = none ∧ flag.isSwitch = false := by
    simpa [Spelling.isWhole] using hwhole
  rw [readFrom]
  simp only [h.isFlagLike, h.beq_dashes, h.spelling, h.name, hvalue, hswitch, bind, Except.bind]
  rcases rest with _ | ⟨value, after⟩
  · simp [throw, throwThe, MonadExceptOf.throw]
  · simp

/-- Known flags, each followed by its value, among positional arguments. Only the last flag may
lack its value. -/
inductive Proper : List String → Prop
  | nil : Proper []
  | ended (rest : List String) : Proper ("--" :: rest)
  | positional {arg : String} {rest : List String} (harg : isFlagLike arg = false)
      (hrest : Proper rest) : Proper (arg :: rest)
  | whole {arg : String} {s : Spelling} {flag : Flag} {rest : List String} (h : Known arg s flag)
      (hwhole : s.isWhole flag = true) (hrest : Proper rest) : Proper (arg :: rest)
  | valued {arg : String} {s : Spelling} {flag : Flag} {value : String} {rest : List String}
      (h : Known arg s flag) (hwhole : s.isWhole flag = false) (hvalue : isValue value = true)
      (hrest : Proper rest) : Proper (arg :: value :: rest)
  | last {arg : String} {s : Spelling} {flag : Flag} (h : Known arg s flag)
      (hwhole : s.isWhole flag = false) : Proper [arg]

/-- Proper arguments in which no flag lacks its value and no positional argument follows `--h`. -/
inductive Settled : List String → Prop
  | nil : Settled []
  | ended (rest : List String) : Settled ("--" :: rest)
  | positional {arg : String} {rest : List String} (harg : isFlagLike arg = false)
      (hrest : Settled rest) : Settled (arg :: rest)
  | whole {arg : String} {s : Spelling} {flag : Flag} {rest : List String} (h : Known arg s flag)
      (hwhole : s.isWhole flag = true)
      (hnext : arg = "--h" → ∀ next ∈ rest.head?, isFlagLike next = true) (hrest : Settled rest) :
      Settled (arg :: rest)
  | valued {arg : String} {s : Spelling} {flag : Flag} {value : String} {rest : List String}
      (h : Known arg s flag) (hwhole : s.isWhole flag = false) (hvalue : isValue value = true)
      (hrest : Settled rest) : Settled (arg :: value :: rest)

variable {args front behind : List String} {fs : Flags}

theorem roles_ended : roles ("--" :: rest) = { positional := rest, ended := true } := by
  simp [roles, rolesAfter]

theorem beq_dashes_of_positional (harg : isFlagLike arg = false) : (arg == "--") = false := by
  rw [beq_eq_false_iff_ne]
  rintro rfl
  have hdashes : isFlagLike "--" = true := by decide +kernel
  simp [hdashes] at harg

theorem roles_positional (harg : isFlagLike arg = false) :
    roles (arg :: rest) = (roles rest).addPositional arg := by
  simp [roles, rolesAfter, harg, beq_dashes_of_positional harg]

theorem rolesAfter_of_not_value {pending : Bool} (h : ∀ next ∈ rest.head?, isValue next = false) :
    rolesAfter pending rest = roles rest := by
  rcases rest with _ | ⟨next, rest⟩
  · simp [roles, rolesAfter]
  · have hnext : isValue next = false := h next rfl
    simp [roles, rolesAfter, hnext]

theorem roles_whole_of (h : Known arg s flag) (hwhole : s.isWhole flag = true)
    (hnext : arg = "--h" → ∀ next ∈ rest.head?, isValue next = false) :
    roles (arg :: rest) = (roles rest).addFlag arg := by
  have hroles : roles (arg :: rest) = (rolesAfter (!isComplete arg) rest).addFlag arg := by
    simp [roles, rolesAfter, h.isFlagLike, h.beq_dashes]
  by_cases harg : arg = "--h"
  · rw [hroles, rolesAfter_of_not_value (hnext harg)]
  · have hcomplete : isComplete arg = true := by
      cases hvalue : s.value with
      | none =>
          rw [h.isComplete_of_bare hvalue]
          simpa [Spelling.isWhole, hvalue, harg] using hwhole
      | some value => exact h.isComplete_of_value hvalue
    rw [hroles, hcomplete]
    rfl

theorem roles_partial (h : Known arg s flag) (hwhole : s.isWhole flag = false) :
    roles (arg :: rest) = (rolesAfter true rest).addFlag arg := by
  obtain ⟨hvalue, hswitch⟩ : s.value = none ∧ flag.isSwitch = false := by
    simpa [Spelling.isWhole] using hwhole
  have hcomplete : isComplete arg = false := by rw [h.isComplete_of_bare hvalue, hswitch]; rfl
  simp [roles, rolesAfter, h.isFlagLike, h.beq_dashes, hcomplete]

theorem rolesAfter_value (hvalue : isValue value = true) :
    rolesAfter true (value :: rest) = (roles rest).addFlag value := by
  simp [roles, rolesAfter, hvalue]

/-- A flag in front of proper arguments takes none that looks like a flag. -/
theorem Proper.isValue_head (h : Proper args) {next : String} (hnext : next ∈ args.head?)
    (hflag : isFlagLike next = true) : isValue next = false := by
  cases h with
  | nil => cases hnext
  | ended rest =>
      obtain rfl := Option.some.inj hnext
      decide +kernel
  | positional harg hrest =>
      obtain rfl := Option.some.inj hnext
      simp [harg] at hflag
  | whole h hwhole hrest =>
      obtain rfl := Option.some.inj hnext
      exact h.isValue_eq_false
  | valued h hwhole hvalue hrest =>
      obtain rfl := Option.some.inj hnext
      exact h.isValue_eq_false
  | last h hwhole =>
      obtain rfl := Option.some.inj hnext
      exact h.isValue_eq_false

theorem Settled.proper (h : Settled args) : Proper args := by
  induction h with
  | nil => exact .nil
  | ended rest => exact .ended rest
  | positional harg hrest ih => exact .positional harg ih
  | whole h hwhole hnext hrest ih => exact .whole h hwhole ih
  | valued h hwhole hvalue hrest ih => exact .valued h hwhole hvalue ih

theorem Settled.roles_whole (hrest : Settled rest) (h : Known arg s flag)
    (hwhole : s.isWhole flag = true)
    (hnext : arg = "--h" → ∀ next ∈ rest.head?, isFlagLike next = true) :
    roles (arg :: rest) = (roles rest).addFlag arg := by
  apply roles_whole_of h hwhole
  intro harg next hin
  exact hrest.proper.isValue_head hin (hnext harg next hin)

/-- The roles of arguments behind one another. -/
theorem Settled.roles_append (h : Settled front) (hended : (roles front).ended = false)
    (hbehind : ∀ next ∈ behind.head?, isValue next = false) :
    roles (front ++ behind) =
      { flags := (roles front).flags ++ (roles behind).flags
        positional := (roles front).positional ++ (roles behind).positional
        ended := (roles behind).ended } := by
  induction h with
  | nil => simp [roles, rolesAfter]
  | ended rest => simp [roles_ended] at hended
  | positional harg hrest ih =>
      rw [roles_positional harg] at hended ⊢
      rw [List.cons_append, roles_positional harg, ih hended]
      rfl
  | @whole arg s flag rest h hwhole hnext hrest ih =>
      have happend : arg = "--h" → ∀ next ∈ (rest ++ behind).head?, isValue next = false := by
        intro harg next hin
        cases rest with
        | nil => exact hbehind next hin
        | cons first rest => exact hrest.proper.isValue_head hin (hnext harg next hin)
      rw [hrest.roles_whole h hwhole hnext] at hended ⊢
      rw [List.cons_append, roles_whole_of h hwhole happend, ih hended]
      rfl
  | valued h hwhole hvalue hrest ih =>
      rw [roles_partial h hwhole, rolesAfter_value hvalue] at hended ⊢
      rw [List.cons_append, List.cons_append, roles_partial h hwhole, rolesAfter_value hvalue,
        ih hended]
      rfl

theorem readFrom_positional (harg : isFlagLike arg = false) :
    readFrom fs (arg :: rest) = (readFrom fs rest).map fun r => (r.1, arg :: r.2) := by
  rw [readFrom]
  simp only [beq_dashes_of_positional harg, harg]
  cases readFrom fs rest <;> rfl

theorem parseFrom_positional (h : ∀ arg ∈ args, isFlagLike arg = false) :
    parseFrom fs args = .ok (fs, args) := by
  cases args with
  | nil => rfl
  | cons arg rest => simp [parseFrom, h arg List.mem_cons_self]

theorem parseFrom_dashes : parseFrom fs ("--" :: rest) = .ok (fs, rest) := by
  have hdashes : isFlagLike "--" = true := by decide +kernel
  simp [parseFrom, hdashes]

/-- The flags of arguments in order are read as they are in place. -/
theorem Settled.parseFrom_flags (h : Settled args) (fs : Flags) (behind : List String) :
    parseFrom fs ((roles args).flags ++ behind) =
      readFrom fs args >>= fun r => parseFrom r.1 behind := by
  induction h generalizing fs with
  | nil => rfl
  | ended rest => simp [roles_ended, readFrom, bind, Except.bind]
  | positional harg hrest ih =>
      rw [roles_positional harg, readFrom_positional harg]
      refine (ih fs).trans ?_
      cases readFrom fs _ <;> rfl
  | whole h hwhole hnext hrest ih =>
      rw [hrest.roles_whole h hwhole hnext]
      simp only [Roles.addFlag, List.cons_append, parseFrom_whole h hwhole,
        readFrom_whole h hwhole, ih, bind_assoc]
  | valued h hwhole hvalue hrest ih =>
      rw [roles_partial h hwhole, rolesAfter_value hvalue]
      simp only [Roles.addFlag, List.cons_append, parseFrom_partial h hwhole,
        readFrom_partial h hwhole, ih, bind_assoc]

/-- Reading in place finds the positional arguments. -/
theorem Settled.positional_eq (h : Settled args) {fs' : Flags} {positional : List String}
    (hread : readFrom fs args = .ok (fs', positional)) : positional = (roles args).positional := by
  induction h generalizing fs positional with
  | nil => cases hread; rfl
  | ended rest =>
      simp only [readFrom, beq_self_eq_true, if_true, Except.ok.injEq, Prod.mk.injEq] at hread
      rw [roles_ended, hread.2]
  | positional harg hrest ih =>
      rw [readFrom_positional harg] at hread
      obtain ⟨⟨fs₁, positional₁⟩, hread₁, heq⟩ := map_eq_ok.1 hread
      obtain ⟨rfl, rfl⟩ := Prod.mk.inj heq
      rw [roles_positional harg, ih hread₁]
      rfl
  | whole h hwhole hnext hrest ih =>
      rw [readFrom_whole h hwhole] at hread
      obtain ⟨fs₁, -, hread⟩ := bind_eq_ok.1 hread
      rw [hrest.roles_whole h hwhole hnext]
      exact ih hread
  | valued h hwhole hvalue hrest ih =>
      rw [readFrom_partial h hwhole] at hread
      obtain ⟨fs₁, -, hread⟩ := bind_eq_ok.1 hread
      rw [roles_partial h hwhole, rolesAfter_value hvalue]
      exact ih hread

theorem Settled.isFlagLike_positional (h : Settled args) (hended : (roles args).ended = false) :
    ∀ arg ∈ (roles args).positional, isFlagLike arg = false := by
  induction h with
  | nil => simp [roles, rolesAfter]
  | ended rest => simp [roles_ended] at hended
  | positional harg hrest ih =>
      rw [roles_positional harg] at hended ⊢
      exact List.forall_mem_cons.2 ⟨harg, ih hended⟩
  | whole h hwhole hnext hrest ih =>
      rw [hrest.roles_whole h hwhole hnext] at hended ⊢
      exact ih hended
  | valued h hwhole hvalue hrest ih =>
      rw [roles_partial h hwhole, rolesAfter_value hvalue] at hended ⊢
      exact ih hended

/-- Reading in place goes on behind what it has read. -/
theorem Settled.readFrom_append (h : Settled front) (hended : (roles front).ended = false)
    (fs : Flags) : readFrom fs (front ++ behind) =
      readFrom fs front >>= fun r => (readFrom r.1 behind).map fun r' => (r'.1, r.2 ++ r'.2) := by
  induction h generalizing fs with
  | nil => cases hread : readFrom fs behind <;> simp [readFrom, hread, bind, Except.bind, Except.map]
  | ended rest => simp [roles_ended] at hended
  | positional harg hrest ih =>
      rw [roles_positional harg] at hended
      rw [List.cons_append, readFrom_positional harg, readFrom_positional harg, ih hended]
      rcases readFrom fs _ with e | ⟨fs', positional⟩
      · rfl
      · simp only [Except.map, bind, Except.bind]
        cases readFrom fs' behind <;> rfl
  | whole h hwhole hnext hrest ih =>
      rw [hrest.roles_whole h hwhole hnext] at hended
      simp only [List.cons_append, readFrom_whole h hwhole, ih hended, bind_assoc]
  | valued h hwhole hvalue hrest ih =>
      rw [roles_partial h hwhole, rolesAfter_value hvalue] at hended
      simp only [List.cons_append, readFrom_partial h hwhole, ih hended, bind_assoc]

/-- Proper arguments are settled up to the first place where the two readings may part. -/
theorem Proper.settled_or (h : Proper args) : Settled args ∨
    ∃ front, Settled front ∧ (roles front).ended = false ∧
      ((∃ arg s flag, Known arg s flag ∧ s.isWhole flag = false ∧ args = front ++ [arg]) ∨
        ∃ next rest, isFlagLike next = false ∧ args = front ++ "--h" :: next :: rest) := by
  induction h with
  | nil => exact .inl .nil
  | ended rest => exact .inl (.ended rest)
  | positional harg hrest ih =>
      obtain hrest | ⟨front, hfront, hended, hparts⟩ := ih
      · exact .inl (.positional harg hrest)
      · refine .inr ⟨_ :: front, .positional harg hfront, by rwa [roles_positional harg], ?_⟩
        simpa using hparts
  | @whole arg s flag rest h hwhole hrest ih =>
      by_cases hnext : arg = "--h" → ∀ next ∈ rest.head?, isFlagLike next = true
      · obtain hrest | ⟨front, hfront, hended, hparts⟩ := ih
        · exact .inl (.whole h hwhole hnext hrest)
        · have hfront' : arg = "--h" → ∀ next ∈ front.head?, isFlagLike next = true := by
            intro harg next hin
            apply hnext harg
            rcases front with _ | ⟨first, front⟩
            · cases hin
            · rcases hparts with ⟨_, _, _, _, _, rfl⟩ | ⟨_, _, _, rfl⟩ <;> exact hin
          refine .inr ⟨arg :: front, .whole h hwhole hfront' hfront, ?_, by simpa using hparts⟩
          rwa [hfront.roles_whole h hwhole hfront']
      · obtain ⟨rfl, next, hin, hflag⟩ : arg = "--h" ∧ ∃ next ∈ rest.head?,
            isFlagLike next = false := by
          simpa using hnext
        obtain ⟨rest, rfl⟩ := List.head?_eq_some_iff.1 hin
        exact .inr ⟨[], .nil, rfl, .inr ⟨next, rest, hflag, rfl⟩⟩
  | valued h hwhole hvalue hrest ih =>
      obtain hrest | ⟨front, hfront, hended, hparts⟩ := ih
      · exact .inl (.valued h hwhole hvalue hrest)
      · refine .inr ⟨_ :: _ :: front, .valued h hwhole hvalue hfront, ?_, by simpa using hparts⟩
        rwa [roles_partial h hwhole, rolesAfter_value hvalue]
  | last h hwhole => exact .inr ⟨[], .nil, rfl, .inl ⟨_, _, _, h, hwhole, rfl⟩⟩

theorem Settled.parse_eq (h : Settled args) : parse args = readFrom {} args := by
  rw [parse, reorder, List.append_assoc, h.parseFrom_flags]
  cases hread : readFrom {} args with
  | error e => rfl
  | ok r =>
      obtain ⟨fs, positional⟩ := r
      rw [h.positional_eq hread]
      cases hended : (roles args).ended with
      | true => exact parseFrom_dashes
      | false => exact parseFrom_positional (h.isFlagLike_positional hended)

/-- A flag that lacks its value takes the first positional argument. -/
theorem Settled.parse_last (h : Settled front) (hended : (roles front).ended = false)
    (harg : Known arg s flag) (hwhole : s.isWhole flag = false) :
    parse (front ++ [arg]) = readFrom {} front >>= fun r => match r.2 with
      | [] => .error (.noValue s.name)
      | value :: others => (r.1.set flag s.name value).map fun fs => (fs, others) := by
  have hroles : roles [arg] = { flags := [arg] } := roles_partial harg hwhole
  have hbehind : ∀ next ∈ [arg].head?, isValue next = false := by
    simpa using harg.isValue_eq_false
  rw [parse, reorder, h.roles_append hended hbehind, hroles]
  simp only [Bool.false_eq_true, if_false, List.append_nil, List.append_assoc,
    List.singleton_append]
  rw [h.parseFrom_flags]
  cases hread : readFrom {} front with
  | error e => rfl
  | ok r =>
      obtain ⟨fs, positional⟩ := r
      have hpositional := h.isFlagLike_positional hended
      rw [← h.positional_eq hread] at hpositional ⊢
      refine (parseFrom_partial harg hwhole fs).trans ?_
      cases positional with
      | nil => rfl
      | cons value positional =>
          simp only [bind, Except.bind]
          cases fs.set flag s.name value with
          | error e => rfl
          | ok fs' => exact parseFrom_positional (List.forall_mem_cons.1 hpositional).2

theorem known_help : Known "--h" ⟨"h", none⟩ .help where
  isFlagLike := by decide +kernel
  spelling := by decide +kernel
  name := by decide

theorem set_help : fs.set .help "h" ((none : Option String).getD "true") =
    .ok { fs with help := some true } := by
  rfl

/-- A positional argument behind `--h` ends the flags. -/
theorem Settled.parse_help (h : Settled front) (hended : (roles front).ended = false)
    {next : String} (hnext : isFlagLike next = false) :
    parse (front ++ "--h" :: next :: rest) = (readFrom {} front).map fun r =>
      ({ r.1 with help := some true }, next :: ((roles rest).flags ++
        (if (roles rest).ended then ["--"] else []) ++ (r.2 ++ (roles rest).positional))) := by
  have hvalue : isValue next = true := by simp [isValue, hnext]
  have hroles : roles ("--h" :: next :: rest) = ((roles rest).addFlag next).addFlag "--h" := by
    have hcomplete : isComplete "--h" = false := by decide
    rw [← rolesAfter_value hvalue]
    simp [roles, rolesAfter, known_help.isFlagLike, known_help.beq_dashes, hcomplete]
  have hbehind : ∀ arg ∈ ("--h" :: next :: rest).head?, isValue arg = false := by
    simpa using known_help.isValue_eq_false
  rw [parse, reorder, h.roles_append hended hbehind, hroles]
  simp only [Roles.addFlag, List.append_assoc, List.cons_append]
  rw [h.parseFrom_flags]
  cases hread : readFrom {} front with
  | error e => rfl
  | ok r =>
      obtain ⟨fs, positional⟩ := r
      rw [← h.positional_eq hread]
      refine (parseFrom_whole known_help rfl fs).trans ?_
      rw [set_help]
      simp only [bind, Except.bind, parseFrom, hnext, Except.map]
      rfl

theorem readFrom_help {next : String} (hnext : isFlagLike next = false) :
    readFrom fs ("--h" :: next :: rest) = (readFrom { fs with help := some true } rest).map
      fun r => (r.1, next :: r.2) := by
  refine (readFrom_whole known_help rfl fs).trans ?_
  rw [set_help]
  exact readFrom_positional hnext

/-- Whether arguments are read in order or in place makes no difference if they are settled. If
they are not, then either the last flag takes the first positional argument instead of being
refused, or the arguments behind one that follows `--h` are left unread. -/
theorem arguments_keep_roles (h : Proper args) :
    (Settled args → parse args = readFrom {} args) ∧
    (¬ Settled args → ∃ front, Settled front ∧ (roles front).ended = false ∧
      ((∃ arg s flag, Known arg s flag ∧ s.isWhole flag = false ∧ args = front ++ [arg] ∧
          readFrom {} args = (readFrom {} front >>= fun _ => .error (.noValue s.name)) ∧
          parse args = readFrom {} front >>= fun r => match r.2 with
            | [] => .error (.noValue s.name)
            | value :: others => (r.1.set flag s.name value).map fun fs => (fs, others)) ∨
        ∃ next rest, isFlagLike next = false ∧ args = front ++ "--h" :: next :: rest ∧
          readFrom {} args = (readFrom {} front >>= fun r =>
            (readFrom { r.1 with help := some true } rest).map fun r' =>
              (r'.1, r.2 ++ next :: r'.2)) ∧
          parse args = (readFrom {} front).map fun r =>
            ({ r.1 with help := some true }, next :: ((roles rest).flags ++
              (if (roles rest).ended then ["--"] else []) ++
              (r.2 ++ (roles rest).positional))))) := by
  refine ⟨Settled.parse_eq, fun hnot => ?_⟩
  obtain hsettled | ⟨front, hfront, hended, hparts⟩ := h.settled_or
  · exact absurd hsettled hnot
  refine ⟨front, hfront, hended, ?_⟩
  obtain ⟨arg, s, flag, harg, hwhole, rfl⟩ | ⟨next, rest, hnext, rfl⟩ := hparts
  · refine .inl ⟨arg, s, flag, harg, hwhole, rfl, ?_, hfront.parse_last hended harg hwhole⟩
    simp only [hfront.readFrom_append hended, readFrom_partial harg hwhole, Except.map]
  · refine .inr ⟨next, rest, hnext, rfl, ?_, hfront.parse_help hended hnext⟩
    rw [hfront.readFrom_append hended]
    congr 1
    funext r
    rw [readFrom_help hnext]
    cases readFrom _ rest <;> rfl

/-- An integer is a value though it looks like a flag, and arguments behind `--` are left alone. -/
theorem mixed_arguments_keep_roles :
    parse ["a.robo", "-t", "-5", "--h", "--dump=1", "b.robo", "--", "-x"] =
        readFrom {} ["a.robo", "-t", "-5", "--h", "--dump=1", "b.robo", "--", "-x"] ∧
      readFrom {} ["a.robo", "-t", "-5", "--h", "--dump=1", "b.robo", "--", "-x"] =
        .ok ({ timeout := some (-5), help := some true, dump := some true },
          ["a.robo", "b.robo", "-x"]) := by
  have htimeout : Known "-t" ⟨"t", none⟩ .timeout := ⟨by decide +kernel, by decide +kernel, by decide⟩
  have hdump : Known "--dump=1" ⟨"dump", some "1"⟩ .dump := ⟨by decide +kernel, by decide +kernel, by decide⟩
  have hsettled : Settled ["a.robo", "-t", "-5", "--h", "--dump=1", "b.robo", "--", "-x"] := by
    apply Settled.positional (by decide +kernel)
    apply Settled.valued htimeout (by decide) (by decide +kernel)
    apply Settled.whole known_help (by decide) (by simpa using hdump.isFlagLike)
    apply Settled.whole hdump (by decide) (by decide)
    exact .positional (by decide +kernel) (.ended _)
  exact ⟨(arguments_keep_roles hsettled.proper).1 hsettled, by decide +kernel⟩

/-- The path that the last flag lacks is taken from the programs, and a flag is taken for one. -/
theorem roles_change_in_order :
    (Proper ["a.robo", "b.robo", "--emit"] ∧
      readFrom {} ["a.robo", "b.robo", "--emit"] = .error (.noValue "emit") ∧
      parse ["a.robo", "b.robo", "--emit"] = .ok ({ emit := some "a.robo" }, ["b.robo"])) ∧
    Proper ["--h", "a.robo", "--dump"] ∧
      readFrom {} ["--h", "a.robo", "--dump"] =
        .ok ({ help := some true, dump := some true }, ["a.robo"]) ∧
      parse ["--h", "a.robo", "--dump"] = .ok ({ help := some true }, ["a.robo", "--dump"]) := by
  have hemit : Known "--emit" ⟨"emit", none⟩ .emit := ⟨by decide +kernel, by decide +kernel, by decide⟩
  have hdump : Known "--dump" ⟨"dump", none⟩ .dump := ⟨by decide +kernel, by decide +kernel, by decide⟩
  refine ⟨⟨?_, by decide +kernel, by decide +kernel⟩, ?_, by decide +kernel, by decide +kernel⟩
  · exact .positional (by decide +kernel) (.positional (by decide +kernel) (.last hemit (by decide)))
  · apply Proper.whole known_help (by decide)
    exact .positional (by decide +kernel) (.whole hdump (by decide) .nil)

end Tortoise.Flags
