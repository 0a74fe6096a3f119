import Tortoise.Proofs.Settings.Roles
import Mathlib.Data.Bool.Basic

/-!
# Arguments in order

Putting arguments in order moves them and does nothing else. `parts` says what each argument is
taken for; a flag that needs a value takes the argument behind it along. In the new order the
places of flags, values and `--` come first and those of positional arguments behind them, both from
left to right.

Arguments in order may be taken for something else than before, since a flag at the end takes a
positional argument as its value once that stands behind it. All the same they stay where they are.
-/

namespace Tortoise.Arguments

open Flags (roles_ended roles_positional rolesAfter_of_not_value rolesAfter_value
  beq_dashes_of_positional)

variable {arg next : String} {rest args : List String}

inductive Part where
  | flag
  /-- The value of the flag just before it. -/
  | value
  | dashes
  | positional
deriving DecidableEq

def parts : List String → List Part
  | [] => []
  | arg :: rest =>
    if arg = "--" then .dashes :: List.replicate rest.length .positional
    else if isFlagLike arg = false then .positional :: parts rest
    else if isComplete arg then .flag :: parts rest
    else match rest with
      | [] => [.flag]
      | next :: after =>
        if isValue next then .flag :: .value :: parts after else .flag :: parts (next :: after)

theorem length_parts (args : List String) : (parts args).length = args.length := by
  fun_induction parts args <;> simp_all

def ValuesFollow (ps : List Part) : Prop :=
  ∀ i, ps[i]? = some .value → ∃ j, i = j + 1 ∧ ps[j]? = some .flag

theorem ValuesFollow.cons {part : Part} {ps : List Part} (h : ValuesFollow ps)
    (hpart : part ≠ .value) : ValuesFollow (part :: ps) := by
  intro i hi
  cases i with
  | zero => exact absurd (Option.some.inj hi) hpart
  | succ i =>
      obtain ⟨j, rfl, hj⟩ := h i hi
      exact ⟨j + 1, rfl, hj⟩

theorem ValuesFollow.flag_value {ps : List Part} (h : ValuesFollow ps) :
    ValuesFollow (.flag :: .value :: ps) := by
  intro i hi
  match i with
  | 0 => cases hi
  | 1 => exact ⟨0, rfl, rfl⟩
  | i + 2 =>
      obtain ⟨j, rfl, hj⟩ := h i hi
      exact ⟨j + 2, rfl, hj⟩

theorem valuesFollow_parts (args : List String) : ValuesFollow (parts args) := by
  have hnone : ValuesFollow [] := fun i hi => nomatch hi
  fun_induction parts args with
  | case1 => exact hnone
  | case2 rest =>
      have hpositional : ValuesFollow (List.replicate rest.length .positional) := by
        intro i hi
        have hmem := List.mem_of_getElem? hi
        cases List.eq_of_mem_replicate hmem
      exact hpositional.cons nofun
  | case3 arg rest hne hflag ih => exact ih.cons nofun
  | case4 arg rest hne hflag hcomplete ih => exact ih.cons nofun
  | case5 arg hne hflag hcomplete => exact hnone.cons nofun
  | case6 arg hne hflag hcomplete next after hvalue ih => exact ih.flag_value
  | case7 arg hne hflag hcomplete next after hvalue ih => exact ih.cons nofun

def Roles.front (r : Roles) : List String := r.flags ++ if r.ended then ["--"] else []

@[simp] theorem Roles.front_addFlag (r : Roles) (arg : String) :
    (r.addFlag arg).front = arg :: r.front := rfl

@[simp] theorem Roles.front_addPositional (r : Roles) (arg : String) :
    (r.addPositional arg).front = r.front := rfl

@[simp] theorem Roles.positional_addFlag (r : Roles) (arg : String) :
    (r.addFlag arg).positional = r.positional := rfl

@[simp] theorem Roles.positional_addPositional (r : Roles) (arg : String) :
    (r.addPositional arg).positional = arg :: r.positional := rfl

theorem reorder_eq (args : List String) :
    reorder args = (roles args).front ++ (roles args).positional := rfl

theorem roles_flag (hne : arg ≠ "--") (hflag : isFlagLike arg = true) :
    roles (arg :: rest) = (rolesAfter (!isComplete arg) rest).addFlag arg := by
  simp [roles, rolesAfter, hflag, hne]

def pick (p : Part → Bool) (args : List String) (ps : List Part) : List String :=
  ((args.zip ps).filter (p ·.2)).map (·.1)

@[simp] theorem pick_cons (p : Part → Bool) (arg : String) (args : List String) (part : Part)
    (ps : List Part) :
    pick p (arg :: args) (part :: ps) =
      if p part then arg :: pick p args ps else pick p args ps := by
  cases hpart : p part <;> simp [pick, hpart]

theorem pick_replicate (p : Part → Bool) (args : List String) (part : Part) :
    pick p args (List.replicate args.length part) = if p part then args else [] := by
  induction args with
  | nil => simp [pick]
  | cons arg args ih =>
      rw [List.length_cons, List.replicate_succ, pick_cons, ih]
      cases p part <;> rfl

theorem roles_eq_pick (args : List String) :
    (roles args).front = pick (· != .positional) args (parts args) ∧
      (roles args).positional = pick (· == .positional) args (parts args) := by
  fun_induction parts args with
  | case1 => exact ⟨rfl, rfl⟩
  | case2 rest =>
      rw [roles_ended]
      simp [Roles.front, pick_replicate]
  | case3 arg rest hne hflag ih =>
      rw [roles_positional hflag]
      simpa using ih
  | case4 arg rest hne hflag hcomplete ih =>
      have hroles : roles (arg :: rest) = (roles rest).addFlag arg := by
        rw [roles_flag hne (Bool.eq_true_of_not_eq_false hflag), hcomplete]
        rfl
      rw [hroles]
      simpa using ih
  | case5 arg hne hflag hcomplete =>
      rw [roles_flag hne (Bool.eq_true_of_not_eq_false hflag)]
      exact ⟨rfl, rfl⟩
  | case6 arg hne hflag hcomplete next after hvalue ih =>
      rw [roles_flag hne (Bool.eq_true_of_not_eq_false hflag), Bool.eq_false_of_not_eq_true hcomplete,
        Bool.not_false, rolesAfter_value hvalue]
      simpa using ih
  | case7 arg hne hflag hcomplete next after hvalue ih =>
      have hnext : ∀ other ∈ (next :: after).head?, isValue other = false := by
        simpa using hvalue
      rw [roles_flag hne (Bool.eq_true_of_not_eq_false hflag), rolesAfter_of_not_value hnext]
      simpa using ih

def places (p : Part → Bool) (args : List String) : List Nat :=
  (List.range args.length).filter fun i => (parts args)[i]?.any p

theorem map_some_pick (p : Part → Bool) {args : List String} {ps : List Part}
    (h : ps.length = args.length) :
    (pick p args ps).map some =
      ((List.range args.length).filter fun i => ps[i]?.any p).map (args[·]?) := by
  induction args generalizing ps with
  | nil => simp [pick]
  | cons arg args ih =>
      cases ps with
      | nil => cases h
      | cons part ps =>
          have hrest := ih (Nat.succ.inj h)
          rw [List.length_cons, List.range_succ_eq_map, List.filter_cons, List.filter_map]
          cases hpart : p part <;> simp [hpart, hrest, Function.comp_def]

/-- Two neighbours that are both picked stay neighbours. -/
theorem pair_infix_filter_range {p : Nat → Bool} {i n : Nat} (hi : p i = true)
    (hnext : p (i + 1) = true) (hlt : i + 1 < n) : [i, i + 1] <:+: (List.range n).filter p := by
  obtain ⟨m, rfl⟩ : ∃ m, n = i + 1 + 1 + m := ⟨n - (i + 2), by omega⟩
  refine ⟨(List.range i).filter p, ((List.range m).map (i + 1 + 1 + ·)).filter p, ?_⟩
  rw [List.range_add, List.range_succ, List.range_succ, List.filter_append, List.filter_append,
    List.filter_append, List.append_assoc, List.append_assoc]
  simp [hi, hnext]

/-- The arguments of `args` rearranged: those at the places `front`, then those at `back`. -/
structure Rearranges (args result : List String) (front back : List Nat) : Prop where
  perm : (front ++ back).Perm (List.range args.length)
  result : result.map some = (front ++ back).map (args[·]?)
  front_increasing : front.Pairwise (· < ·)
  back_increasing : back.Pairwise (· < ·)
  front_parts : ∀ i ∈ front, (parts args)[i]? ≠ some .positional
  back_parts : ∀ i ∈ back, (parts args)[i]? = some .positional
  values : ∀ i, (parts args)[i]? = some .value →
    ∃ j, i = j + 1 ∧ (parts args)[j]? = some .flag ∧ [j, i] <:+: front

/-- Rearranged arguments are the same arguments. -/
theorem Rearranges.perm_args {result : List String} {front back : List Nat}
    (h : Rearranges args result front back) : result.Perm args := by
  have hall : (List.range args.length).map (args[·]?) = args.map some := by
    apply List.ext_getElem
    · simp
    · intro i hi hi'
      simp at hi
      simp [hi]
  have hsome : (result.map some).Perm (args.map some) := by
    rw [h.result, ← hall]
    exact h.perm.map _
  simpa using hsome.filterMap id

theorem rearranges_reorder (args : List String) :
    Rearranges args (reorder args) (places (· != .positional) args)
      (places (· == .positional) args) := by
  have hpick (p : Part → Bool) :
      (pick p args (parts args)).map some = (places p args).map (args[·]?) :=
    map_some_pick p (length_parts args)
  refine ⟨?_, ?_, List.pairwise_lt_range.filter _, List.pairwise_lt_range.filter _, ?_, ?_, ?_⟩
  · have hother : places (· == .positional) args =
        (List.range args.length).filter fun i => !(parts args)[i]?.any (· != .positional) := by
      refine List.filter_congr fun i hi => ?_
      rw [List.mem_range, ← length_parts args] at hi
      rw [List.getElem?_eq_getElem hi]
      cases (parts args)[i] <;> rfl
    rw [hother]
    exact List.filter_append_perm _ _
  · rw [reorder_eq, (roles_eq_pick args).1, (roles_eq_pick args).2, List.map_append,
      List.map_append, hpick, hpick]
  · intro i hi hpos
    simp [places, hpos] at hi
  · intro i hi
    have hany := (List.mem_filter.1 hi).2
    cases hpart : (parts args)[i]? with
    | none => simp [hpart] at hany
    | some part => simpa [hpart] using hany
  · intro i hi
    obtain ⟨j, rfl, hj⟩ := valuesFollow_parts args i hi
    refine ⟨j, rfl, hj, pair_infix_filter_range ?_ ?_ ?_⟩
    · simp [hj]
    · simp [hi]
    · rw [← length_parts args]
      exact (List.getElem?_eq_some_iff.1 hi).1

/-- None of the positional arguments looks like a flag, unless `--` ended the flags. -/
theorem isFlagLike_positional (pending : Bool) (args : List String)
    (h : (rolesAfter pending args).ended = false) :
    ∀ arg ∈ (rolesAfter pending args).positional, isFlagLike arg = false := by
  fun_induction rolesAfter pending args with
  | case1 => simp
  | case2 pending arg rest hvalue ih => exact ih h
  | case3 => cases h
  | case4 pending arg rest hvalue hne hflag ih => exact ih h
  | case5 pending arg rest hvalue hne hflag ih =>
      exact List.forall_mem_cons.2 ⟨Bool.eq_false_of_not_eq_true hflag, ih h⟩

/-- The flags of arguments are flags again, whatever stands behind them. -/
theorem exists_pending (pending : Bool) (args : List String) :
    ∃ pending', ∀ behind, rolesAfter pending ((rolesAfter pending args).flags ++ behind) =
      { rolesAfter pending' behind with
        flags := (rolesAfter pending args).flags ++ (rolesAfter pending' behind).flags } := by
  fun_induction rolesAfter pending args with
  | case1 pending => exact ⟨pending, fun behind => rfl⟩
  | case2 pending arg rest hvalue ih =>
      obtain ⟨pending', hbehind⟩ := ih
      refine ⟨pending', fun behind => ?_⟩
      simp [Roles.addFlag, rolesAfter, hvalue, hbehind]
  | case3 pending arg rest hvalue hne => exact ⟨pending, fun behind => rfl⟩
  | case4 pending arg rest hvalue hne hflag ih =>
      obtain ⟨pending', hbehind⟩ := ih
      refine ⟨pending', fun behind => ?_⟩
      simp [Roles.addFlag, rolesAfter, hvalue, hne, hflag, hbehind]
  | case5 pending arg rest hvalue hne hflag ih =>
      -- A flag that lacks its value would have taken the argument.
      obtain rfl : pending = false := by simpa [isValue, hflag] using hvalue
      exact ih

theorem roles_of_positional {positional : List String}
    (h : ∀ arg ∈ positional, isFlagLike arg = false) : roles positional = { positional } := by
  induction positional with
  | nil => rfl
  | cons arg positional ih =>
      obtain ⟨harg, hrest⟩ := List.forall_mem_cons.1 h
      rw [roles_positional harg, ih hrest]
      rfl

/-- Positional arguments stay where they are, even if a flag in front of them takes the first. -/
theorem rolesAfter_positional {positional : List String}
    (h : ∀ arg ∈ positional, isFlagLike arg = false) (pending : Bool) :
    (rolesAfter pending positional).ended = false ∧
      (rolesAfter pending positional).flags ++ (rolesAfter pending positional).positional =
        positional := by
  cases pending with
  | false =>
      have hroles : rolesAfter false positional = { positional } := roles_of_positional h
      rw [hroles]
      exact ⟨rfl, rfl⟩
  | true =>
      cases positional with
      | nil => exact ⟨rfl, rfl⟩
      | cons arg positional =>
          obtain ⟨harg, hrest⟩ := List.forall_mem_cons.1 h
          have hvalue : isValue arg = true := by simp [isValue, harg]
          rw [rolesAfter_value hvalue, roles_of_positional hrest]
          exact ⟨rfl, rfl⟩

theorem rolesAfter_dashes (pending : Bool) (rest : List String) :
    rolesAfter pending ("--" :: rest) = { positional := rest, ended := true } := by
  have hdashes : isValue "--" = false := by decide +kernel
  rw [rolesAfter_of_not_value (by simpa using hdashes), roles_ended]

/-- Arguments in order stay as they are. -/
theorem reorder_reorder (args : List String) : reorder (reorder args) = reorder args := by
  obtain ⟨pending, hbehind⟩ : ∃ pending, ∀ behind, roles ((roles args).flags ++ behind) =
      { rolesAfter pending behind with
        flags := (roles args).flags ++ (rolesAfter pending behind).flags } :=
    exists_pending false args
  cases hended : (roles args).ended with
  | true =>
      have horder : reorder args = (roles args).flags ++ "--" :: (roles args).positional := by
        simp [reorder, hended]
      rw [horder, reorder, hbehind, rolesAfter_dashes]
      simp
  | false =>
      have horder : reorder args = (roles args).flags ++ (roles args).positional := by
        simp [reorder, hended]
      have hpositional : (rolesAfter pending (roles args).positional).ended = false ∧
          (rolesAfter pending (roles args).positional).flags ++
            (rolesAfter pending (roles args).positional).positional = (roles args).positional :=
        rolesAfter_positional (isFlagLike_positional false args hended) pending
      rw [horder, reorder, hbehind]
      simp [hpositional]

/-- Putting arguments in order loses nothing and settles. The arguments are rearranged: flags, their
values and `--` keep their order, positional arguments keep theirs behind them, and each value stays
behind its flag. Arguments in order stay as they are. -/
theorem reordering_loses_nothing_and_settles (args : List String) :
    (reorder args).Perm args ∧
      (∃ front back, Rearranges args (reorder args) front back ∧
        (roles args).positional.map some = back.map (args[·]?)) ∧
      reorder (reorder args) = reorder args := by
  have hrearranged := rearranges_reorder args
  refine ⟨hrearranged.perm_args, ⟨_, _, hrearranged, ?_⟩, reorder_reorder args⟩
  rw [(roles_eq_pick args).2]
  exact map_some_pick _ (length_parts args)

end Tortoise.Arguments
