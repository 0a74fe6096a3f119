import Tortoise.Machine.Env
import Tortoise.Proofs.Compile.Tree
import Tortoise.Proofs.Expr.Plain

/-!
# Visible variables and counters

Users see the variables whose names are not hidden. Counters are hidden, identifiers are not, and
counters of different depths have different names; so what a program does to one does not touch
the other.
-/

namespace Tortoise

namespace Env

variable {name other : Text} {value : Int64}

theorem lookup_setEntry_self (entries : List (Text × Int64)) :
    (setEntry name value entries).lookup name = some value := by
  induction entries with
  | nil => simp [setEntry]
  | cons entry rest ih =>
      obtain ⟨key, old⟩ := entry
      by_cases hkey : name = key
      · simp [setEntry, hkey]
      · have hne : (name == key) = false := by simpa using hkey
        simp [setEntry, hkey, List.lookup_cons, hne, ih]

theorem lookup_setEntry_of_ne (entries : List (Text × Int64)) (h : other ≠ name) :
    (setEntry name value entries).lookup other = entries.lookup other := by
  have hne : (other == name) = false := by simpa using h
  induction entries with
  | nil => simp [setEntry, List.lookup_cons, hne]
  | cons entry rest ih =>
      obtain ⟨key, old⟩ := entry
      by_cases hkey : name = key
      · subst hkey
        simp [setEntry, List.lookup_cons, hne]
      · simp [setEntry, hkey, List.lookup_cons, ih]

theorem get?_set_self (env : Env) : (env.set name value).get? name = some value :=
  lookup_setEntry_self env.entries

theorem get?_set_of_ne (env : Env) (h : other ≠ name) :
    (env.set name value).get? other = env.get? other :=
  lookup_setEntry_of_ne env.entries h

theorem lookup_filter (entries : List (Text × Int64)) (keep : Text → Bool)
    (h : keep name = true) :
    (entries.filter fun e => keep e.1).lookup name = entries.lookup name := by
  induction entries with
  | nil => rfl
  | cons entry rest ih =>
      obtain ⟨key, old⟩ := entry
      by_cases hkey : name = key
      · subst hkey
        simp [h]
      · have hne : (name == key) = false := by simpa using hkey
        cases hkeep : keep key with
        | true => simp [hkeep, List.lookup_cons, hne, ih]
        | false => simp [hkeep, List.lookup_cons, hne, ih]

theorem get?_erase_of_ne (env : Env) (h : other ≠ name) :
    (env.erase name).get? other = env.get? other :=
  lookup_filter env.entries (· != name) (by simpa using h)

theorem get?_erase_self (env : Env) : (env.erase name).get? name = none := by
  rw [get?, List.lookup_eq_none_iff]
  intro entry hentry
  obtain ⟨_, hkept⟩ := List.mem_filter.1 hentry
  have hne : entry.1 ≠ name := bne_iff_ne.1 hkept
  exact bne_iff_ne.2 hne.symm

theorem contains_set {env : Env} :
    (env.set name value).contains other = true ↔ env.contains other = true ∨ other = name := by
  unfold contains
  by_cases h : other = name
  · subst h
    simp [get?_set_self]
  · simp [get?_set_of_ne env h, h]

theorem contains_erase {env : Env} :
    (env.erase name).contains other = true ↔ env.contains other = true ∧ other ≠ name := by
  unfold contains
  by_cases h : other = name
  · subst h
    simp [get?_erase_self]
  · simp [get?_erase_of_ne env h, h]

theorem get?_eq_lookup_visible (env : Env) (h : isHidden name = false) :
    env.get? name = env.visible.lookup name :=
  (lookup_filter env.entries (fun key => !isHidden key) (by simp [h])).symm

theorem filter_setEntry_of_hidden (entries : List (Text × Int64)) (h : isHidden name = true) :
    (setEntry name value entries).filter (fun e => !isHidden e.1) =
      entries.filter fun e => !isHidden e.1 := by
  induction entries with
  | nil => simp [setEntry, h]
  | cons entry rest ih =>
      obtain ⟨key, old⟩ := entry
      by_cases hkey : name = key
      · subst hkey
        simp [setEntry, h]
      · simp [setEntry, hkey, List.filter_cons, ih]

theorem filter_setEntry (entries : List (Text × Int64)) (h : isHidden name = false) :
    (setEntry name value entries).filter (fun e => !isHidden e.1) =
      setEntry name value (entries.filter fun e => !isHidden e.1) := by
  induction entries with
  | nil => simp [setEntry, h]
  | cons entry rest ih =>
      obtain ⟨key, old⟩ := entry
      by_cases hkey : name = key
      · subst hkey
        simp [setEntry, h]
      · cases hhidden : isHidden key with
        | true => simp [setEntry, hkey, hhidden, ih]
        | false => simp [setEntry, hkey, hhidden, ih]

theorem visible_set_of_hidden (env : Env) (h : isHidden name = true) :
    (env.set name value).visible = env.visible :=
  filter_setEntry_of_hidden env.entries h

theorem visible_set (env : Env) (h : isHidden name = false) :
    (env.set name value).visible = setEntry name value env.visible :=
  filter_setEntry env.entries h

theorem visible_erase_of_hidden (env : Env) (h : isHidden name = true) :
    (env.erase name).visible = env.visible := by
  unfold visible erase
  rw [List.filter_filter]
  apply List.filter_congr
  intro entry _
  by_cases hkey : entry.1 = name
  · simp [hkey, h]
  · simp [hkey]

theorem visible_eq_entries_iff {env : Env} :
    env.visible = env.entries ↔ ∀ name, isHidden name = true → env.contains name = false := by
  unfold visible
  rw [List.filter_eq_self]
  constructor
  · intro h name hname
    rw [contains, Option.isSome_eq_false_iff, Option.isNone_iff_eq_none, get?,
      List.lookup_eq_none_iff]
    intro entry hentry
    have hshown := h entry hentry
    rw [bne_iff_ne]
    rintro rfl
    simp [hname] at hshown
  · intro h entry hentry
    cases hname : isHidden entry.1 with
    | false => rfl
    | true =>
        have hnone := h entry.1 hname
        rw [contains, Option.isSome_eq_false_iff, Option.isNone_iff_eq_none, get?,
          List.lookup_eq_none_iff] at hnone
        simpa using hnone entry hentry

end Env

theorem isHidden_of_isIdentifier {name : Text} (h : name.isIdentifier = true) :
    Env.isHidden name = false := by
  cases name with
  | nil => rfl
  | cons r rest =>
      simp only [Text.isIdentifier, Bool.and_eq_true] at h
      have hr : r ≠ .char '#' := by
        rintro rfl
        exact absurd h.1 (by decide)
      change (Rune.char '#' == r && List.isPrefixOf [] rest) = false
      simp [Ne.symm hr]

namespace Opening

theorem counter_eq (depth : Nat) : counter depth =
    Text.ofString "#repeat" ++ (Nat.toDigits 10 (depth + 1)).map .char := by
  have hsign : ¬ ((depth + 1 : Nat) : Int) < 0 := by omega
  rw [counter, counterName, Text.ofInt, if_neg hsign, Int.natAbs_natCast, Text.ofNat]
  simp [Text.ofString]

theorem isHidden_counter (depth : Nat) : Env.isHidden (counter depth) = true := by
  rw [counter_eq]
  simp [Env.isHidden, Text.startsWith, Text.ofString]

theorem counter_inj {i j : Nat} (h : counter i = counter j) : i = j := by
  rw [counter_eq, counter_eq] at h
  have hchars := List.map_inj_right (fun _ _ => Rune.char.inj) |>.1 (List.append_cancel_left h)
  have hvalue := congrArg (Nat.ofDigitChars 10 · 0) hchars
  simp only [Nat.ofDigitChars_ten_toDigits] at hvalue
  omega

end Opening

/-- A counter that has a value is tested and counted down without a fault. -/
theorem eval_counting {f : Valuation} {k : Text} {v : Int64} (h : f k = some v) :
    (Expr.binary .greater (.var k) (.literal 0)).eval f = (truth (v > 0), []) ∧
      (Expr.binary .sub (.var k) (.literal 1)).eval f = (v - 1, []) := by
  simp [Expr.eval, h, Infix.apply]

/-- What an expression that can be written down evaluates to depends on the visible variables
only. -/
theorem Expr.Plain.eval_congr {e : Expr} (h : e.Plain) {f g : Valuation}
    (hfg : ∀ name, Env.isHidden name = false → f name = g name) : e.eval f = e.eval g := by
  induction e with
  | absent => rfl
  | null => rfl
  | literal v => rfl
  | var name => simp only [eval, hfg name (isHidden_of_isIdentifier h)]
  | unary op e ih =>
      have he := ih h.2
      cases op <;> simp only [eval, he]
  | binary op l r ihl ihr =>
      have hl := ihl h.2.1
      have hr := ihr h.2.2
      cases op <;> simp only [eval, hl, hr]
  | foreign kind => rfl

end Tortoise
