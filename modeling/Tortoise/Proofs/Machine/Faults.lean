import Tortoise.Proofs.Machine.Env
import Tortoise.Proofs.Machine.Meaning

/-!
# What faults say

A fault quotes the names and divisions of the expression that it comes from. An expression that a
program can write down has no `#` in it, so its faults name no counter. A counter is named only when
it is read without a value.
-/

namespace Tortoise

def Event.Clean : Event → Prop
  | .diagnostic _ detail => Rune.char '#' ∉ detail
  | .action _ _ => True

namespace Text

theorem hash_not_mem_of_isIdentifier {name : Text} (h : name.isIdentifier = true) :
    Rune.char '#' ∉ name := by
  cases name with
  | nil => simp
  | cons r rest =>
      simp only [isIdentifier, Bool.and_eq_true, List.all_eq_true] at h
      intro hmem
      rcases List.mem_cons.1 hmem with rfl | hmem
      · exact absurd h.1 (by decide)
      · exact absurd (h.2 _ hmem) (by decide)

theorem hash_not_mem_ofNat (n : Nat) : Rune.char '#' ∉ ofString (ofNat n) := by
  intro hmem
  simp only [ofString, ofNat, String.toList_ofList, List.mem_map, Rune.char.injEq] at hmem
  obtain ⟨c, hc, rfl⟩ := hmem
  exact absurd (Nat.isDigit_of_mem_toDigits (by decide) (by decide) hc) (by decide)

theorem hash_not_mem_ofInt64 (v : Int64) : Rune.char '#' ∉ ofString (ofInt64 v) := by
  unfold ofInt64 ofInt
  split
  · have hsplit (n : Nat) : ofString ("-" ++ ofNat n) = Rune.char '-' :: ofString (ofNat n) := by
      simp [ofString]
    rw [hsplit, List.mem_cons, not_or]
    exact ⟨by decide, hash_not_mem_ofNat _⟩
  · exact hash_not_mem_ofNat _

end Text

namespace Expr

theorem Plain.hash_not_mem_render {e : Expr} (h : e.Plain) : Rune.char '#' ∉ e.render := by
  induction e with
  | absent => exact h.elim
  | null => exact h.elim
  | literal v => exact Text.hash_not_mem_ofInt64 v
  | var name => exact Text.hash_not_mem_of_isIdentifier h
  | unary op e ih =>
      have hop : Rune.char '#' ∉ op.spelling := by
        cases op with
        | unknown spelling foreign => exact absurd h.1 (by simp [Prefix.isKnown])
        | _ => decide
      simp [render, hop, ih h.2]
  | binary op l r ihl ihr =>
      have hop : Rune.char '#' ∉ infixSign op := by
        cases op with
        | unknown spelling foreign => exact absurd h.1 (by simp [Infix.isKnown])
        | _ => decide
      simp [render, hop, ihl h.2.1, ihr h.2.2, Text.ofString]
  | foreign kind => exact h.elim

/-- Evaluated where all the names in `known` have a value, the expression names no counter. -/
def Discreet (known : Text → Prop) (e : Expr) : Prop :=
  ∀ f : Valuation, (∀ name, known name → (f name).isSome = true) →
    ∀ fault ∈ (e.eval f).2, fault.event.Clean

theorem Discreet.mono {known more : Text → Prop} {e : Expr} (h : e.Discreet known)
    (hmore : ∀ name, known name → more name) : e.Discreet more :=
  fun f hf => h f fun name hname => hf name (hmore name hname)

theorem discreet_absent (known : Text → Prop) : absent.Discreet known := by
  intro f _ fault hfault
  simp [eval] at hfault

theorem Plain.discreet {e : Expr} (h : e.Plain) (known : Text → Prop) : e.Discreet known := by
  intro f _
  induction e with
  | absent => exact h.elim
  | null => exact h.elim
  | literal v => simp [eval]
  | var name =>
      intro fault hfault
      have hname := Text.hash_not_mem_of_isIdentifier h
      cases hvalue : f name with
      | some v => simp [eval, hvalue] at hfault
      | none =>
          simp only [eval, hvalue, List.mem_singleton] at hfault
          subst hfault
          simp [Fault.event, Event.Clean, hname, Text.ofString]
  | unary op e ih =>
      cases op with
      | negate => exact ih h.2
      | complement => exact ih h.2
      | unknown spelling foreign => simp [eval]
  | binary op l r ihl ihr =>
      have hl := ihl h.2.1
      have hr := ihr h.2.2
      have hboth : ∀ fault ∈ (l.eval f).2 ++ (r.eval f).2, fault.event.Clean := by
        intro fault hfault
        rcases List.mem_append.1 hfault with hfault | hfault
        · exact hl fault hfault
        · exact hr fault hfault
      cases op with
      | and =>
          simp only [eval]
          split
          · exact hl
          · exact hboth
      | or =>
          simp only [eval]
          split
          · exact hl
          · exact hboth
      | div =>
          simp only [eval]
          split
          · intro fault hfault
            rcases List.mem_append.1 hfault with hfault | hfault
            · exact hboth fault hfault
            · obtain rfl := List.mem_singleton.1 hfault
              have hdivision := h.hash_not_mem_render
              simp [Fault.event, Event.Clean, hdivision, Text.ofString]
          · exact hboth
      | unknown spelling foreign => simp [eval]
      | _ => exact hboth
  | foreign kind => exact h.elim

end Expr

end Tortoise
