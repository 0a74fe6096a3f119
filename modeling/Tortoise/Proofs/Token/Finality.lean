import Tortoise.Proofs.Token.Stepwise
import Mathlib.Data.Nat.Find

/-!
# The end of the tokens

As long as calls give tokens, the feed is what is read behind some front of the source, and each
call adds at least one rune to that front. The first call that gives none leaves an empty feed, and
such a feed gives the way in which the source ends again and again. So there are two kinds of calls,
those in front of the end, of which there are no more than runes, and those from the end on, of
which all but the first give the same.
-/

namespace Tortoise

def IsToken : Except ScanError Token → Prop
  | .ok t => t.kind ≠ .eof
  | .error _ => False

/-- The first result is that of a call that met the end of the source, and the second is that of
every later call. The two differ only if a group is left open, which is reported once. -/
inductive Final (source : Text) (failure : Option String) :
    Except ScanError Token → Except ScanError Token → Prop
  | eof (hfailure : failure = none) :
      Final source failure (.ok ⟨.eof, [], .behind source⟩) (.ok ⟨.eof, [], .behind source⟩)
  | reader {message : String} (hfailure : failure = some message) :
      Final source failure (.error (.reader message)) (.error (.reader message))
  | comment {p : Position} (hfailure : failure = none) :
      Final source failure (.error (.lexical ⟨.unterminatedComment, p⟩))
        (.error (.lexical ⟨.unterminatedComment, p⟩))
  | group {p : Position} (hfailure : failure = none) :
      Final source failure (.error (.lexical ⟨.unterminatedGroup, p⟩))
        (.ok ⟨.eof, [], .behind source⟩)

namespace Feed

def IsRest (source : Text) (failure : Option String) (front : Text) (f : Feed) : Prop :=
  ∃ back, source = front ++ back ∧ readFrom failure none (.behind front) back = f

def Advances (source : Text) (failure : Option String) (f f' : Feed) : Prop :=
  ∃ front used, used ≠ [] ∧ IsRest source failure front f ∧
    IsRest source failure (front ++ used) f'

variable {source front : Text} {failure : Option String} {f : Feed} {n : Nat}
  {result : Except ScanError Token × Feed}

theorem IsRest.length_le (h : IsRest source failure front f) : front.length ≤ source.length := by
  obtain ⟨back, rfl, -⟩ := h
  rw [List.length_append]
  exact Nat.le_add_right _ _

/-- A call that gives a token reads at least one rune of the source. -/
theorem IsRest.next (h : IsRest source failure front f) (hfound : Found f result)
    (htoken : IsToken result.1) :
    ∃ used, used ≠ [] ∧ IsRest source failure (front ++ used) result.2 := by
  obtain ⟨back, rfl, hread⟩ := h
  cases hfound with
  | ends =>
      obtain ⟨cells, ending⟩ := f
      cases ending with
      | eof p => exact absurd rfl htoken
      | broken e => exact htoken.elim
  | unclosed => exact htoken.elim
  | @word more rest c gap hcells =>
      obtain ⟨cells, ending⟩ := f
      obtain rfl : cells = gap ++ (c :: more ++ rest) := hcells
      rw [← List.append_assoc] at hread
      obtain ⟨used, back, rfl, hused, hread⟩ := exists_of_readFrom_append hread
      refine ⟨used, ?_, back, (List.append_assoc ..).symm, ?_⟩
      · rintro rfl
        have hnil := List.map_eq_nil_iff.1 hused.eq_nil_of_nil
        exact List.cons_ne_nil c more (List.append_eq_nil_iff.1 hnil).2
      · rwa [← Position.first_past, Position.past_append, Position.first_past]

/-- Behind `n` tokens at least `n` runes are read. -/
theorem exists_isRest (hbefore : ∀ k < n, IsToken ((ofText source failure).call k)) :
    ∃ front, n ≤ front.length ∧
      IsRest source failure front ((ofText source failure).afterCalls n) := by
  induction n with
  | zero => exact ⟨[], Nat.zero_le _, source, rfl, rfl⟩
  | succ n ih =>
      obtain ⟨front, hlength, hrest⟩ := ih fun k hk => hbefore k (Nat.lt_succ_of_lt hk)
      obtain ⟨used, hused, hrest⟩ :=
        hrest.next (found_next _) (hbefore n (Nat.lt_succ_self n))
      refine ⟨front ++ used, ?_, hrest⟩
      have hpos := List.length_pos_iff.2 hused
      rw [List.length_append]
      omega

/-- A reader that fails hides how the source would end. -/
theorem readFrom_failed (message : String) (comment : Option Position) (p : Position)
    (s : Text) :
    (readFrom (some message) comment p s).ending = .broken (.reader message) := by
  fun_induction readFrom (some message) comment p s with
  | case1 comment p => rfl
  | case2 _ _ _ _ ih | case3 _ _ _ _ ih | case4 _ _ _ _ _ ih | case5 _ _ _ _ _ ih => exact ih

theorem not_isToken_finish (f : Feed) : ¬ IsToken f.finish := by
  unfold finish
  cases f.ending with
  | eof p => exact fun h => h rfl
  | broken e => exact id

theorem ending_afterCalls (f : Feed) (n : Nat) : (f.afterCalls n).ending = f.ending := by
  induction n with
  | zero => rfl
  | succ n ih => exact (found_next _).ending_eq.trans ih

theorem Found.eq_exhausted (h : Found f result) (hend : ¬ IsToken result.1) :
    result.2 = f.exhausted := by
  cases h with
  | ends | unclosed => rfl
  | word => exact absurd (TokenKind.ofWord_ne_eof _) hend

theorem finish_afterCalls (f : Feed) (n : Nat) : (f.afterCalls n).finish = f.finish := by
  rw [finish, finish, ending_afterCalls]

/-- Behind an end nothing is left. -/
theorem afterCalls_of_end (hend : ¬ IsToken (f.call n)) {m : Nat} (hlater : n < m) :
    f.afterCalls m = ⟨[], f.ending⟩ := by
  induction m, hlater using Nat.le_induction with
  | base =>
      have hnext := (found_next (f.afterCalls n)).eq_exhausted hend
      rw [afterCalls, hnext, exhausted, ending_afterCalls]
  | succ m _ ih =>
      rw [afterCalls, ih]
      rfl

theorem call_of_end (hend : ¬ IsToken (f.call n)) {m : Nat} (hlater : n < m) :
    f.call m = f.finish := by
  rw [call, afterCalls_of_end hend hlater]
  rfl

theorem isToken_of_lt (htoken : IsToken (f.call n)) {k : Nat} (hk : k < n) :
    IsToken (f.call k) := by
  by_contra hend
  rw [call_of_end hend hk] at htoken
  exact not_isToken_finish f htoken

theorem final_finish (hending : f.ending = (ofText source failure).ending) :
    Final source failure f.finish f.finish := by
  rw [finish, hending]
  cases failure with
  | some message =>
      rw [ofText, readFrom_failed]
      exact .reader rfl
  | none =>
      obtain ⟨-, hend⟩ | ⟨front, c, -, -, -, hend⟩ :=
        readFrom_ending (rfl : readFrom none none .first source = ⟨_, _⟩)
      · rw [ofText, hend, Position.first_past]
        exact .eof rfl
      · rw [ofText, hend]
        exact .comment rfl

theorem Found.final (h : Found f result) (hend : ¬ IsToken result.1)
    (hending : f.ending = (ofText source failure).ending) :
    Final source failure result.1 f.finish := by
  have hfinish := final_finish hending
  cases h with
  | ends => exact hfinish
  | unclosed gap hp =>
      rw [finish, hp] at hfinish ⊢
      cases hfinish with
      | eof hfailure => exact .group hfailure
  | word => exact absurd (TokenKind.ofWord_ne_eof _) hend

/-- There is a first end, and in front of it stands at most one token for each rune. -/
theorem exists_end (source : Text) (failure : Option String) :
    ∃ n ≤ source.length, (∀ k < n, IsToken ((ofText source failure).call k)) ∧
      ¬ IsToken ((ofText source failure).call n) := by
  classical
  have hends : ∃ n, ¬ IsToken ((ofText source failure).call n) := by
    by_contra hnone
    obtain ⟨front, hlength, hrest⟩ :=
      @exists_isRest source failure (source.length + 1) fun k _ => not_exists_not.1 hnone k
    have hle := hrest.length_le
    omega
  have hbefore : ∀ k < Nat.find hends, IsToken ((ofText source failure).call k) :=
    fun k hk => not_not.1 (Nat.find_min hends hk)
  obtain ⟨front, hlength, hrest⟩ := exists_isRest hbefore
  exact ⟨Nat.find hends, Nat.le_trans hlength hrest.length_le, hbefore, Nat.find_spec hends⟩

end Feed

/-- Every call gives a token, for which it reads at least one rune, or it meets the end, and what
later calls give is settled by that. The end is met behind at most as many tokens as the source
has runes. All this also holds of a scanner that sees one place ahead, whatever the source would
reply `behind` its first stop. -/
theorem end_of_tokens_is_final (source : Bytes) (failure : Option String) (behind : List Reply) :
    let s : Text := .ofBytes source
    let f := Feed.ofText s failure
    (∀ n, (Lookahead.start s failure behind).call n = f.call n) ∧
      (∀ n, IsToken (f.call n) ∧ Feed.Advances s failure (f.afterCalls n) (f.afterCalls (n + 1)) ∨
        ∃ later, Final s failure (f.call n) later ∧ ∀ m, n < m → f.call m = later) ∧
      ∃ n ≤ s.length, (∀ k < n, IsToken (f.call k)) ∧ ¬ IsToken (f.call n) := by
  intro s f
  refine ⟨(Lookahead.shows_start s failure behind).call, fun n => ?_, Feed.exists_end s failure⟩
  by_cases htoken : IsToken (f.call n)
  · obtain ⟨front, -, hrest⟩ := Feed.exists_isRest fun k hk => Feed.isToken_of_lt htoken hk
    obtain ⟨used, hused, hrest'⟩ := hrest.next (Feed.found_next _) htoken
    exact .inl ⟨htoken, front, used, hused, hrest, hrest'⟩
  · have hfinal := (Feed.found_next (f.afterCalls n)).final htoken (f.ending_afterCalls n)
    rw [f.finish_afterCalls n] at hfinal
    exact .inr ⟨f.finish, hfinal, fun m hlater => Feed.call_of_end htoken hlater⟩

-- A group that is left open is reported once, and a comment for as long as anyone asks.
example : let f := Feed.ofText [.char '(', .char 'A'] none
    f.call 0 = .error (.lexical ⟨.unterminatedGroup, ⟨1, 1⟩⟩) ∧
      f.call 5 = .ok ⟨.eof, [], ⟨1, 3⟩⟩ := by
  decide

example : let f := Feed.ofText [.char '(', .char 'A', .char '"'] none
    f.call 0 = .error (.lexical ⟨.unterminatedComment, ⟨1, 3⟩⟩) ∧
      f.call 5 = .error (.lexical ⟨.unterminatedComment, ⟨1, 3⟩⟩) := by
  decide

end Tortoise
