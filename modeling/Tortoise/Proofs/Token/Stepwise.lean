import Tortoise.Proofs.Source.Lookahead
import Tortoise.Proofs.Token.Positions

/-!
# Scanning with one place of lookahead

The tokens of a source can be taken while it is read: blanks are passed over, a run is taken up to
the character behind it, which is seen but not taken, and a group is taken up to its closing
parenthesis. Each of these loops gives what it would give on the feed that is shown, and leaves the
rest of that feed to be shown, so every call gives the result that the feed gives.
-/

namespace Tortoise

namespace Feed

def call (f : Feed) (n : Nat) : Except ScanError Token := (f.afterCalls n).next.1

/-- The run in front of a feed up to the next blank. One that touches a broken end is lost. -/
def takeRun (f : Feed) : Except ScanError Text × Feed :=
  let (run, rest) := f.cells.span fun c => !c.isBlank
  match rest, f.ending with
  | [], .broken error => (.error error, f.exhausted)
  | _, _ => (.ok (run.map Cell.rune), { f with cells := rest })

def takeGroup (opened : Position) (depth : Nat) (f : Feed) : Except ScanError Text × Feed :=
  match Tortoise.takeGroup depth f.cells, f.ending with
  | some (group, rest), _ => (.ok (group.map Cell.rune), { f with cells := rest })
  | none, .eof _ => (.error (.lexical ⟨.unterminatedGroup, opened⟩), f.exhausted)
  | none, .broken error => (.error error, f.exhausted)

variable {c : Cell} {cells : List Cell} {e : Ending} {f : Feed}

theorem nextRun_eq (c : Cell) (f : Feed) :
    let kind := if c.rune.isUpper || c.rune.isDigit then .expression else .keyword
    nextRun c f = (f.takeRun.1.map fun literal => ⟨kind, literal, c.pos⟩, f.takeRun.2) := by
  unfold nextRun takeRun
  obtain ⟨cells, e⟩ := f
  dsimp only
  generalize cells.span _ = cut
  obtain ⟨run, rest⟩ := cut
  cases rest <;> cases e <;> rfl

theorem nextGroup_eq (c : Cell) (f : Feed) :
    nextGroup c f = ((f.takeGroup c.pos 0).1.map fun literal => ⟨.expression, literal, c.pos⟩,
      (f.takeGroup c.pos 0).2) := by
  unfold nextGroup takeGroup
  obtain ⟨cells, e⟩ := f
  dsimp only
  cases Tortoise.takeGroup 0 cells <;> cases e <;> rfl

theorem takeRun_nil : takeRun ⟨[], e⟩ = (match e with
    | .broken error => .error error
    | .eof _ => .ok [], ⟨[], e⟩) := by
  cases e <;> rfl

theorem takeRun_blank (hc : c.isBlank = true) :
    takeRun ⟨c :: cells, e⟩ = (.ok [], ⟨c :: cells, e⟩) := by
  simp [takeRun, List.span_eq_takeWhile_dropWhile, hc]

theorem takeRun_solid (hc : c.isBlank = false) :
    takeRun ⟨c :: cells, e⟩ =
      ((takeRun ⟨cells, e⟩).1.map (c.rune :: ·), (takeRun ⟨cells, e⟩).2) := by
  simp only [takeRun, List.span_eq_takeWhile_dropWhile, List.takeWhile_cons, List.dropWhile_cons,
    hc, Bool.not_false, if_true]
  split <;> rfl

theorem takeGroup_close {opened : Position} {depth : Nat} (hc : c.char = ')' ∧ depth ≤ 1) :
    takeGroup opened depth ⟨c :: cells, e⟩ = (.ok [c.rune], ⟨cells, e⟩) := by
  simp [takeGroup, Tortoise.takeGroup, hc]

theorem takeGroup_cons {opened : Position} {depth : Nat} (hc : ¬ (c.char = ')' ∧ depth ≤ 1)) :
    let depth' := if c.char = '(' then depth + 1 else if c.char = ')' then depth - 1 else depth
    takeGroup opened depth ⟨c :: cells, e⟩ =
      ((takeGroup opened depth' ⟨cells, e⟩).1.map (c.rune :: ·),
        (takeGroup opened depth' ⟨cells, e⟩).2) := by
  have htake : Tortoise.takeGroup depth (c :: cells) = (Tortoise.takeGroup
      (if c.char = '(' then depth + 1 else if c.char = ')' then depth - 1 else depth) cells).map
        fun (group, more) => (c :: group, more) := by
    rw [Tortoise.takeGroup, if_neg hc]
    split <;> rfl
  unfold takeGroup
  dsimp only
  rw [htake]
  cases Tortoise.takeGroup _ cells <;> cases e <;> rfl

end Feed

namespace Lookahead

variable {l l' : Lookahead} {f : Feed} {opened : Position} {depth : Nat} {front : Front}

def skipBlanks (l : Lookahead) : Front × Lookahead :=
  match _h : l.peek with
  | (.ending e, l) => (.ending e, l)
  | (.cell c, l) => if c.isBlank then skipBlanks l.take.2 else (.cell c, l)
termination_by l.unread
decreasing_by exact unread_take_of_peek _h

def takeRun (l : Lookahead) : Except ScanError Text × Lookahead :=
  match _h : l.peek with
  | (.ending (.broken error), l) => (.error error, l)
  | (.ending (.eof _), l) => (.ok [], l)
  | (.cell c, l) =>
    if c.isBlank then (.ok [], l)
    else
      let (run, l) := takeRun l.take.2
      (run.map (c.rune :: ·), l)
termination_by l.unread
decreasing_by exact unread_take_of_peek _h

def takeGroup (opened : Position) (depth : Nat) (l : Lookahead) :
    Except ScanError Text × Lookahead :=
  match _h : l.take with
  | (.ending (.broken error), l) => (.error error, l)
  | (.ending (.eof _), l) => (.error (.lexical ⟨.unterminatedGroup, opened⟩), l)
  | (.cell c, l) =>
    if c.char = ')' ∧ depth ≤ 1 then (.ok [c.rune], l)
    else
      let depth := if c.char = '(' then depth + 1 else if c.char = ')' then depth - 1 else depth
      let (group, l) := takeGroup opened depth l
      (group.map (c.rune :: ·), l)
termination_by l.unread
decreasing_by exact unread_take _h

def next (l : Lookahead) : Except ScanError Token × Lookahead :=
  match l.skipBlanks with
  | (.ending (.eof p), l) => (.ok ⟨.eof, [], p⟩, l)
  | (.ending (.broken error), l) => (.error error, l)
  | (.cell c, l) =>
    if c.char = '(' then
      let (literal, l) := takeGroup c.pos 0 l
      (literal.map fun literal => ⟨.expression, literal, c.pos⟩, l)
    else
      let (literal, l) := takeRun l
      let kind := if c.rune.isUpper || c.rune.isDigit then .expression else .keyword
      (literal.map fun literal => ⟨kind, literal, c.pos⟩, l)

theorem skipBlanks_of_peek (h : l.peek = (front, l')) : l.skipBlanks = match front with
    | .ending e => (.ending e, l')
    | .cell c => if c.isBlank then l'.take.2.skipBlanks else (.cell c, l') := by
  rw [skipBlanks]
  split <;> next heq => cases h.symm.trans heq; rfl

theorem takeRun_of_peek (h : l.peek = (front, l')) : l.takeRun = match front with
    | .ending (.broken error) => (.error error, l')
    | .ending (.eof _) => (.ok [], l')
    | .cell c =>
      if c.isBlank then (.ok [], l')
      else (l'.take.2.takeRun.1.map (c.rune :: ·), l'.take.2.takeRun.2) := by
  rw [takeRun]
  split <;> next heq => cases h.symm.trans heq; rfl

theorem takeGroup_of_take (h : l.take = (front, l')) : l.takeGroup opened depth = match front with
    | .ending (.broken error) => (.error error, l')
    | .ending (.eof _) => (.error (.lexical ⟨.unterminatedGroup, opened⟩), l')
    | .cell c =>
      if c.char = ')' ∧ depth ≤ 1 then (.ok [c.rune], l')
      else
        let depth := if c.char = '(' then depth + 1 else if c.char = ')' then depth - 1 else depth
        ((l'.takeGroup opened depth).1.map (c.rune :: ·), (l'.takeGroup opened depth).2) := by
  rw [takeGroup]
  split <;> next heq => cases h.symm.trans heq; rfl

theorem Shows.skipBlanks (h : Shows l f) :
    ∃ l', l.skipBlanks = (f.skipBlanks.front, l') ∧ Shows l' f.skipBlanks := by
  obtain ⟨cells, e⟩ := f
  induction cells generalizing l with
  | nil =>
      obtain ⟨l₁, hpeek, -, hshows⟩ := h.peek
      rw [skipBlanks_of_peek hpeek]
      exact ⟨l₁, rfl, hshows⟩
  | cons c cells ih =>
      obtain ⟨l₁, hpeek, -, hshows⟩ := h.peek
      rw [skipBlanks_of_peek hpeek]
      by_cases hc : c.isBlank = true
      · obtain ⟨l₂, htake, hrest⟩ := hshows.take
        have hskip : Feed.skipBlanks ⟨c :: cells, e⟩ = Feed.skipBlanks ⟨cells, e⟩ := by
          simp [Feed.skipBlanks, hc]
        rw [hskip]
        simp only [Feed.front, hc, if_true, htake]
        exact ih hrest
      · have hskip : Feed.skipBlanks ⟨c :: cells, e⟩ = ⟨c :: cells, e⟩ := by
          simp [Feed.skipBlanks, hc]
        rw [hskip]
        exact ⟨l₁, if_neg hc, hshows⟩

theorem Shows.takeRun (h : Shows l f) :
    ∃ l', l.takeRun = (f.takeRun.1, l') ∧ Shows l' f.takeRun.2 := by
  obtain ⟨cells, e⟩ := f
  induction cells generalizing l with
  | nil =>
      obtain ⟨l₁, hpeek, -, hshows⟩ := h.peek
      rw [takeRun_of_peek hpeek, Feed.takeRun_nil]
      cases e <;> exact ⟨l₁, rfl, hshows⟩
  | cons c cells ih =>
      obtain ⟨l₁, hpeek, -, hshows⟩ := h.peek
      rw [takeRun_of_peek hpeek]
      by_cases hc : c.isBlank = true
      · rw [Feed.takeRun_blank hc]
        exact ⟨l₁, if_pos hc, hshows⟩
      · obtain ⟨l₂, htake, hrest⟩ := hshows.take
        obtain ⟨l₃, hrun, hshows⟩ := ih hrest
        rw [Feed.takeRun_solid (Bool.eq_false_iff.2 hc)]
        refine ⟨l₃, ?_, hshows⟩
        simp only [Feed.front, hc, htake, hrun]
        rfl

theorem Shows.takeGroup (h : Shows l f) :
    ∃ l', l.takeGroup opened depth = ((f.takeGroup opened depth).1, l') ∧
      Shows l' (f.takeGroup opened depth).2 := by
  obtain ⟨cells, e⟩ := f
  induction cells generalizing l depth with
  | nil =>
      obtain ⟨l₁, htake, hshows⟩ := h.take
      rw [takeGroup_of_take htake]
      cases e <;> exact ⟨l₁, rfl, hshows⟩
  | cons c cells ih =>
      obtain ⟨l₁, htake, hshows⟩ := h.take
      rw [takeGroup_of_take htake]
      by_cases hc : c.char = ')' ∧ depth ≤ 1
      · rw [Feed.takeGroup_close hc]
        exact ⟨l₁, if_pos hc, hshows⟩
      · obtain ⟨l₂, hgroup, hshows⟩ := @ih l₁ _ hshows
        rw [Feed.takeGroup_cons hc]
        refine ⟨l₂, ?_, hshows⟩
        simp only [Feed.front, hc, if_false, hgroup]

theorem Shows.next (h : Shows l f) :
    ∃ l', l.next = (f.next.1, l') ∧ Shows l' f.next.2 := by
  obtain ⟨l₁, hskip, hshows⟩ := h.skipBlanks
  unfold Lookahead.next Feed.next
  rw [hskip]
  generalize f.skipBlanks = f' at hshows
  obtain ⟨cells, e⟩ := f'
  cases cells with
  | nil => cases e <;> exact ⟨l₁, rfl, hshows⟩
  | cons c cells =>
      dsimp only [Feed.front]
      by_cases hopen : c.char = '('
      · obtain ⟨l₂, hgroup, hshows⟩ := @Shows.takeGroup _ _ c.pos 0 hshows
        rw [if_pos hopen, if_pos hopen, Feed.nextGroup_eq, hgroup]
        exact ⟨l₂, rfl, hshows⟩
      · obtain ⟨l₂, hrun, hshows⟩ := hshows.takeRun
        rw [if_neg hopen, if_neg hopen, Feed.nextRun_eq, hrun]
        exact ⟨l₂, rfl, hshows⟩

def afterCalls (l : Lookahead) : Nat → Lookahead
  | 0 => l
  | n + 1 => (l.afterCalls n).next.2

def call (l : Lookahead) (n : Nat) : Except ScanError Token := (l.afterCalls n).next.1

theorem Shows.afterCalls (h : Shows l f) (n : Nat) : Shows (l.afterCalls n) (f.afterCalls n) := by
  induction n with
  | zero => exact h
  | succ n ih =>
      obtain ⟨l₁, hnext, hshows⟩ := ih.next
      rw [Lookahead.afterCalls, hnext]
      exact hshows

theorem Shows.call (h : Shows l f) (n : Nat) : l.call n = f.call n := by
  obtain ⟨l₁, hnext, -⟩ := (h.afterCalls n).next
  rw [Lookahead.call, hnext]
  rfl

end Lookahead

end Tortoise
