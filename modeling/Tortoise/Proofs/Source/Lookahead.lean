import Tortoise.Source.Feed

/-!
# Reading with one place for what was seen ahead

A source can be read as it comes, one rune at a time, with one place for what was seen ahead: a
character of its feed, or the way in which it ends. What is taken leaves the place, but an end
stays there. So whatever a source would reply behind its first end, nobody asks for it, and what is
seen one after the other is the feed of the source.
-/

namespace Tortoise

inductive Reply where
  | rune (r : Rune)
  /-- There is none: the source is at its end, or it fails with a message. -/
  | stop (failure : Option String)

inductive Front where
  | cell (c : Cell)
  | ending (e : Ending)

def Feed.front (f : Feed) : Front :=
  match f.cells with
  | [] => .ending f.ending
  | c :: _ => .cell c

structure Lookahead where
  /-- What the source will reply; behind that it is at its end. -/
  replies : List Reply
  /-- The position of the next rune. -/
  pos : Position
  /-- What was seen ahead and not taken. -/
  seen : Option Front

namespace Lookahead

def keep (front : Front) (p : Position) (replies : List Reply) : Front × Lookahead :=
  (front, ⟨replies, p, some front⟩)

/-- Asks for runes, inside or outside of a comment, until there is something to be seen. -/
def fill : (comment : Option Position) → (p : Position) → List Reply → Front × Lookahead
  | comment, p, [] => keep (.ending (Feed.endingAt none comment p)) p []
  | comment, p, .stop failure :: replies =>
    keep (.ending (Feed.endingAt failure comment p)) p replies
  | none, p, .rune r :: replies =>
    if r.shown = '"' then fill (some p) (p.after r.shown) replies
    else keep (.cell ⟨r.shown, p⟩) (p.after r.shown) replies
  | some opened, p, .rune r :: replies =>
    if r.shown = '"' then keep (.cell ⟨' ', opened⟩) (p.after r.shown) replies
    else fill (some opened) (p.after r.shown) replies

def peek (l : Lookahead) : Front × Lookahead :=
  match l.seen with
  | some front => (front, l)
  | none => fill none l.pos l.replies

def take (l : Lookahead) : Front × Lookahead :=
  match l.peek with
  | (.cell c, l) => (.cell c, { l with seen := none })
  | (.ending e, l) => (.ending e, l)

/-- What may still be taken: all that the source has not replied yet, and a character that was seen
ahead. -/
def unread (l : Lookahead) : Nat :=
  l.replies.length + match l.seen with
    | some (.cell _) => 1
    | _ => 0

variable {l l' : Lookahead} {c : Cell}

theorem fill_cell {comment : Option Position} {p : Position} {replies : List Reply}
    (h : fill comment p replies = (.cell c, l)) :
    l.seen = some (.cell c) ∧ l.replies.length < replies.length := by
  fun_induction fill comment p replies with
  | case1 | case2 => cases h
  | case3 p r replies _ ih | case6 opened p r replies _ ih =>
      obtain ⟨hseen, hlength⟩ := ih h
      exact ⟨hseen, Nat.lt_succ_of_lt hlength⟩
  | case4 p r replies | case5 opened p r replies =>
      cases h
      exact ⟨rfl, Nat.lt_succ_self _⟩

theorem peek_cell (h : l.peek = (.cell c, l')) :
    l'.seen = some (.cell c) ∧ l'.unread ≤ l.unread := by
  unfold peek at h
  split at h
  next front hseen =>
    cases h
    exact ⟨hseen, Nat.le_refl _⟩
  next hseen =>
    obtain ⟨hcell, hlength⟩ := fill_cell h
    refine ⟨hcell, ?_⟩
    simp only [unread, hcell, hseen]
    omega

theorem take_of_seen (h : l.seen = some (.cell c)) :
    l.take = (.cell c, { l with seen := none }) := by
  simp only [take, peek, h]

theorem unread_take_of_peek (h : l.peek = (.cell c, l')) : l'.take.2.unread < l.unread := by
  obtain ⟨hseen, hle⟩ := peek_cell h
  rw [take_of_seen hseen]
  refine Nat.lt_of_lt_of_le ?_ hle
  simp [unread, hseen]

theorem unread_take (h : l.take = (.cell c, l')) : l'.unread < l.unread := by
  unfold take at h
  split at h
  next d l₁ hpeek =>
    cases h
    have hlt := unread_take_of_peek hpeek
    rwa [take_of_seen (peek_cell hpeek).1] at hlt
  next => cases h

inductive Shows : Lookahead → Feed → Prop
  | ahead {s : Text} {failure : Option String} {behind : List Reply} {p : Position} :
      Shows ⟨s.map .rune ++ .stop failure :: behind, p, none⟩ (Feed.readFrom failure none p s)
  | cell {s : Text} {failure : Option String} {behind : List Reply} {p : Position} {c : Cell} :
      Shows ⟨s.map .rune ++ .stop failure :: behind, p, some (.cell c)⟩
        (.cons c (Feed.readFrom failure none p s))
  | ending {replies : List Reply} {p : Position} {e : Ending} :
      Shows ⟨replies, p, some (.ending e)⟩ ⟨[], e⟩

/-- Asking goes on through a comment, and it stops at the end of the source. -/
theorem shows_fill (failure : Option String) (behind : List Reply) (comment : Option Position)
    (p : Position) (s : Text) :
    let f := Feed.readFrom failure comment p s
    ∃ l, fill comment p (s.map .rune ++ .stop failure :: behind) = (f.front, l) ∧
      l.seen = some f.front ∧ Shows l f := by
  fun_induction Feed.readFrom failure comment p s with
  | case1 comment p => cases comment <;> exact ⟨_, rfl, rfl, .ending⟩
  | case2 p r s hquote ih =>
      rw [List.map_cons, List.cons_append, fill, if_pos hquote]
      exact ih
  | case3 p r s hquote ih =>
      rw [List.map_cons, List.cons_append, fill, if_neg hquote]
      exact ⟨_, rfl, rfl, .cell⟩
  | case4 opened p r s hquote ih =>
      rw [List.map_cons, List.cons_append, fill, if_pos hquote]
      exact ⟨_, rfl, rfl, .cell⟩
  | case5 opened p r s hquote ih =>
      rw [List.map_cons, List.cons_append, fill, if_neg hquote]
      exact ih

variable {f : Feed}

theorem Shows.peek (h : Shows l f) :
    ∃ l', l.peek = (f.front, l') ∧ l'.seen = some f.front ∧ Shows l' f := by
  cases h with
  | ahead => exact shows_fill _ _ none _ _
  | cell => exact ⟨_, rfl, rfl, .cell⟩
  | ending => exact ⟨_, rfl, rfl, .ending⟩

theorem Shows.take (h : Shows l f) :
    ∃ l', l.take = (f.front, l') ∧ Shows l' { f with cells := f.cells.tail } := by
  obtain ⟨l₁, hpeek, hseen, hshows⟩ := h.peek
  unfold Lookahead.take
  rw [hpeek]
  cases hshows with
  | ahead => cases hseen
  | cell => exact ⟨_, rfl, .ahead⟩
  | ending => exact ⟨_, rfl, .ending⟩

/-- A source that replies with the runes of a text and then with a stop. What it would reply
behind that is `behind`. -/
def start (source : Text) (failure : Option String) (behind : List Reply) : Lookahead :=
  ⟨source.map .rune ++ .stop failure :: behind, .first, none⟩

theorem shows_start (source : Text) (failure : Option String) (behind : List Reply) :
    Shows (start source failure behind) (.ofText source failure) :=
  .ahead

end Lookahead

end Tortoise
