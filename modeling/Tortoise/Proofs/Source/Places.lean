import Tortoise.Proofs.Text.Lines
import Tortoise.Proofs.Token.Scan
import Mathlib.Data.List.Induction

/-!
# Places in a source

The places of a source are the positions in front of its runes and the one behind the last of them.
Reading counts lines and columns rune by rune, while the lines of an excerpt are cut out of the
source at its line breaks; the two ways agree at every place. Whatever is read from a source stands
at a place: each cell of its feed, each token, the end, and each lexical error.
-/

namespace Tortoise

theorem Rune.shown_eq_newline_iff {r : Rune} : r.shown = '\n' ↔ r = .char '\n' := by
  cases r with
  | char c => simp [shown]
  | stray b =>
      have hshown : (stray b).shown ≠ '\n' := (by decide : '\uFFFD' ≠ '\n')
      simp [hshown]

namespace Position

def past (p : Position) (t : Text) : Position := t.foldl (fun p r => p.after r.shown) p

/-- From the start on, the line is the number of pieces between line breaks, and the column is one
behind the last piece. -/
theorem first_past_eq {t last : Text} {pieces : List Text}
    (h : Text.splitOn '\n' t = pieces ++ [last]) :
    first.past t = ⟨pieces.length + 1, last.length + 1⟩ := by
  induction t using List.reverseRecOn generalizing pieces last with
  | nil =>
      cases pieces with
      | nil =>
          obtain ⟨rfl, -⟩ := List.cons.inj h
          rfl
      | cons piece pieces =>
          obtain ⟨-, hnil⟩ := List.cons.inj h
          simp at hnil
  | append_singleton t r ih =>
      obtain ⟨front, piece, ht⟩ := Text.exists_splitOn_concat '\n' t
      have hpast : first.past (t ++ [r]) = (first.past t).after r.shown := List.foldl_append
      rw [hpast, ih ht]
      by_cases hr : r = .char '\n'
      · have hbreak : Text.splitOn '\n' [r] = [[], []] := by rw [hr, Text.splitOn_cons_self]; rfl
        rw [Text.splitOn_append ht hbreak, List.append_nil, List.append_cons] at h
        obtain ⟨rfl, hlast⟩ := List.append_inj' h rfl
        obtain rfl := List.singleton_inj.1 hlast
        rw [after, if_pos (Rune.shown_eq_newline_iff.2 hr), List.length_append]
        rfl
      · have hplain : Text.splitOn '\n' [r] = [[r]] := Text.splitOn_cons_of_ne hr rfl
        rw [Text.splitOn_append ht hplain] at h
        obtain ⟨rfl, hlast⟩ := List.append_inj' h rfl
        obtain rfl := List.singleton_inj.1 hlast
        rw [after, if_neg (Rune.shown_eq_newline_iff.not.2 hr), List.length_append]
        rfl

/-- The position stands in a line of the source, before a rune of the line or at its end. -/
structure InLine (source : Text) (p : Position) (line : Text) : Prop where
  line_pos : 1 ≤ p.line
  line_le : p.line ≤ (Text.splitOn '\n' source).length
  getElem? : (Text.splitOn '\n' source)[p.line - 1]? = some line
  column_pos : 1 ≤ p.column
  column_le : p.column ≤ 1 + line.length

end Position

namespace Text

def Place (source : Text) (p : Position) : Prop :=
  ∃ front back, source = front ++ back ∧ p = Position.first.past front

theorem Place.exists_line {source : Text} {p : Position} (h : source.Place p) :
    ∃ line, p.InLine source line := by
  obtain ⟨front, back, rfl, rfl⟩ := h
  obtain ⟨pieces, last, hfront⟩ := exists_splitOn_concat '\n' front
  obtain ⟨first, more, hback⟩ := exists_splitOn_cons '\n' back
  have hlines := splitOn_append hfront hback
  rw [Position.first_past_eq hfront]
  refine ⟨last ++ first, Nat.le_add_left 1 _, ?_, ?_, Nat.le_add_left 1 _, ?_⟩
  · simp only [hlines, List.length_append, List.length_cons]
    omega
  · simp [hlines]
  · simp only [List.length_append]
    omega

end Text

section Feeds

variable {P : Position → Prop}

def ScanError.At (P : Position → Prop) : ScanError → Prop
  | lexical e => P e.pos
  | reader _ => False

def Ending.At (P : Position → Prop) : Ending → Prop
  | eof p => P p
  | broken e => e.At P

structure Feed.At (P : Position → Prop) (f : Feed) : Prop where
  cells : ∀ c ∈ f.cells, P c.pos
  ending : f.ending.At P

def ScannedAt (P : Position → Prop) : Except ScanError Token → Prop
  | .ok t => P t.pos
  | .error e => e.At P

namespace Feed

theorem At.cons {f : Feed} {c : Cell} (hc : P c.pos) (h : f.At P) : (cons c f).At P :=
  ⟨List.forall_mem_cons.2 ⟨hc, h.cells⟩, h.ending⟩

theorem At.shrink {f : Feed} {cells : List Cell} (h : f.At P) (hcells : ∀ c ∈ cells, c ∈ f.cells) :
    At P { f with cells } :=
  ⟨fun c hc => h.cells c (hcells c hc), h.ending⟩

/-- Cells stand where their runes do, and the blank of a comment at the opening quote. -/
theorem readFrom_at {comment : Option Position} {p : Position} {text : Text}
    (hcomment : ∀ q, comment = some q → P q)
    (htext : ∀ front back, text = front ++ back → P (p.past front)) :
    (readFrom none comment p text).At P := by
  induction text generalizing comment p with
  | nil =>
      refine ⟨fun c hc => (nomatch hc), ?_⟩
      cases comment with
      | none => exact htext [] [] rfl
      | some opened => exact hcomment opened rfl
  | cons r text ih =>
      have hp : P p := htext [] (r :: text) rfl
      have hrest : ∀ front back, text = front ++ back → P ((p.after r.shown).past front) :=
        fun front back h => htext (r :: front) back (congrArg (r :: ·) h)
      have hinside (q : Position) (hq : P q) : ∀ q', some q = some q' → P q' := by
        rintro q' ⟨⟩
        exact hq
      have houtside : ∀ q', none = some q' → P q' := fun q' h => nomatch h
      cases comment with
      | none =>
          by_cases hquote : r.shown = '"'
          · rw [readFrom, if_pos hquote]
            exact ih (hinside p hp) hrest
          · rw [readFrom, if_neg hquote]
            exact .cons hp (ih houtside hrest)
      | some opened =>
          by_cases hquote : r.shown = '"'
          · rw [readFrom, if_pos hquote]
            exact .cons (hcomment opened rfl) (ih houtside hrest)
          · rw [readFrom, if_neg hquote]
            exact ih hcomment hrest

theorem ofText_at (source : Text) : (ofText source none).At source.Place :=
  readFrom_at (fun _ h => (nomatch h)) fun front back h => ⟨front, back, h, rfl⟩

theorem nextRun_at {f : Feed} {c : Cell} (h : f.At P) (hc : P c.pos) :
    ScannedAt P (nextRun c f).1 ∧ (nextRun c f).2.At P := by
  unfold nextRun
  simp only [List.span_eq_takeWhile_dropWhile]
  split
  next hending =>
    have hbroken := h.ending
    rw [hending] at hbroken
    exact ⟨hbroken, h.shrink fun _ hc => (nomatch hc)⟩
  next => exact ⟨hc, h.shrink fun _ hc => (List.dropWhile_sublist _).mem hc⟩

theorem nextGroup_at {f : Feed} {c : Cell} (h : f.At P) (hc : P c.pos) (hopen : c.char = '(')
    (hcells : f.cells.head? = some c) : ScannedAt P (nextGroup c f).1 ∧ (nextGroup c f).2.At P := by
  obtain ⟨cells, ending⟩ := f
  obtain ⟨more, rfl⟩ : ∃ more, cells = c :: more := List.head?_eq_some_iff.1 hcells
  unfold nextGroup
  cases htake : takeGroup 0 (c :: more) with
  | some taken =>
      obtain ⟨group, rest⟩ := taken
      obtain ⟨hsplit, -⟩ := (takeGroup_eq_some_iff hopen).1 htake
      refine ⟨hc, h.shrink fun d hd => ?_⟩
      rw [hsplit]
      exact List.mem_append_right _ hd
  | none =>
      have hempty : At P (exhausted ⟨c :: more, ending⟩) := h.shrink fun _ hc => nomatch hc
      have hending := h.ending
      cases ending with
      | eof p => exact ⟨hc, hempty⟩
      | broken e => exact ⟨hending, hempty⟩

theorem next_at {f : Feed} (h : f.At P) : ScannedAt P f.next.1 ∧ f.next.2.At P := by
  have hskip : f.skipBlanks.At P := h.shrink fun _ hc => (List.dropWhile_sublist _).mem hc
  unfold next
  simp only
  split
  next =>
    refine ⟨?_, hskip⟩
    have hending := hskip.ending
    unfold finish
    split
    next p hp => rwa [hp] at hending
    next e he => rwa [he] at hending
  next c rest hcells =>
    have hc : P c.pos := hskip.cells c (hcells ▸ List.mem_cons_self)
    by_cases hopen : c.char = '('
    · rw [if_pos hopen]
      exact nextGroup_at hskip hc hopen (congrArg List.head? hcells)
    · rw [if_neg hopen]
      exact nextRun_at hskip hc

theorem tokensUpTo_at {f : Feed} (h : f.At P) (count : Nat) :
    (∀ t ∈ (tokensUpTo count f).1, P t.pos) ∧ ScannedAt P (tokensUpTo count f).2 := by
  induction count generalizing f with
  | zero =>
      refine ⟨List.forall_mem_nil _, ?_⟩
      have hending := h.ending
      simp only [tokensUpTo, finish]
      split
      next p hp => rwa [hp] at hending
      next e he => rwa [he] at hending
  | succ count ih =>
      obtain ⟨hscanned, hrest⟩ := next_at h
      rw [tokensUpTo]
      split
      next e _ hnext =>
        rw [hnext] at hscanned
        exact ⟨List.forall_mem_nil _, hscanned⟩
      next t rest hnext =>
        rw [hnext] at hscanned hrest
        split
        next => exact ⟨List.forall_mem_nil _, hscanned⟩
        next =>
          obtain ⟨htokens, hlast⟩ := ih hrest
          exact ⟨List.forall_mem_cons.2 ⟨hscanned, htokens⟩, hlast⟩

/-- The tokens of a source stand at places of it, and so does its end or what breaks it. -/
theorem tokens_at {source : Text} {tokens : List Token} {last : Except ScanError Token}
    (h : (ofText source none).tokens = (tokens, last)) :
    (∀ t ∈ tokens, source.Place t.pos) ∧ ScannedAt source.Place last := by
  have hall := tokensUpTo_at (ofText_at source) (ofText source none).cells.length
  rwa [show tokensUpTo _ (ofText source none) = (tokens, last) from h] at hall

end Feed

end Feeds

end Tortoise
