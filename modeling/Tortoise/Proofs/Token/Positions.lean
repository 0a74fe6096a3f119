import Tortoise.Proofs.Source.Places
import Tortoise.Proofs.Text.Utf8

/-!
# Where tokens and lexical errors stand

A position counts the line breaks in front of it and the runes behind the last of them. While a
source is read, the feed stands behind some front of the source in which all comments are closed,
and its first cell has the position behind that front. Taking blanks or a word off the feed only
moves the front, so every token has the position of the rune it starts with, however many lines the
comments and groups in front of it took.
-/

namespace Tortoise

open Text (Word Blank)

namespace Position

/-- The position behind a text: one line for each line break, and one column for each rune behind
the last of them. -/
def behind (front : Text) : Position :=
  ⟨1 + front.count (.char '\n'), 1 + (front.reverse.takeWhile (· ≠ .char '\n')).length⟩

theorem past_append (p : Position) (s t : Text) : p.past (s ++ t) = (p.past s).past t :=
  List.foldl_append

theorem first_past (front : Text) : first.past front = behind front := by
  induction front using List.reverseRecOn with
  | nil => rfl
  | append_singleton front r ih =>
      rw [past_append, ih]
      change (behind front).after r.shown = _
      by_cases hr : r = .char '\n'
      · rw [after, if_pos (Rune.shown_eq_newline_iff.2 hr)]
        simp [behind, hr, Nat.add_assoc]
      · rw [after, if_neg (Rune.shown_eq_newline_iff.not.2 hr)]
        simp [behind, hr, Nat.add_comm]

end Position

theorem Rune.eq_char_of_shown {r : Rune} {c : Char} (hc : c ≠ '\uFFFD') (h : r.shown = c) :
    r = .char c := by
  cases r with
  | char d => exact congrArg char h
  | stray b => exact absurd h.symm hc

/-- What is read from a source is `f`: all of it, or what stands in front of an open comment. -/
def Yields (s f : Text) : Prop :=
  Uncommented s f ∨ ∃ a c, s = a ++ .quote :: c ∧ .quote ∉ c ∧ Uncommented a f

namespace Feed

variable {failure : Option String} {s c rest : Text} {p q opened : Position} {ending : Ending}
  {cells more : List Cell}

theorem readFrom_past_inside (hc : .quote ∉ c) :
    readFrom failure (some opened) p (c ++ rest) =
      readFrom failure (some opened) (p.past c) rest := by
  induction c generalizing p with
  | nil => rfl
  | cons r c ih =>
      obtain ⟨hr, hc⟩ := not_or.1 (List.mem_cons.not.1 hc)
      have hinside : r.shown ≠ '"' := Rune.shown_eq_quote_iff.not.2 (Ne.symm hr)
      rw [List.cons_append, readFrom, if_neg hinside, ih hc]
      rfl

theorem readFrom_comment (hc : .quote ∉ c) :
    readFrom failure none p (.quote :: (c ++ .quote :: rest)) =
      cons ⟨' ', p⟩ (readFrom failure none (p.past (.quote :: (c ++ [.quote]))) rest) := by
  have hpast : p.past (.quote :: (c ++ [.quote])) = ((p.after '"').past c).after '"' :=
    Position.past_append (p.after '"') c [.quote]
  rw [readFrom_quote, readFrom_past_inside hc, hpast]
  exact if_pos rfl

theorem readFrom_open (hc : .quote ∉ c) :
    readFrom failure none p (.quote :: c) =
      ⟨[], endingAt failure (some p) (p.past (.quote :: c))⟩ := by
  have hinside := @readFrom_past_inside failure c [] (p.after '"') p hc
  rw [List.append_nil] at hinside
  rw [readFrom_quote, hinside]
  rfl

/-- Nothing is read at the end of the source or from an open comment. -/
theorem readFrom_eq_nil (h : readFrom none none p s = ⟨[], ending⟩) :
    s = [] ∧ ending = .eof p ∨
      ∃ c, s = .quote :: c ∧ .quote ∉ c ∧
        ending = .broken (.lexical ⟨.unterminatedComment, p⟩) := by
  cases s with
  | nil => exact .inl ⟨rfl, (congrArg Feed.ending h).symm⟩
  | cons r s =>
      by_cases hr : r = .quote
      · subst hr
        by_cases hclosed : .quote ∈ s
        · obtain ⟨c, rest, rfl, hc⟩ := List.eq_append_cons_of_mem hclosed
          rw [readFrom_comment hc] at h
          cases congrArg Feed.cells h
        · rw [readFrom_open hclosed] at h
          exact .inr ⟨s, rfl, hclosed, (congrArg Feed.ending h).symm⟩
      · rw [readFrom_rune hr] at h
        cases congrArg Feed.cells h

/-- A cell comes from one rune or from a comment, and reading goes on behind that. -/
theorem exists_of_readFrom_cons {d : Cell}
    (h : readFrom failure none p s = ⟨d :: more, ending⟩) :
    ∃ a b, s = a ++ b ∧ Uncommented a [d.rune] ∧ d.pos = p ∧
      readFrom failure none (p.past a) b = ⟨more, ending⟩ ∧
      (d.isBlank = false → ∃ r, a = [r] ∧ d.rune = .char r.shown) := by
  have hinj {e : Cell} {f : Feed} (hcons : cons e f = ⟨d :: more, ending⟩) :
      d = e ∧ f = ⟨more, ending⟩ := by
    obtain ⟨hhead, htail⟩ := List.cons.inj (congrArg Feed.cells hcons)
    obtain ⟨cells, ending'⟩ := f
    exact ⟨hhead.symm, congrArg₂ Feed.mk htail (congrArg Feed.ending hcons)⟩
  cases s with
  | nil => cases congrArg Feed.cells h
  | cons r s =>
      by_cases hr : r = .quote
      · subst hr
        by_cases hclosed : .quote ∈ s
        · obtain ⟨c, rest, rfl, hc⟩ := List.eq_append_cons_of_mem hclosed
          rw [readFrom_comment hc] at h
          obtain ⟨rfl, hrest⟩ := hinj h
          have hblank : (Rune.char ' ').isBlank = true := by decide
          refine ⟨_, rest, by simp, .comment hc .nil, rfl, hrest, fun hsolid => ?_⟩
          cases hblank.symm.trans hsolid
        · rw [readFrom_open hclosed] at h
          cases congrArg Feed.cells h
      · rw [readFrom_rune hr] at h
        obtain ⟨rfl, hrest⟩ := hinj h
        exact ⟨[r], s, rfl, .rune hr .nil, rfl, hrest, fun _ => ⟨r, rfl, rfl⟩⟩

/-- A place between two cells is a place of the source. -/
theorem exists_of_readFrom_append (h : readFrom failure none p s = ⟨cells ++ more, ending⟩) :
    ∃ a b, s = a ++ b ∧ Uncommented a (cells.map Cell.rune) ∧
      readFrom failure none (p.past a) b = ⟨more, ending⟩ := by
  induction cells generalizing p s with
  | nil => exact ⟨[], s, rfl, .nil, h⟩
  | cons d cells ih =>
      obtain ⟨a, b, rfl, ha, -, hread, -⟩ := exists_of_readFrom_cons h
      obtain ⟨a', b', rfl, ha', hread'⟩ := ih hread
      refine ⟨a ++ a', b', (List.append_assoc a a' b').symm, ha.append ha', ?_⟩
      rwa [Position.past_append]

/-- How a feed ends is how the source does. -/
theorem readFrom_ending (h : readFrom none none p s = ⟨cells, ending⟩) :
    Uncommented s (cells.map Cell.rune) ∧ ending = .eof (p.past s) ∨
      ∃ a c, s = a ++ .quote :: c ∧ .quote ∉ c ∧ Uncommented a (cells.map Cell.rune) ∧
        ending = .broken (.lexical ⟨.unterminatedComment, p.past a⟩) := by
  rw [← List.append_nil cells] at h
  obtain ⟨a, b, rfl, ha, hread⟩ := exists_of_readFrom_append h
  obtain ⟨rfl, hending⟩ | ⟨c, rfl, hc, hending⟩ := readFrom_eq_nil hread
  · rw [List.append_nil]
    exact .inl ⟨ha, hending⟩
  · exact .inr ⟨a, c, rfl, hc, ha, hending⟩

theorem yields_of_readFrom (h : readFrom none none p s = ⟨cells, ending⟩) :
    Yields s (cells.map Cell.rune) := by
  obtain ⟨hs, -⟩ | ⟨a, c, hs, hc, ha, -⟩ := readFrom_ending h
  · exact .inl hs
  · exact .inr ⟨a, c, hs, hc, ha⟩

inductive Found (f : Feed) : Except ScanError Token × Feed → Prop
  | ends : Found f (f.finish, f.exhausted)
  | unclosed {p : Position} {more : List Cell} {c : Cell} (gap : List Cell)
      (hending : f.ending = .eof p) (hcells : f.cells = gap ++ c :: more)
      (hgap : Blank (gap.map Cell.rune)) (hopen : Text.Unclosed ((c :: more).map Cell.rune)) :
      Found f (.error (.lexical ⟨.unterminatedGroup, c.pos⟩), f.exhausted)
  | word {more rest : List Cell} {c : Cell} (gap : List Cell)
      (hcells : f.cells = gap ++ (c :: more ++ rest)) (hgap : Blank (gap.map Cell.rune))
      (hword : Word ((c :: more).map Cell.rune) (rest.map Cell.rune)) :
      Found f (.ok ⟨.ofWord ((c :: more).map Cell.rune), (c :: more).map Cell.rune, c.pos⟩,
        { f with cells := rest })

theorem Found.of_blank {c : Cell} {result : Except ScanError Token × Feed}
    (hc : c.isBlank = true) (h : Found ⟨cells, ending⟩ result) :
    Found ⟨c :: cells, ending⟩ result := by
  cases h with
  | ends => exact .ends
  | unclosed gap hending hcells hgap hopen =>
      have hgap' : Blank ((c :: gap).map Cell.rune) := Text.blank_cons.2 ⟨hc, hgap⟩
      exact .unclosed (c :: gap) hending (congrArg (c :: ·) hcells) hgap' hopen
  | word gap hcells hgap hword =>
      have hgap' : Blank ((c :: gap).map Cell.rune) := Text.blank_cons.2 ⟨hc, hgap⟩
      exact .word (c :: gap) (congrArg (c :: ·) hcells) hgap' hword

theorem found_nextGroup {c : Cell} (hc : c.char = '(') :
    Found ⟨c :: cells, ending⟩ (nextGroup c ⟨c :: cells, ending⟩) := by
  unfold nextGroup
  cases htake : takeGroup 0 (c :: cells) with
  | some taken =>
      obtain ⟨group, rest⟩ := taken
      obtain ⟨hcells, hgroup⟩ := (takeGroup_eq_some_iff hc).1 htake
      obtain _ | ⟨d, more⟩ := group
      · cases hgroup.opens
      obtain ⟨rfl, -⟩ := List.cons.inj hcells
      have hkind : TokenKind.expression = .ofWord ((c :: more).map Cell.rune) := by
        simp [TokenKind.ofWord, Cell.rune, hc, Rune.is]
      simp only [hkind]
      exact .word [] hcells Text.blank_nil (.inl hgroup)
  | none =>
      cases ending with
      | broken e => exact .ends
      | eof p =>
          refine .unclosed [] rfl rfl Text.blank_nil ⟨congrArg (some ∘ Rune.char) hc, ?_⟩
          intro g rest heq hg
          obtain ⟨group, more, hcells, rfl, rfl⟩ := List.map_eq_append_iff.1 heq
          rw [(takeGroup_eq_some_iff hc).2 ⟨hcells, hg⟩] at htake
          cases htake

theorem found_nextRun {c : Cell} (hc : c.isBlank = false) (hopen : c.char ≠ '(') :
    Found ⟨c :: cells, ending⟩ (nextRun c ⟨c :: cells, ending⟩) := by
  have hspec := @nextRun_spec c cells ending hc hopen
  have hfirst : (c :: cells).takeWhile (fun d => !d.isBlank) =
      c :: cells.takeWhile (fun d => !d.isBlank) := List.takeWhile_cons_of_pos (by simp [hc])
  have hcut : c :: cells = c :: cells.takeWhile (fun d => !d.isBlank) ++
      (c :: cells).dropWhile (fun d => !d.isBlank) := by
    rw [← hfirst, List.takeWhile_append_dropWhile]
  generalize hrun : nextRun c ⟨c :: cells, ending⟩ = result at hspec ⊢
  unfold nextRun at hrun
  simp only [List.span_eq_takeWhile_dropWhile] at hrun
  split at hrun
  next =>
    subst hrun
    exact .ends
  next =>
    subst hrun
    rw [hfirst] at hspec ⊢
    generalize (if c.rune.isUpper || c.rune.isDigit then _ else _) = kind at hspec ⊢
    cases hspec with
    | word _ _ _ hkind hword =>
        have hkind' : kind = .ofWord ((c :: cells.takeWhile fun d => !d.isBlank).map Cell.rune) :=
          hkind
        rw [hkind']
        exact .word [] hcut Text.blank_nil hword

theorem found_next (f : Feed) : Found f f.next := by
  obtain ⟨cells, ending⟩ := f
  induction cells with
  | nil => exact .ends
  | cons c cells ih =>
      by_cases hc : c.isBlank = true
      · rw [next_blank hc]
        exact ih.of_blank hc
      · rw [Bool.not_eq_true] at hc
        rw [next_solid hc]
        by_cases hopen : c.char = '('
        · rw [if_pos hopen]
          exact found_nextGroup hopen
        · rw [if_neg hopen]
          exact found_nextRun hc hopen

theorem Found.ending_eq {f : Feed} {result : Except ScanError Token × Feed}
    (h : Found f result) : result.2.ending = f.ending := by
  cases h <;> rfl

def afterCalls (f : Feed) : Nat → Feed
  | 0 => f
  | n + 1 => (f.afterCalls n).next.2

structure ReadsOn (source front : Text) (ws : List Text) (f : Feed) : Prop where
  exists_back : ∃ back, source = front ++ back ∧ readFrom none none (.behind front) back = f
  exists_words : ∃ a, Uncommented front a ∧ Splits (a ++ f.text) ws f.text

end Feed

/-- The result of the call behind `n` others has the position of its first rune in the source. -/
inductive Located (source : Text) (n : Nat) : Except ScanError Token → Prop
  /-- The rune `r` starts the word behind the first `n` of the reading. -/
  | word {front back f g : Text} {ws : List Text} {r : Rune} {literal : Text}
      (hsource : source = front ++ r :: back) (hfront : Uncommented front f)
      (hback : Yields (r :: back) (literal ++ g))
      (hwords : Splits (f ++ (literal ++ g)) ws (literal ++ g)) (hcount : ws.length = n)
      (hword : Word literal g) (hfirst : literal.head? = some (.char r.shown)) :
      Located source n (.ok ⟨.ofWord literal, literal, .behind front⟩)
  | eof {f : Text} (hsource : Uncommented source f) :
      Located source n (.ok ⟨.eof, [], .behind source⟩)
  /-- The comment that starts behind `front` goes on to the end. -/
  | comment {front c f : Text} (hsource : source = front ++ .quote :: c) (hc : .quote ∉ c)
      (hfront : Uncommented front f) :
      Located source n (.error (.lexical ⟨.unterminatedComment, .behind front⟩))
  /-- The group that starts behind `front` and the first `n` words is never closed. -/
  | group {front back f g : Text} {ws : List Text} (hsource : source = front ++ .char '(' :: back)
      (hfront : Uncommented front f) (hback : Uncommented (.char '(' :: back) g)
      (hwords : Splits (f ++ g) ws g) (hcount : ws.length = n) (hopen : g.Unclosed) :
      Located source n (.error (.lexical ⟨.unterminatedGroup, .behind front⟩))

namespace Feed

section Calls

variable {source front : Text} {ws : List Text} {f : Feed} {ending : Ending}
  {cells more : List Cell} {result : Except ScanError Token × Feed}

namespace ReadsOn

theorem start (source : Text) : ReadsOn source [] [] (ofText source none) :=
  ⟨⟨source, rfl, rfl⟩, [], .nil, .here _⟩

/-- Taking cells off the feed moves the front. -/
theorem advance {vs : List Text} (h : ReadsOn source front ws ⟨cells ++ more, ending⟩)
    (hwords : Splits ((cells ++ more).map Cell.rune) vs (more.map Cell.rune)) :
    ∃ front', ReadsOn source front' (ws ++ vs) ⟨more, ending⟩ := by
  obtain ⟨⟨back, rfl, hread⟩, a, ha, hsplits⟩ := h
  obtain ⟨b, back, rfl, hb, hread⟩ := exists_of_readFrom_append hread
  refine ⟨front ++ b, ⟨back, (List.append_assoc ..).symm, ?_⟩, a ++ cells.map Cell.rune,
    ha.append hb, ?_⟩
  · rwa [← Position.first_past, Position.past_append, Position.first_past]
  · rw [List.append_assoc, text, ← List.map_append]
    exact hsplits.append hwords

theorem skip {gap : List Cell} (h : ReadsOn source front ws ⟨gap ++ more, ending⟩)
    (hgap : Blank (gap.map Cell.rune)) : ∃ front', ReadsOn source front' ws ⟨more, ending⟩ := by
  have hwords := Splits.of_blank hgap (more.map Cell.rune)
  rw [← List.map_append] at hwords
  simpa using h.advance hwords

/-- A cell that is not blank is the rune behind the front. -/
theorem exists_rune {c : Cell} (h : ReadsOn source front ws ⟨c :: more, ending⟩)
    (hc : c.isBlank = false) :
    c.pos = .behind front ∧ ∃ r back, source = front ++ r :: back ∧ c.rune = .char r.shown ∧
      readFrom none none (.behind front) (r :: back) = ⟨c :: more, ending⟩ := by
  obtain ⟨back, rfl, hread⟩ := h.exists_back
  obtain ⟨a, b, rfl, -, hpos, -, hsolid⟩ := exists_of_readFrom_cons hread
  obtain ⟨r, rfl, hr⟩ := hsolid hc
  exact ⟨hpos, r, b, rfl, hr, hread⟩

end ReadsOn

theorem located_finish (hending : f.ending = (ofText source none).ending) (n : Nat) :
    Located source n f.finish := by
  obtain ⟨hsource, hend⟩ | ⟨front, c, hsource, hc, hfront, hend⟩ :=
    readFrom_ending (rfl : readFrom none none .first source = ⟨_, _⟩)
  · rw [finish, hending, ofText, hend, Position.first_past]
    exact .eof hsource
  · rw [finish, hending, ofText, hend, Position.first_past]
    exact .comment hsource hc hfront

/-- A call on a feed that reads on. -/
theorem ReadsOn.next (h : ReadsOn source front ws f)
    (hending : f.ending = (ofText source none).ending) (hfound : Found f result) :
    Located source ws.length result.1 ∧
      (result.2.cells = [] ∨ ∃ front w, ReadsOn source front (ws ++ [w]) result.2) := by
  obtain ⟨cells, ending⟩ := f
  cases hfound with
  | ends => exact ⟨located_finish hending _, .inl rfl⟩
  | @unclosed p more c gap hp hcells hgap hopen =>
      refine ⟨?_, .inl rfl⟩
      obtain rfl : cells = gap ++ c :: more := hcells
      obtain rfl : ending = .eof p := hp
      obtain ⟨front, hread⟩ := h.skip hgap
      have hc : c.rune = .char '(' := Option.some.inj hopen.1
      have hsolid : c.isBlank = false := by rw [Cell.isBlank, hc, Text.isBlank_open]
      obtain ⟨hpos, r, back, hsource, hr, hback⟩ := hread.exists_rune hsolid
      have hshown : r.shown = '(' := Rune.char.inj (hr.symm.trans hc)
      obtain rfl : r = .char '(' := Rune.eq_char_of_shown (by decide) hshown
      obtain ⟨f, hfront, hwords⟩ := hread.exists_words
      obtain ⟨hrest, -⟩ | ⟨_, _, _, _, _, hbroken⟩ := readFrom_ending hback
      · rw [hpos]
        exact .group hsource hfront hrest hwords rfl hopen
      · cases hbroken
  | @word more rest c gap hcells hgap hword =>
      obtain rfl : cells = gap ++ (c :: more ++ rest) := hcells
      obtain ⟨front, hread⟩ := h.skip hgap
      constructor
      · have hsolid : c.isBlank = false := by
          obtain ⟨r, _, hcons, hr⟩ := hword.exists_cons
          rw [Cell.isBlank, (List.cons.inj hcons).1, hr]
        obtain ⟨hpos, r, back, hsource, hr, hback⟩ := hread.exists_rune hsolid
        obtain ⟨f, hfront, hwords⟩ := hread.exists_words
        have hyields : Yields (r :: back) ((c :: more ++ rest).map Cell.rune) :=
          yields_of_readFrom hback
        rw [List.map_append] at hyields
        rw [text, List.map_append] at hwords
        rw [hpos]
        exact .word hsource hfront hyields hwords rfl hword (congrArg some hr)
      · have hwords : Splits ((c :: more ++ rest).map Cell.rune) [(c :: more).map Cell.rune]
            (rest.map Cell.rune) := by
          rw [List.map_append]
          exact .word hword (.here _)
        obtain ⟨front', hread⟩ := hread.advance hwords
        exact .inr ⟨front', _, hread⟩

structure Stage (source : Text) (n : Nat) (f : Feed) : Prop where
  ending : f.ending = (ofText source none).ending
  cells : f.cells = [] ∨ ∃ front ws, ReadsOn source front ws f ∧ ws.length = n

theorem Stage.next {n : Nat} (h : Stage source n f) :
    Located source n f.next.1 ∧ Stage source (n + 1) f.next.2 := by
  have hfound := found_next f
  have hending := hfound.ending_eq.trans h.ending
  obtain hnil | ⟨front, ws, hread, rfl⟩ := h.cells
  · obtain ⟨cells, ending⟩ := f
    obtain rfl : cells = [] := hnil
    exact ⟨located_finish h.ending n, hending, .inl rfl⟩
  · obtain ⟨hlocated, hcells | ⟨front, w, hread⟩⟩ := hread.next h.ending hfound
    · exact ⟨hlocated, hending, .inl hcells⟩
    · exact ⟨hlocated, hending, .inr ⟨front, ws ++ [w], hread, by simp⟩⟩

theorem stage_afterCalls (source : Text) (n : Nat) :
    Stage source n ((ofText source none).afterCalls n) := by
  induction n with
  | zero => exact ⟨rfl, .inr ⟨[], [], .start source, rfl⟩⟩
  | succ n ih => exact ih.next.2

end Calls

/-- Every call gives a token, the end or an error at its own place in the source, in which each
character counts once and so does each byte that belongs to none. -/
theorem positions_are_exact (source : Bytes) (n : Nat) :
    Text.Decodes source (.ofBytes source) ∧
      Located (.ofBytes source) n ((ofText (.ofBytes source) none).afterCalls n).next.1 :=
  ⟨Text.decodes_ofBytes source, (stage_afterCalls (.ofBytes source) n).next.1⟩

-- A line break inside a comment counts, and so does a byte that belongs to no character.
example : ((ofText (.ofBytes [0x22, 0x0a, 0x22, 0xff, 0x20, 0x41]) none).afterCalls 1).next.1 =
    .ok ⟨.expression, [.char 'A'], ⟨2, 4⟩⟩ := by
  rfl

end Feed

end Tortoise
