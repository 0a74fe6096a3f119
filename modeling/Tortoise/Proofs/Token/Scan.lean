import Tortoise.Proofs.Source.Uncommented
import Tortoise.Proofs.Token.Splits
import Mathlib.Data.List.TakeDrop

/-!
# Scanning finds the words of a text

What one call of `Feed.next` can do is said once; the tokens of a feed follow by induction. Their
literals are the words of the text, and the first rune of a word decides its kind. A feed that
ends well gives an error only for a parenthesis that is never closed.
-/

namespace Tortoise

open Tortoise.Expr (depthAfter depthAfter_cons)
open Text (Word AtBlank Blank)

section Groups

variable {cells group rest : List Cell} {c : Cell}

theorem Cell.rune_is (c : Cell) (d : Char) : c.rune.is d = true ↔ c.char = d := by
  simp [Cell.rune, Rune.is]

theorem takeGroup_append {inner : List Cell} {depth : Nat} {close : Cell}
    (hinner : depthAfter depth (inner.map Cell.rune) = some 0) (hclose : close.char = ')') :
    takeGroup (depth + 1) (inner ++ close :: rest) = some (inner ++ [close], rest) := by
  induction inner generalizing depth with
  | nil =>
      obtain rfl : depth = 0 := by simpa [depthAfter] using hinner
      simp [takeGroup, hclose]
  | cons c inner ih =>
      rw [List.map_cons, depthAfter_cons] at hinner
      rw [List.cons_append, takeGroup]
      by_cases hopen : c.char = '('
      · rw [if_pos ((c.rune_is _).2 hopen)] at hinner
        rw [if_pos hopen, ih hinner]
        rfl
      · rw [if_neg ((c.rune_is _).not.2 hopen)] at hinner
        rw [if_neg hopen]
        by_cases hshut : c.char = ')'
        · rw [if_pos ((c.rune_is _).2 hshut)] at hinner
          cases depth with
          | zero => cases hinner
          | succ depth =>
              rw [if_neg (by omega), if_pos hshut, Nat.add_sub_cancel, ih hinner]
              rfl
        · rw [if_neg ((c.rune_is _).not.2 hshut)] at hinner
          rw [if_neg fun h => hshut h.1, if_neg hshut, ih hinner]
          rfl

theorem exists_of_takeGroup {depth : Nat} (h : takeGroup (depth + 1) cells = some (group, rest)) :
    ∃ inner close, cells = inner ++ close :: rest ∧ group = inner ++ [close] ∧
      close.char = ')' ∧ depthAfter depth (inner.map Cell.rune) = some 0 := by
  induction cells generalizing depth group with
  | nil => cases h
  | cons c cells ih =>
      rw [takeGroup] at h
      by_cases hopen : c.char = '('
      · rw [if_pos hopen, Option.map_eq_some_iff] at h
        obtain ⟨⟨group', rest'⟩, htake, heq⟩ := h
        obtain ⟨rfl, rfl⟩ := Prod.mk.inj heq
        obtain ⟨inner, close, rfl, rfl, hclose, hinner⟩ := ih htake
        refine ⟨c :: inner, close, rfl, rfl, hclose, ?_⟩
        rw [List.map_cons, depthAfter_cons, if_pos ((c.rune_is _).2 hopen), hinner]
      · rw [if_neg hopen] at h
        by_cases hlast : c.char = ')' ∧ depth + 1 ≤ 1
        · rw [if_pos hlast] at h
          obtain ⟨rfl, rfl⟩ := Prod.mk.inj (Option.some.inj h)
          obtain rfl : depth = 0 := by omega
          exact ⟨[], c, rfl, rfl, hlast.1, rfl⟩
        · rw [if_neg hlast, Option.map_eq_some_iff] at h
          obtain ⟨⟨group', rest'⟩, htake, heq⟩ := h
          obtain ⟨rfl, rfl⟩ := Prod.mk.inj heq
          by_cases hshut : c.char = ')'
          · obtain ⟨depth, rfl⟩ : ∃ less, depth = less + 1 :=
              Nat.exists_eq_succ_of_ne_zero fun hzero => hlast ⟨hshut, by omega⟩
            rw [if_pos hshut, Nat.add_sub_cancel] at htake
            obtain ⟨inner, close, rfl, rfl, hclose, hinner⟩ := ih htake
            refine ⟨c :: inner, close, rfl, rfl, hclose, ?_⟩
            rw [List.map_cons, depthAfter_cons, if_neg ((c.rune_is _).not.2 hopen),
              if_pos ((c.rune_is _).2 hshut)]
            exact hinner
          · rw [if_neg hshut] at htake
            obtain ⟨inner, close, rfl, rfl, hclose, hinner⟩ := ih htake
            refine ⟨c :: inner, close, rfl, rfl, hclose, ?_⟩
            rw [List.map_cons, depthAfter_cons, if_neg ((c.rune_is _).not.2 hopen),
              if_neg ((c.rune_is _).not.2 hshut), hinner]

/-- From a parenthesis on, the group that is taken is the shortest balanced run. -/
theorem takeGroup_eq_some_iff (hc : c.char = '(') :
    takeGroup 0 (c :: cells) = some (group, rest) ↔
      c :: cells = group ++ rest ∧ Text.Group (group.map Cell.rune) := by
  have htake : takeGroup 0 (c :: cells) =
      (takeGroup 1 cells).map (Prod.map (c :: ·) id) := if_pos hc
  have hrune : c.rune = .char '(' := congrArg Rune.char hc
  rw [htake, Option.map_eq_some_iff, Text.group_iff]
  constructor
  · rintro ⟨⟨group', rest'⟩, htake, heq⟩
    obtain ⟨rfl, rfl⟩ := Prod.mk.inj heq
    obtain ⟨inner, close, rfl, rfl, hclose, hinner⟩ := exists_of_takeGroup htake
    have hshut : close.rune = .char ')' := congrArg Rune.char hclose
    refine ⟨by simp, inner.map Cell.rune, Expr.balanced_of_depthAfter hinner, ?_⟩
    simp [hrune, hshut]
  · rintro ⟨hcells, inner, hinner, hgroup⟩
    obtain ⟨d, group, rfl, hd, hgroup⟩ := List.map_eq_cons_iff.1 hgroup
    obtain ⟨within, last, rfl, rfl, hlast⟩ := List.map_eq_append_iff.1 hgroup
    obtain ⟨close, rfl, hclose⟩ := List.map_eq_singleton_iff.1 hlast
    obtain ⟨rfl, rfl⟩ := List.cons.inj (hcells.trans List.cons_append)
    refine ⟨(within ++ [close], rest), ?_, rfl⟩
    rw [List.append_assoc]
    exact takeGroup_append (hinner 0) (Rune.char.inj hclose)

end Groups

def TokenKind.ofWord (w : Text) : TokenKind :=
  if w.head?.any fun r => r.is '(' || r.isUpper || r.isDigit then .expression else .keyword

theorem TokenKind.ofWord_ne_eof (w : Text) : ofWord w ≠ .eof := by
  unfold ofWord
  split <;> simp

namespace Feed

variable {f f' : Feed} {t : Token}

def text (f : Feed) : Text := f.cells.map Cell.rune

inductive Next (f : Feed) : Except ScanError Token × Feed → Prop
  | fails {e : ScanError} {f' : Feed} (hopen : ∀ p, f.ending = .eof p →
      ∃ gap rest, Blank gap ∧ f.text = gap ++ rest ∧ rest.Unclosed) : Next f (.error e, f')
  | ends {p : Position} {f' : Feed} (hending : f.ending = .eof p) (hblank : Blank f.text) :
      Next f (.ok ⟨.eof, [], p⟩, f')
  | word {t : Token} {f' : Feed} {gap : Text} (hgap : Blank gap)
      (htext : f.text = gap ++ (t.literal ++ f'.text)) (hending : f'.ending = f.ending)
      (hkind : t.kind = .ofWord t.literal) (hword : Word t.literal f'.text) : Next f (.ok t, f')

theorem next_blank {c : Cell} {cells : List Cell} {ending : Ending} (hc : c.isBlank = true) :
    next ⟨c :: cells, ending⟩ = next ⟨cells, ending⟩ := by
  simp [next, skipBlanks, hc]

theorem next_solid {c : Cell} {cells : List Cell} {ending : Ending} (hc : c.isBlank = false) :
    next ⟨c :: cells, ending⟩ =
      if c.char = '(' then nextGroup c ⟨c :: cells, ending⟩
      else nextRun c ⟨c :: cells, ending⟩ := by
  simp [next, skipBlanks, hc]

theorem Next.of_blank {c : Cell} {cells : List Cell} {ending : Ending}
    {result : Except ScanError Token × Feed} (hc : c.isBlank = true)
    (h : Next ⟨cells, ending⟩ result) : Next ⟨c :: cells, ending⟩ result := by
  cases h with
  | fails hopen =>
      refine .fails fun p hp => ?_
      obtain ⟨gap, rest, hgap, htext, hrest⟩ := hopen p hp
      exact ⟨c.rune :: gap, rest, Text.blank_cons.2 ⟨hc, hgap⟩, congrArg (c.rune :: ·) htext, hrest⟩
  | ends hending hblank => exact .ends hending (Text.blank_cons.2 ⟨hc, hblank⟩)
  | word hgap htext hending hkind hword =>
      exact .word (Text.blank_cons.2 ⟨hc, hgap⟩) (congrArg (c.rune :: ·) htext) hending hkind hword

theorem nextGroup_spec {c : Cell} {cells : List Cell} {ending : Ending} (hc : c.char = '(') :
    Next ⟨c :: cells, ending⟩ (nextGroup c ⟨c :: cells, ending⟩) := by
  unfold nextGroup
  cases htake : takeGroup 0 (c :: cells) with
  | some taken =>
      obtain ⟨group, rest⟩ := taken
      obtain ⟨hcells, hgroup⟩ := (takeGroup_eq_some_iff hc).1 htake
      have hkind : TokenKind.expression = .ofWord (group.map Cell.rune) := by
        simp [TokenKind.ofWord, hgroup.opens, Rune.is]
      refine .word Text.blank_nil ?_ rfl hkind (.inl hgroup)
      simp [text, hcells]
  | none =>
      have hopen : ∀ p, ending = .eof p → ∃ gap rest, Blank gap ∧
          text ⟨c :: cells, ending⟩ = gap ++ rest ∧ rest.Unclosed := by
        intro p _
        refine ⟨[], _, Text.blank_nil, rfl, congrArg (some ∘ Rune.char) hc, ?_⟩
        intro g rest heq hg
        rw [← List.map_cons] at heq
        obtain ⟨group, more, hcells, rfl, rfl⟩ := List.map_eq_append_iff.1 heq
        rw [(takeGroup_eq_some_iff hc).2 ⟨hcells, hg⟩] at htake
        cases htake
      cases ending with
      | eof p => exact .fails hopen
      | broken e => exact .fails hopen

theorem nextRun_spec {c : Cell} {cells : List Cell} {ending : Ending} (hc : c.isBlank = false)
    (hopen : c.char ≠ '(') : Next ⟨c :: cells, ending⟩ (nextRun c ⟨c :: cells, ending⟩) := by
  let solid (d : Cell) : Bool := !d.isBlank
  have hcut : (c :: cells).takeWhile solid ++ (c :: cells).dropWhile solid = c :: cells :=
    List.takeWhile_append_dropWhile
  have hfirst : (c :: cells).takeWhile solid = c :: cells.takeWhile solid :=
    List.takeWhile_cons_of_pos (by simp [solid, hc])
  have hrun : Text.Run (((c :: cells).takeWhile solid).map Cell.rune) := by
    refine ⟨by simp [hfirst], ?_, ?_⟩
    · intro r hr
      obtain ⟨d, hd, rfl⟩ := List.mem_map.1 hr
      have hsolid : solid d = true := List.all_eq_true.1 List.all_takeWhile d hd
      simpa [solid, Cell.isBlank] using hsolid
    · simpa [hfirst, Cell.rune] using hopen
  have hend : AtBlank (((c :: cells).dropWhile solid).map Cell.rune) := by
    intro r hr
    rw [List.head?_map] at hr
    obtain ⟨d, hd, rfl⟩ := Option.mem_map.1 hr
    have hstop := List.head?_dropWhile_not solid (c :: cells)
    rw [Option.mem_def.1 hd] at hstop
    simpa [solid, Cell.isBlank] using hstop
  have hkind : (if c.rune.isUpper || c.rune.isDigit then TokenKind.expression else .keyword) =
      .ofWord (((c :: cells).takeWhile solid).map Cell.rune) := by
    have hplain : c.rune.is '(' = false := by simpa [Cell.rune, Rune.is] using hopen
    simp [TokenKind.ofWord, hfirst, hplain]
  unfold nextRun
  simp only [List.span_eq_takeWhile_dropWhile]
  split
  · exact .fails fun p hp => by simp_all
  · refine .word Text.blank_nil ?_ rfl hkind (.inr ⟨hrun, hend⟩)
    rw [List.nil_append, text, text, ← List.map_append]
    exact congrArg _ hcut.symm

/-- What `next` does. -/
theorem next_spec (f : Feed) : Next f f.next := by
  obtain ⟨cells, ending⟩ := f
  induction cells with
  | nil =>
      cases ending with
      | eof p => exact .ends rfl Text.blank_nil
      | broken e => exact .fails fun p hp => nomatch hp
  | cons c cells ih =>
      by_cases hc : c.isBlank = true
      · rw [next_blank hc]
        exact ih.of_blank hc
      · rw [Bool.not_eq_true] at hc
        rw [next_solid hc]
        by_cases hopen : c.char = '('
        · rw [if_pos hopen]
          exact nextGroup_spec hopen
        · rw [if_neg hopen]
          exact nextRun_spec hc hopen

theorem Next.length_lt (h : Next f (.ok t, f')) (hkind : t.kind ≠ .eof) :
    f'.cells.length < f.cells.length := by
  cases h with
  | ends => exact absurd rfl hkind
  | word _ htext _ _ hword =>
      obtain ⟨r, more, hliteral, -⟩ := hword.exists_cons
      have hlength := congrArg List.length htext
      simp only [text, hliteral, List.length_append, List.length_map, List.length_cons] at hlength
      omega

/-- A feed has no more tokens than cells, so counting further changes nothing. -/
theorem tokensUpTo_eq {count other : Nat} (hcount : f.cells.length ≤ count)
    (hother : f.cells.length ≤ other) : tokensUpTo count f = tokensUpTo other f := by
  have hzero : ∀ f : Feed, ∀ n, f.cells.length ≤ 0 → tokensUpTo n f = ([], f.finish) := by
    intro f n hempty
    obtain ⟨cells, ending⟩ := f
    obtain rfl : cells = [] := List.length_eq_zero_iff.1 (Nat.le_zero.1 hempty)
    cases n with
    | zero => rfl
    | succ n => cases ending <;> rfl
  induction count generalizing f other with
  | zero => rw [hzero f other hcount, hzero f 0 hcount]
  | succ count ih =>
      cases other with
      | zero => rw [hzero f (count + 1) hother, hzero f 0 hother]
      | succ other =>
          have hspec := f.next_spec
          rw [tokensUpTo, tokensUpTo]
          rcases hnext : f.next with ⟨e | t, f'⟩
          · rfl
          · by_cases hkind : t.kind = .eof
            · simp only [hkind, if_true]
            · rw [hnext] at hspec
              have hshort := hspec.length_lt hkind
              simp only [hkind, if_false, @ih f' other (by omega) (by omega)]

theorem tokens_eq (f : Feed) : f.tokens = match f.next with
    | (.error e, _) => ([], .error e)
    | (.ok t, rest) =>
      if t.kind = .eof then ([], .ok t) else (t :: rest.tokens.1, rest.tokens.2) := by
  rw [tokens, tokensUpTo_eq (Nat.le_refl _) (Nat.le_succ _), tokensUpTo]
  have hspec := f.next_spec
  rcases hnext : f.next with ⟨e | t, f'⟩
  · rfl
  · by_cases hkind : t.kind = .eof
    · simp only [hkind, if_true]
    · rw [hnext] at hspec
      have hshort := hspec.length_lt hkind
      simp only [hkind, if_false, tokens,
        @tokensUpTo_eq f' f.cells.length f'.cells.length (by omega) (Nat.le_refl _)]

/-- The first tokens of a feed are the first words of its text. -/
theorem splits_of_tokens {ts us : List Token} {last : Except ScanError Token}
    (h : f.tokens = (ts ++ us, last)) : ∃ f' : Feed, f'.ending = f.ending ∧
      f'.tokens = (us, last) ∧ Splits f.text (ts.map Token.literal) f'.text ∧
      ∀ t ∈ ts, t.kind = .ofWord t.literal := by
  induction ts generalizing f with
  | nil => exact ⟨f, rfl, h, .here _, by simp⟩
  | cons t ts ih =>
      rw [tokens_eq] at h
      have hspec := f.next_spec
      rcases hnext : f.next with ⟨e | t', f'⟩
      · rw [hnext] at h
        cases (Prod.mk.inj h).1
      · rw [hnext] at h hspec
        by_cases hkind : t'.kind = .eof
        · simp only [hkind, if_true] at h
          cases (Prod.mk.inj h).1
        · simp only [hkind, if_false] at h
          obtain ⟨hcons, hlast⟩ := Prod.mk.inj h
          obtain ⟨rfl, hmore⟩ := List.cons.inj hcons
          obtain ⟨f'', hending', htokens, hsplits, hkinds⟩ := ih (Prod.ext hmore hlast)
          cases hspec with
          | ends => exact absurd rfl hkind
          | word hgap htext hending hkind hword =>
              refine ⟨f'', hending'.trans hending, htokens, ?_, List.forall_mem_cons.2 ⟨hkind, hkinds⟩⟩
              rw [htext]
              exact (Splits.of_blank hgap _).append (.word hword hsplits)

/-- A feed is read to its end if it ends well, or up to a parenthesis that is never closed. -/
theorem tokens_spec {ts : List Token} {last : Except ScanError Token} (h : f.tokens = (ts, last)) :
    (∃ p, last = .ok ⟨.eof, [], p⟩ ∧ f.ending = .eof p ∧
      Splits f.text (ts.map Token.literal) []) ∨
    ∃ e, last = .error e ∧ ∀ p, f.ending = .eof p →
      ∃ rest, Splits f.text (ts.map Token.literal) rest ∧ rest.Unclosed := by
  obtain ⟨f', hending', htokens, hsplits, -⟩ :=
    @splits_of_tokens f ts [] last (by rw [h, List.append_nil])
  rw [tokens_eq] at htokens
  have hspec := f'.next_spec
  rcases hnext : f'.next with ⟨e | t, f''⟩
  · rw [hnext] at htokens hspec
    obtain ⟨-, rfl⟩ := Prod.mk.inj htokens
    refine .inr ⟨e, rfl, fun p hp => ?_⟩
    cases hspec with
    | fails hopen =>
        obtain ⟨gap, rest, hgap, htext, hrest⟩ := hopen p (hending'.trans hp)
        refine ⟨rest, ?_, hrest⟩
        rw [htext] at hsplits
        simpa using hsplits.append (Splits.of_blank hgap rest)
  · rw [hnext] at htokens hspec
    cases hspec with
    | @ends p _ hending hblank =>
        obtain ⟨-, rfl⟩ := Prod.mk.inj htokens
        refine .inl ⟨p, rfl, hending'.symm.trans hending, ?_⟩
        have hgap := Splits.of_blank hblank []
        rw [List.append_nil] at hgap
        simpa using hsplits.append hgap
    | word _ _ _ hkind _ =>
        simp only [hkind, TokenKind.ofWord_ne_eof, if_false] at htokens
        cases (Prod.mk.inj htokens).1

end Feed

theorem Text.Unclosed.not_splits {rest : Text} {ws : List Text} (h : rest.Unclosed) :
    ¬ Splits rest ws [] := by
  intro hsplits
  cases hsplits with
  | here => cases h.1
  | blank hr _ =>
      obtain rfl := Option.some.inj h.1
      rw [Text.isBlank_open] at hr
      cases hr
  | word hw _ =>
      rcases hw with hgroup | ⟨hrun, -⟩
      · exact h.2 _ _ rfl hgroup
      · obtain ⟨r, more, rfl⟩ := List.exists_cons_of_ne_nil hrun.ne_nil
        exact hrun.plain h.1

section Source

variable {s f : Text} {ws : List Text} {ts us : List Token}

/-- The words of a source are its tokens. -/
theorem tokens_of_splits (h : Uncommented s f) (hwords : Splits f ws []) :
    ∃ ts p, (Feed.ofText s none).tokens = (ts, .ok ⟨.eof, [], p⟩) ∧ ts.map Token.literal = ws := by
  obtain ⟨cells, q, rfl, hfeed⟩ := Feed.ofText_of_uncommented h
  rw [hfeed]
  rcases htokens : Feed.tokens ⟨cells, .eof q⟩ with ⟨ts, last⟩
  rcases Feed.tokens_spec htokens with ⟨p, rfl, -, hsplits⟩ | ⟨e, rfl, hopen⟩
  · obtain ⟨us, rfl, hus⟩ := hsplits.cancel hwords
    obtain rfl := hus.eq_nil_of_nil
    exact ⟨ts, p, rfl, (List.append_nil _).symm⟩
  · obtain ⟨rest, hsplits, hrest⟩ := hopen q rfl
    obtain ⟨us, -, hus⟩ := hsplits.cancel hwords
    exact absurd hus hrest.not_splits

/-- The tokens of a source that is read to its end are its words. -/
theorem splits_of_tokens {eof : Token} (h : (Feed.ofText s none).tokens = (ts, .ok eof)) :
    ∃ f, Uncommented s f ∧ Splits f (ts.map Token.literal) [] := by
  rcases Feed.tokens_spec h with ⟨p, -, hending, hsplits⟩ | ⟨e, herror, -⟩
  · obtain ⟨f, hf⟩ | ⟨a, c, f, rfl, hc, ha⟩ := exists_uncommented s
    · obtain ⟨cells, q, rfl, hfeed⟩ := Feed.ofText_of_uncommented hf
      rw [hfeed] at hsplits
      exact ⟨_, hf, hsplits⟩
    · obtain ⟨cells, e, -, hfeed⟩ := Feed.ofText_of_open ha hc
      rw [hfeed] at hending
      cases hending
  · cases herror

/-- The first tokens of any source are the first words of a part without open comments. -/
theorem splits_of_first_tokens {last : Except ScanError Token}
    (h : (Feed.ofText s none).tokens = (ts ++ us, last)) :
    ∃ a b f rest, s = a ++ b ∧ Uncommented a f ∧ Splits f (ts.map Token.literal) rest ∧
      ∀ t ∈ ts, t.kind = .ofWord t.literal := by
  obtain ⟨f', -, -, hsplits, hkinds⟩ := Feed.splits_of_tokens h
  obtain ⟨f, hf⟩ | ⟨a, c, f, rfl, hc, ha⟩ := exists_uncommented s
  · obtain ⟨cells, q, rfl, hfeed⟩ := Feed.ofText_of_uncommented hf
    rw [hfeed] at hsplits
    exact ⟨s, [], _, _, (List.append_nil s).symm, hf, hsplits, hkinds⟩
  · obtain ⟨cells, e, rfl, hfeed⟩ := Feed.ofText_of_open ha hc
    rw [hfeed] at hsplits
    exact ⟨a, _, _, _, rfl, ha, hsplits, hkinds⟩

end Source

end Tortoise
