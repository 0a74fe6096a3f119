import Tortoise.Proofs.Compile.Program
import Tortoise.Proofs.Token.Scan
import Mathlib.Data.List.Forall2

/-!
# Layout does not matter

Tokens are alike if they differ in their places only, and alike tokens derive the same bodies. So a
program depends on the words of its source and on nothing else: a comment is as good as a blank,
and between words there may be any number of either.
-/

namespace Tortoise

open Text (Word AtBlank Blank)

structure Token.Alike (t t' : Token) : Prop where
  kind_eq : t.kind = t'.kind
  literal_eq : t.literal = t'.literal

namespace Token.Alike

variable {bound : Nat} {t t' : Token}

theorem refl (t : Token) : t.Alike t := ⟨rfl, rfl⟩

theorem symm (h : t.Alike t') : t'.Alike t := ⟨h.kind_eq.symm, h.literal_eq.symm⟩

theorem reads {e : Expr} (h : t.Alike t') (ht : t.Reads bound e) : t'.Reads bound e :=
  ⟨h.kind_eq ▸ ht.1, h.literal_eq ▸ ht.2⟩

theorem names {index : Nat} (h : t.Alike t') (ht : t.Names index) : t'.Names index :=
  ⟨h.kind_eq ▸ ht.1, h.literal_eq ▸ ht.2⟩

theorem is {k : Keyword} (h : t.Alike t') (ht : t.is k = true) : t'.is k = true := by
  rwa [Token.is, ← h.kind_eq, ← h.literal_eq]

end Token.Alike

section Derivations

variable {bound : Nat} {tokens tokens' : List Token}

theorem Simple.Derives.congr {statement : Simple} (h : statement.Derives bound tokens)
    (ha : List.Forall₂ Token.Alike tokens tokens') : statement.Derives bound tokens' := by
  cases h with
  | assign hv heq he =>
      obtain - | ⟨a, - | ⟨b, - | ⟨c, - | -⟩⟩⟩ := ha
      exact .assign (a.reads hv) (b.is heq) (c.reads he)
  | equation he =>
      obtain - | ⟨a, - | -⟩ := ha
      exact .equation (a.reads he)
  | namedColor hset hcolor hto hname =>
      obtain - | ⟨a, - | ⟨b, - | ⟨c, - | ⟨d, - | -⟩⟩⟩⟩ := ha
      exact .namedColor (a.is hset) (b.is hcolor) (c.is hto) (d.names hname)
  | color hset hcolor hto he =>
      obtain - | ⟨a, - | ⟨b, - | ⟨c, - | ⟨d, - | -⟩⟩⟩⟩ := ha
      exact .color (a.is hset) (b.is hcolor) (c.is hto) (d.reads he)
  | thickness hset hthickness hto he =>
      obtain - | ⟨a, - | ⟨b, - | ⟨c, - | ⟨d, - | -⟩⟩⟩⟩ := ha
      exact .thickness (a.is hset) (b.is hthickness) (c.is hto) (d.reads he)
  | startStroke hstart hstroke =>
      obtain - | ⟨a, - | ⟨b, - | -⟩⟩ := ha
      exact .startStroke (a.is hstart) (b.is hstroke)
  | stopStroke hstop hstroke =>
      obtain - | ⟨a, - | ⟨b, - | -⟩⟩ := ha
      exact .stopStroke (a.is hstop) (b.is hstroke)
  | move hmove he =>
      obtain - | ⟨a, - | ⟨b, - | -⟩⟩ := ha
      exact .move (a.is hmove) (b.reads he)
  | moveForward hmove hforward he =>
      obtain - | ⟨a, - | ⟨b, - | ⟨c, - | -⟩⟩⟩ := ha
      exact .moveForward (a.is hmove) (b.is hforward) (c.reads he)
  | moveBackward hmove hbackward he =>
      obtain - | ⟨a, - | ⟨b, - | ⟨c, - | -⟩⟩⟩ := ha
      exact .moveBackward (a.is hmove) (b.is hbackward) (c.reads he)
  | turnLeft hturn hleft =>
      obtain - | ⟨a, - | ⟨b, - | -⟩⟩ := ha
      exact .turnLeft (a.is hturn) (b.is hleft)
  | turnRight hturn hright =>
      obtain - | ⟨a, - | ⟨b, - | -⟩⟩ := ha
      exact .turnRight (a.is hturn) (b.is hright)
  | turn hturn he =>
      obtain - | ⟨a, - | ⟨b, - | -⟩⟩ := ha
      exact .turn (a.is hturn) (b.reads he)
  | increment hkeyword hv =>
      obtain - | ⟨a, - | ⟨b, - | -⟩⟩ := ha
      exact .increment (a.is hkeyword) (b.reads hv)
  | decrement hkeyword hv =>
      obtain - | ⟨a, - | ⟨b, - | -⟩⟩ := ha
      exact .decrement (a.is hkeyword) (b.reads hv)

theorem Opening.Derives.congr {opening : Opening} (h : opening.Derives bound tokens)
    (ha : List.Forall₂ Token.Alike tokens tokens') : opening.Derives bound tokens' := by
  cases h with
  | ifThen hkeyword he =>
      obtain - | ⟨a, - | ⟨b, - | -⟩⟩ := ha
      exact .ifThen (a.is hkeyword) (b.reads he)
  | whileLoop hkeyword he =>
      obtain - | ⟨a, - | ⟨b, - | -⟩⟩ := ha
      exact .whileLoop (a.is hkeyword) (b.reads he)
  | untilLoop hkeyword he =>
      obtain - | ⟨a, - | ⟨b, - | -⟩⟩ := ha
      exact .untilLoop (a.is hkeyword) (b.reads he)
  | repeatLoop hkeyword he htimes =>
      obtain - | ⟨a, - | ⟨b, - | ⟨c, - | -⟩⟩⟩ := ha
      exact .repeatLoop (a.is hkeyword) (b.reads he) (c.is htimes)

theorem exists_append_of_forall₂ {first second : List Token}
    (ha : List.Forall₂ Token.Alike (first ++ second) tokens') :
    ∃ first' second', List.Forall₂ Token.Alike first first' ∧
      List.Forall₂ Token.Alike second second' ∧ tokens' = first' ++ second' := by
  induction first generalizing tokens' with
  | nil => exact ⟨[], tokens', .nil, ha, rfl⟩
  | cons t first ih =>
      obtain - | ⟨ht, ha⟩ := ha
      obtain ⟨first', second', hfirst, hsecond, rfl⟩ := ih ha
      exact ⟨_ :: first', second', .cons ht hfirst, hsecond, rfl⟩

theorem Body.Derives.congr {body : Body} (h : body.Derives bound tokens)
    (ha : List.Forall₂ Token.Alike tokens tokens') : body.Derives bound tokens' := by
  induction h generalizing tokens' with
  | done =>
      cases ha
      exact .done
  | simple hstatement _ ih =>
      obtain ⟨first, rest, hfirst, hrest, rfl⟩ := exists_append_of_forall₂ ha
      exact .simple (hstatement.congr hfirst) (ih hrest)
  | block hopening _ hclose _ ihi ihn =>
      obtain ⟨front, back, hfront, hback, rfl⟩ := exists_append_of_forall₂ ha
      obtain ⟨first, inside, hfirst, hinside, rfl⟩ := exists_append_of_forall₂ hfront
      obtain - | ⟨hend, hrest⟩ := hback
      exact .block (hopening.congr hfirst) (ihi hinside) (hend.is hclose) (ihn hrest)
  | ifElse hopening _ hmiddle _ hclose _ ihy ihn ihx =>
      obtain ⟨most, back, hmost, hback, rfl⟩ := exists_append_of_forall₂ ha
      obtain ⟨front, later, hfront, hlater, rfl⟩ := exists_append_of_forall₂ hmost
      obtain ⟨first, yes, hfirst, hyes, rfl⟩ := exists_append_of_forall₂ hfront
      obtain - | ⟨helse, hno⟩ := hlater
      obtain - | ⟨hend, hrest⟩ := hback
      exact .ifElse (hopening.congr hfirst) (ihy hyes) (helse.is hmiddle) (ihn hno)
        (hend.is hclose) (ihx hrest)

end Derivations

theorem alike_of_words {ts ts' : List Token} (hwords : ts.map Token.literal = ts'.map Token.literal)
    (hkinds : ∀ t ∈ ts, t.kind = .ofWord t.literal)
    (hkinds' : ∀ t ∈ ts', t.kind = .ofWord t.literal) : List.Forall₂ Token.Alike ts ts' := by
  induction ts generalizing ts' with
  | nil =>
      obtain rfl := List.map_eq_nil_iff.1 hwords.symm
      exact .nil
  | cons t ts ih =>
      obtain ⟨t', more, rfl, hliteral, hmore⟩ := List.map_eq_cons_iff.1 hwords.symm
      obtain ⟨hkind, hkinds⟩ := List.forall_mem_cons.1 hkinds
      obtain ⟨hkind', hkinds'⟩ := List.forall_mem_cons.1 hkinds'
      refine .cons ⟨?_, hliteral.symm⟩ (ih hmore.symm hkinds hkinds')
      rw [hkind, hkind', hliteral]

/-- The sources have the same tokens, but for their places, and compile to the same program. -/
structure SameTokens (bound : Nat) (s s' : Text) : Prop where
  tokens : ∃ ts eof ts' eof', (Feed.ofText s none).tokens = (ts, .ok eof) ∧
    (Feed.ofText s' none).tokens = (ts', .ok eof') ∧ List.Forall₂ Token.Alike ts ts'
  program (program : Program) : compile bound s = .ok program ↔ compile bound s' = .ok program

section Sources

variable {bound : Nat} {s s' f f' : Text} {ts ts' : List Token} {eof eof' : Token}

theorem compile_of_alike (htokens : (Feed.ofText s none).tokens = (ts, .ok eof))
    (htokens' : (Feed.ofText s' none).tokens = (ts', .ok eof'))
    (halike : List.Forall₂ Token.Alike ts ts') {program : Program}
    (h : compile bound s = .ok program) : compile bound s' = .ok program := by
  obtain ⟨tokens, last, body, heq, hbody, rfl⟩ := exists_body_of_compile h
  rw [htokens] at heq
  obtain ⟨rfl, -⟩ := Prod.mk.inj heq
  exact compile_of_derives htokens' (hbody.congr halike)

theorem kind_of_tokens {last : Except ScanError Token}
    (h : (Feed.ofText s none).tokens = (ts, last)) : ∀ t ∈ ts, t.kind = .ofWord t.literal := by
  obtain ⟨-, -, -, -, hkinds⟩ :=
    @Feed.splits_of_tokens (Feed.ofText s none) ts [] last (by rw [h, List.append_nil])
  exact hkinds

/-- Sources with the same words are the same program. -/
theorem sameTokens_of_splits (htokens : (Feed.ofText s none).tokens = (ts, .ok eof))
    (hf' : Uncommented s' f') (hwords : Splits f' (ts.map Token.literal) []) :
    SameTokens bound s s' := by
  obtain ⟨ts', p, htokens', hliterals⟩ := tokens_of_splits hf' hwords
  have halike := alike_of_words hliterals.symm (kind_of_tokens htokens) (kind_of_tokens htokens')
  refine ⟨⟨ts, eof, ts', _, htokens, htokens', halike⟩, fun program => ⟨?_, ?_⟩⟩
  · exact compile_of_alike htokens htokens' halike
  · exact compile_of_alike htokens' htokens (halike.flip.imp fun _ _ h => h.symm)

def Text.Spacing (x : Text) : Prop := ∃ gap, Uncommented x gap ∧ gap.Blank

/-- The place between the two parts of a source is outside of comments, and no token runs across
it. -/
def Boundary (a b : Text) : Prop :=
  ∃ f g ws, Uncommented a f ∧ Uncommented b g ∧ Splits (f ++ g) ws g

theorem Text.Blank.spacing {x : Text} (h : x.Blank) : x.Spacing := ⟨x, .of_blank h, h⟩

theorem Text.spacing_comment {c : Text} (hc : .quote ∉ c) :
    Text.Spacing (.quote :: (c ++ [.quote])) :=
  ⟨_, .comment hc .nil, Text.blank_cons.2 ⟨by decide, Text.blank_nil⟩⟩

theorem Text.Spacing.append {x y : Text} (hx : x.Spacing) (hy : y.Spacing) :
    Text.Spacing (x ++ y) := by
  obtain ⟨gap, hgap, hblank⟩ := hx
  obtain ⟨more, hmore, hblank'⟩ := hy
  exact ⟨gap ++ more, hgap.append hmore, hblank.append hblank'⟩

/-- Blanks at a boundary do not touch words. -/
theorem Splits.insert {f g gap : Text} {ws vs : List Text} (h : Splits (f ++ g) ws g)
    (hall : Splits (f ++ g) vs []) (hgap : gap.Blank) : Splits (f ++ (gap ++ g)) vs [] := by
  obtain ⟨us, rfl, hrest⟩ := h.cancel hall
  obtain ⟨front, heq, hfront⟩ := h.exchange
  obtain rfl : f = front := List.append_cancel_right heq
  cases gap with
  | nil => exact hall
  | cons r gap =>
      have hblank : AtBlank (r :: gap ++ g) := by
        intro x hx
        obtain rfl := Option.some.inj hx
        exact hgap r List.mem_cons_self
      exact (hfront _ hblank).append ((Splits.of_blank hgap g).append hrest)

end Sources

/-- Scanning loses nothing but layout. A source is read to its end if and only if its quotes pair
up and no parenthesis at the start of a token is left open. Then, with each comment replaced by a
blank, the source consists of its tokens with blanks between them; replacing a comment by a blank,
or writing blanks and comments at a boundary, changes neither tokens nor program. -/
theorem scanning_keeps_all_but_layout (bound : Nat) (source : Text) :
    ((∃ ts eof, (Feed.ofText source none).tokens = (ts, .ok eof)) ↔
      Even (source.count .quote) ∧
        ∀ f ws rest, Uncommented source f → Splits f ws rest → ¬ rest.Unclosed) ∧
    ∀ ts eof, (Feed.ofText source none).tokens = (ts, .ok eof) →
      (∀ t ∈ ts, t.literal ≠ []) ∧
      (∃ f, Uncommented source f ∧ Splits f (ts.map Token.literal) []) ∧
      (∀ a c b f, source = a ++ .quote :: (c ++ .quote :: b) → Uncommented a f → .quote ∉ c →
        SameTokens bound source (a ++ .char ' ' :: b)) ∧
      ∀ a x b, source = a ++ b → Boundary a b → x.Spacing →
        SameTokens bound source (a ++ (x ++ b)) := by
  refine ⟨⟨?_, ?_⟩, ?_⟩
  · rintro ⟨ts, eof, htokens⟩
    obtain ⟨f, hf, hall⟩ := splits_of_tokens htokens
    refine ⟨hf.even_count, fun g ws rest hg hsplits hopen => ?_⟩
    obtain rfl := hf.unique hg
    obtain ⟨us, -, hrest⟩ := hsplits.cancel hall
    exact hopen.not_splits hrest
  · rintro ⟨heven, hclosed⟩
    obtain ⟨f, hf⟩ := exists_uncommented_iff.2 heven
    obtain ⟨ws, hall⟩ | ⟨ws, rest, hsplits, hopen⟩ := exists_splits f
    · obtain ⟨ts, p, htokens, -⟩ := tokens_of_splits hf hall
      exact ⟨ts, _, htokens⟩
    · exact absurd hopen (hclosed f ws rest hf hsplits)
  · intro ts eof htokens
    obtain ⟨f, hf, hall⟩ := splits_of_tokens htokens
    refine ⟨fun t ht => hall.ne_nil _ (List.mem_map_of_mem ht), ⟨f, hf, hall⟩, ?_, ?_⟩
    · rintro a c b g rfl ha hc
      obtain ⟨rest, hrest, rfl⟩ := hf.exists_behind_comment ha hc
      have hblank : Uncommented (.char ' ' :: b) (.char ' ' :: rest) := .rune (by decide) hrest
      exact sameTokens_of_splits htokens (ha.append hblank) hall
    · rintro a x b rfl ⟨g, rest, ws, ha, hb, hsplits⟩ ⟨gap, hx, hgap⟩
      obtain rfl := hf.unique (ha.append hb)
      exact sameTokens_of_splits htokens (ha.append (hx.append hb)) (hsplits.insert hall hgap)

/-- Tokens that touch a comment or a group stay what they are when they are moved apart. -/
theorem touching_tokens_move_apart :
    SameTokens 256 "move\"far\"(1)turn 90" "move (1)turn 90" ∧
      SameTokens 256 "move\"far\"(1)turn 90" "move\"far\"(1)\n\"then\"turn 90" := by
  have htokens : ∃ ts eof, (Feed.ofText "move\"far\"(1)turn 90" none).tokens = (ts, .ok eof) :=
    ⟨_, _, rfl⟩
  obtain ⟨ts, eof, htokens⟩ := htokens
  obtain ⟨-, -, hcomment, hspacing⟩ := (scanning_keeps_all_but_layout 256 _).2 ts eof htokens
  have hmove : Uncommented "move" "move" := .of_forall (by decide)
  have hgroup : Text.Group "(1)" :=
    Text.group_iff.2 ⟨"1", Expr.balanced_of_forall (by decide), rfl⟩
  have hfront : Uncommented "move\"far\"(1)" "move (1)" :=
    hmove.append (.comment (c := "far") (by decide) (.of_forall (s := "(1)") (by decide)))
  have hboundary : Boundary "move\"far\"(1)" "turn 90" := by
    refine ⟨_, "turn 90", ["move", "(1)"], hfront, .of_forall (by decide), ?_⟩
    have hblank : AtBlank " (1)turn 90" := by
      intro r hr
      obtain rfl := Option.some.inj hr
      decide
    have hword : Word "move" " (1)turn 90" := .inr ⟨⟨by decide, by decide, by decide⟩, hblank⟩
    exact .word hword (.blank (by decide) (.word (.inl hgroup) (.here _)))
  have hthen : Text.Spacing "\n\"then\"" := by
    have hbreak : Text.Blank "\n" := List.forall_mem_singleton.2 (by decide)
    exact hbreak.spacing.append (@Text.spacing_comment "then" (by decide))
  refine ⟨hcomment "move" "far" "(1)turn 90" _ rfl hmove (by decide), ?_⟩
  exact hspacing "move\"far\"(1)" "\n\"then\"" "turn 90" rfl hboundary hthen

end Tortoise
