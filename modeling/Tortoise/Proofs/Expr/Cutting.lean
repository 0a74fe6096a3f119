import Tortoise.Proofs.Expr.Grammar
import Tortoise.Proofs.Success

/-!
# Cutting a text at its marks

Cutting is compositional: the pieces of `left`, a mark and `right` are the pieces of `left`, the
mark and the pieces of `right`, provided that no word runs across a seam; and every mark among the
pieces of a text comes from such a place. Elements and groups have their own texts back.
-/

namespace Tortoise.Expr

open Text (Blank Tight)

def behind (before : Option Rune) (t : Text) : Option Rune := t.getLast?.or before

@[simp] theorem behind_nil (before : Option Rune) : behind before [] = before := rfl

@[simp] theorem behind_cons (before : Option Rune) (r : Rune) (t : Text) :
    behind before (r :: t) = behind (some r) t := by
  cases h : t.getLast? <;> simp [behind, List.getLast?_cons, h]

theorem behind_append (before : Option Rune) (s t : Text) :
    behind before (s ++ t) = behind (behind before s) t := by
  simp only [behind, List.getLast?_append, Option.or_assoc]

theorem behind_of_ne_nil {t : Text} (ht : t ≠ []) (before : Option Rune) :
    behind before t = t.getLast? := by
  rw [behind, List.getLast?_eq_some_getLast ht, Option.some_or]

def Seam (before : Option Rune) (after : Text) : Prop :=
  before.any Rune.isWord = false ∨ after.head?.any Rune.isWord = false

theorem not_seam {r s : Rune} {rest : Text} (hr : r.isWord = true) (hs : s.isWord = true) :
    ¬ Seam (some r) (s :: rest) := by
  simp [Seam, hr, hs]

def Mark.Fits (mark : Mark) (before : Option Rune) (after : Text) : Prop :=
  mark = .and ∨ mark = .or → atBoundary before after = true

theorem isWord_of_mem_spelling {mark : Mark} (h : mark = .and ∨ mark = .or) :
    ∀ r ∈ mark.spelling, r.isWord = true := by
  rcases h with rfl | rfl <;> decide

theorem Mark.Fits.seam {mark : Mark} {before : Option Rune} {after : Text}
    (h : mark.Fits before after) : Seam before (mark.spelling ++ after) := by
  by_cases hword : mark = .and ∨ mark = .or
  · have hb := h hword
    simp only [atBoundary, Bool.and_eq_true, Bool.not_eq_true'] at hb
    exact .inl hb.1
  · right
    cases mark <;> first | rfl | simp at hword

theorem atBoundary_append {before : Option Rune} {r : Rune} {left right : Text}
    (hseam : Seam (behind (some r) left) right) (hr : r.isWord = true) :
    atBoundary before (left ++ right) = atBoundary before left := by
  cases left with
  | cons s left => rfl
  | nil =>
      have hhead : right.head?.any Rune.isWord = false := by
        rcases hseam with h | h
        · simp [hr] at h
        · exact h
      simp [atBoundary, hhead]

theorem wordMark?_eq_some_iff {before : Option Rune} {text : Text} {mark : Mark} {place : Place} :
    wordMark? before text = some (mark, place) ↔
      (mark = .and ∧ place = .word 1 ∨ mark = .or ∧ place = .word 0) ∧
        ∃ after, text = mark.spelling ++ after ∧ atBoundary before after = true := by
  constructor
  · intro h
    unfold wordMark? at h
    split at h
    next after =>
      split at h
      next hb =>
        obtain ⟨rfl, rfl⟩ := Prod.mk.inj (Option.some.inj h)
        exact ⟨.inl ⟨rfl, rfl⟩, after, rfl, hb⟩
      next => simp at h
    next after =>
      split at h
      next hb =>
        obtain ⟨rfl, rfl⟩ := Prod.mk.inj (Option.some.inj h)
        exact ⟨.inr ⟨rfl, rfl⟩, after, rfl, hb⟩
      next => simp at h
    next => simp at h
  · rintro ⟨⟨rfl, rfl⟩ | ⟨rfl, rfl⟩, after, rfl, hb⟩
    · exact if_pos hb
    · exact if_pos hb

/-- Text beyond a seam does not change whether a word operator starts before it. -/
theorem wordMark?_append {before : Option Rune} {left right : Text} (hne : left ≠ [])
    (hseam : Seam left.getLast? right) :
    wordMark? before (left ++ right) = wordMark? before left := by
  apply Option.ext
  rintro ⟨mark, place⟩
  rw [wordMark?_eq_some_iff, wordMark?_eq_some_iff]
  apply and_congr_right
  intro hmark
  have hword := isWord_of_mem_spelling (hmark.imp And.left And.left)
  -- The operator ends inside `left`: otherwise its letters would run across the seam.
  have hinside : ∀ cs, left = mark.spelling ++ cs → ∀ b,
      atBoundary b (cs ++ right) = atBoundary b cs := by
    rintro cs rfl b
    obtain ⟨r, hr, hrword⟩ : ∃ r, behind none mark.spelling = some r ∧ r.isWord = true := by
      rcases hmark with ⟨rfl, _⟩ | ⟨rfl, _⟩
      · exact ⟨.char 'd', rfl, by decide⟩
      · exact ⟨.char 'r', rfl, by decide⟩
    rw [← behind_of_ne_nil hne none, behind_append, hr] at hseam
    exact atBoundary_append hseam hrword
  constructor
  · rintro ⟨after, heq, hb⟩
    rcases List.append_eq_append_iff.1 heq with ⟨as, hspell, hright⟩ | ⟨cs, hleft, rfl⟩
    · cases as with
      | nil =>
          rw [List.append_nil] at hspell
          refine ⟨[], by simp [hspell], ?_⟩
          rw [← hinside [] (by simp [hspell]) before]
          simpa [hright] using hb
      | cons s as =>
          have hlast : left.getLast hne ∈ mark.spelling := by
            rw [hspell]
            exact List.mem_append_left _ (List.getLast_mem hne)
          rw [List.getLast?_eq_some_getLast hne, hright, List.cons_append] at hseam
          exact absurd hseam (not_seam (hword _ hlast) (hword s (by simp [hspell])))
    · exact ⟨cs, hleft, by rwa [← hinside cs hleft before]⟩
  · rintro ⟨cs, hleft, hb⟩
    exact ⟨cs ++ right, by rw [hleft, List.append_assoc], by rwa [hinside cs hleft before]⟩

theorem mark?_append {before : Option Rune} {left right : Text} (hne : left ≠ [])
    (hseam : Seam left.getLast? right) : mark? before (left ++ right) = mark? before left := by
  have hhead : (left ++ right).head? = left.head? := by
    cases left with
    | nil => exact absurd rfl hne
    | cons r left => rfl
  rw [mark?, mark?, hhead, wordMark?_append hne hseam]

/-- The depth after a text that starts at a given depth, if no parenthesis closes too much. -/
def depthAfter : Nat → Text → Option Nat
  | depth, [] => some depth
  | depth, r :: rest =>
    if r.is '(' then depthAfter (depth + 1) rest
    else if r.is ')' then
      match depth with
      | 0 => none
      | depth + 1 => depthAfter depth rest
    else depthAfter depth rest

theorem depthAfter_cons (depth : Nat) (r : Rune) (rest : Text) :
    depthAfter depth (r :: rest) =
      if r.is '(' then depthAfter (depth + 1) rest
      else if r.is ')' then depth.casesOn none fun depth => depthAfter depth rest
      else depthAfter depth rest := by
  cases depth <;> rfl

theorem depthAfter_append (depth : Nat) (s t : Text) :
    depthAfter depth (s ++ t) = (depthAfter depth s).bind (depthAfter · t) := by
  induction s generalizing depth with
  | nil => rfl
  | cons r s ih =>
      rw [List.cons_append, depthAfter_cons, depthAfter_cons]
      split
      · exact ih (depth + 1)
      · split
        · cases depth with
          | zero => rfl
          | succ depth => exact ih depth
        · exact ih depth

theorem balanceFrom_eq_ok_iff {depth offset : Nat} {t : Text} :
    balanceFrom depth offset t = .ok () ↔ depthAfter depth t = some 0 := by
  induction t generalizing depth offset with
  | nil => simp [balanceFrom, depthAfter]
  | cons r rest ih =>
      rw [balanceFrom.eq_def, depthAfter_cons]
      simp only
      split
      · exact ih
      · split
        · cases depth with
          | zero => simp
          | succ depth => exact ih
        · exact ih

def Balanced (t : Text) : Prop := ∀ depth, depthAfter depth t = some depth

theorem Balanced.append {s t : Text} (hs : Balanced s) (ht : Balanced t) : Balanced (s ++ t) := by
  intro depth
  rw [depthAfter_append, hs depth, Option.bind_some, ht depth]

theorem Balanced.paren {inner : Text} (h : Balanced inner) :
    Balanced (.char '(' :: inner ++ [.char ')']) := by
  intro depth
  rw [depthAfter_append]
  change (depthAfter (depth + 1) inner).bind _ = _
  rw [h (depth + 1)]
  rfl

theorem balanced_of_forall {t : Text} (h : ∀ r ∈ t, r.is '(' = false ∧ r.is ')' = false) :
    Balanced t := by
  intro depth
  induction t with
  | nil => rfl
  | cons r rest ih =>
      obtain ⟨hopen, hclose⟩ := h r (by simp)
      simp only [depthAfter, hopen, hclose, Bool.false_eq_true, if_false]
      exact ih fun s hs => h s (by simp [hs])

theorem depthAfter_add {depth final : Nat} {t : Text} (h : depthAfter depth t = some final)
    (more : Nat) : depthAfter (depth + more) t = some (final + more) := by
  induction t generalizing depth with
  | nil =>
      obtain rfl : depth = final := by simpa [depthAfter] using h
      rfl
  | cons r rest ih =>
      rw [depthAfter_cons] at h ⊢
      split at h
      next hopen =>
        rw [if_pos hopen, Nat.add_right_comm]
        exact ih h
      next hopen =>
        split at h
        next hclose =>
          rw [if_neg hopen, if_pos hclose]
          cases depth with
          | zero => simp at h
          | succ depth => rw [Nat.add_right_comm]; exact ih h
        next hclose =>
          rw [if_neg hopen, if_neg hclose]
          exact ih h

theorem balanced_of_depthAfter {t : Text} (h : depthAfter 0 t = some 0) : Balanced t := by
  intro depth
  simpa using depthAfter_add h depth

/-- The pieces of a text, with `before` the rune in front of it and `collected` the element at
hand in reverse. -/
inductive Cuts : Text → Option Rune → Text → List Piece → Prop
  | done {collected : Text} {before : Option Rune} : Cuts collected before [] (flush collected)
  | plain {collected rest : Text} {before : Option Rune} {r : Rune} {pieces : List Piece} :
      r.is '(' = false → r.is ')' = false → mark? before (r :: rest) = none →
      Cuts (r :: collected) (some r) rest pieces → Cuts collected before (r :: rest) pieces
  | group {collected inner rest : Text} {before : Option Rune} {pieces : List Piece} :
      Balanced inner → Cuts [] (some (.char ')')) rest pieces →
      Cuts collected before (.char '(' :: inner ++ .char ')' :: rest)
        (flush collected ++ .group inner :: pieces)
  | mark {collected rest : Text} {before : Option Rune} {mark : Mark} {pieces : List Piece} :
      mark.Fits before rest → Cuts [] (behind before mark.spelling) rest pieces →
      Cuts collected before (mark.spelling ++ rest) (flush collected ++ .mark mark :: pieces)

theorem eq_char_of_is {r : Rune} {c : Char} (h : r.is c = true) : r = .char c := by
  simpa [Rune.is] using h

theorem spelling_of_ofRune? {r : Rune} {mark : Mark} (h : Mark.ofRune? r = some mark) :
    mark.spelling = [r] ∧ mark ≠ .and ∧ mark ≠ .or := by
  cases r with
  | stray b => simp [Mark.ofRune?] at h
  | char c =>
      simp only [Mark.ofRune?, Mark.ofChar?] at h
      split at h <;> first | (obtain rfl := Option.some.inj h; simp; rfl) | simp at h

theorem exists_of_mark? {before : Option Rune} {text : Text} {mark : Mark} {place : Place}
    (h : mark? before text = some (mark, place)) :
    ∃ rest, text = mark.spelling ++ rest ∧ mark.Fits before rest := by
  unfold mark? at h
  split at h
  next found hfound =>
    obtain ⟨rfl, rfl⟩ := Prod.mk.inj (Option.some.inj h)
    obtain ⟨r, hr, hfound⟩ := Option.bind_eq_some_iff.1 hfound
    obtain ⟨rest, rfl⟩ := List.head?_eq_some_iff.1 hr
    obtain ⟨hspelling, hand, hor⟩ := spelling_of_ofRune? hfound
    exact ⟨rest, by rw [hspelling, List.singleton_append], fun hword => by simp_all⟩
  next =>
    obtain ⟨_, rest, rfl, hb⟩ := wordMark?_eq_some_iff.1 h
    exact ⟨rest, rfl, fun _ => hb⟩

section Steps

variable {collected : Text} {before : Option Rune} {offset : Nat} {r : Rune} {rest : Text}

theorem cutFrom_mark {mark : Mark} (h : mark.Fits before rest) :
    ∃ next, cutFrom .outside collected before offset (mark.spelling ++ rest) =
      (cutFrom .outside [] (behind before mark.spelling) next rest).map
        (flush collected ++ .mark mark :: ·) := by
  by_cases hword : mark = .and ∨ mark = .or
  · have hb := h hword
    rcases hword with rfl | rfl
    · have hmark : mark? before (Mark.and.spelling ++ rest) = some (.and, .word 1) := if_pos hb
      refine ⟨offset + 1 + 1 + 1, ?_⟩
      change cutFrom .outside collected before offset
        (.char 'a' :: .char 'n' :: .char 'd' :: rest) = _
      simp only [cutFrom, show mark? before (.char 'a' :: .char 'n' :: .char 'd' :: rest) =
        some (.and, .word 1) from hmark]
      rfl
    · have hmark : mark? before (Mark.or.spelling ++ rest) = some (.or, .word 0) := if_pos hb
      refine ⟨offset + 1 + 1, ?_⟩
      change cutFrom .outside collected before offset (.char 'o' :: .char 'r' :: rest) = _
      simp only [cutFrom, show mark? before (.char 'o' :: .char 'r' :: rest) =
        some (.or, .word 0) from hmark]
      rfl
  · refine ⟨offset + 1, ?_⟩
    cases mark <;> first | rfl | simp at hword

theorem cutFrom_plain (hopen : r.is '(' = false) (hclose : r.is ')' = false)
    (h : mark? before (r :: rest) = none) :
    cutFrom .outside collected before offset (r :: rest) =
      cutFrom .outside (r :: collected) (some r) (offset + r.size) rest := by
  simp only [cutFrom, hopen, hclose, h, Bool.false_eq_true, if_false]

theorem cutFrom_inside (depth opened : Nat) :
    cutFrom (.inside depth opened) collected before offset (r :: rest) =
      if r.is '(' then
        cutFrom (.inside (depth + 1) opened) (r :: collected) (some r) (offset + r.size) rest
      else if r.is ')' then
        match depth with
        | 0 => (cutFrom .outside [] (some r) (offset + r.size) rest).map
            (.group collected.reverse :: ·)
        | depth + 1 =>
          cutFrom (.inside depth opened) (r :: collected) (some r) (offset + r.size) rest
      else cutFrom (.inside depth opened) (r :: collected) (some r) (offset + r.size) rest := rfl

/-- The inside of a group is passed over up to the parenthesis that closes it. -/
theorem cutFrom_inside_append {depth opened : Nat} {inner : Text}
    (h : depthAfter depth inner = some 0) :
    ∃ next, cutFrom (.inside depth opened) collected before offset (inner ++ .char ')' :: rest) =
      (cutFrom .outside [] (some (.char ')')) next rest).map
        (.group (collected.reverse ++ inner) :: ·) := by
  induction inner generalizing depth collected before offset with
  | nil =>
      obtain rfl : depth = 0 := by simpa [depthAfter] using h
      exact ⟨offset + Rune.size (.char ')'), by simp [cutFrom_inside, Rune.is]⟩
  | cons r inner ih =>
      have hgroup : collected.reverse ++ r :: inner = (r :: collected).reverse ++ inner := by simp
      rw [depthAfter_cons] at h
      rw [List.cons_append, cutFrom_inside, hgroup]
      split at h
      next hopen =>
        rw [if_pos hopen]
        exact ih h
      next hopen =>
        rw [if_neg hopen]
        split at h
        next hclose =>
          rw [if_pos hclose]
          cases depth with
          | zero => simp at h
          | succ depth => exact ih h
        next hclose =>
          rw [if_neg hclose]
          exact ih h

theorem exists_inner_of_cutFrom {depth opened : Nat} {source : Text} {pieces : List Piece}
    (h : cutFrom (.inside depth opened) collected before offset source = .ok pieces) :
    ∃ inner rest, source = inner ++ .char ')' :: rest ∧ depthAfter depth inner = some 0 := by
  induction source generalizing depth collected before offset pieces with
  | nil => simp [cutFrom] at h
  | cons r source ih =>
      rw [cutFrom_inside] at h
      split at h
      next hopen =>
        obtain ⟨inner, rest, rfl, hinner⟩ := ih h
        exact ⟨r :: inner, rest, rfl, by rw [depthAfter_cons, if_pos hopen, hinner]⟩
      next hopen =>
        split at h
        next hclose =>
          cases depth with
          | zero => exact ⟨[], source, by rw [eq_char_of_is hclose, List.nil_append], rfl⟩
          | succ depth =>
              obtain ⟨inner, rest, rfl, hinner⟩ := ih h
              exact ⟨r :: inner, rest, rfl,
                by rw [depthAfter_cons, if_neg hopen, if_pos hclose]; exact hinner⟩
        next hclose =>
          obtain ⟨inner, rest, rfl, hinner⟩ := ih h
          exact ⟨r :: inner, rest, rfl,
            by rw [depthAfter_cons, if_neg hopen, if_neg hclose, hinner]⟩

end Steps

theorem cutFrom_group {collected inner rest : Text} {before : Option Rune} {offset : Nat}
    (h : Balanced inner) :
    ∃ next, cutFrom .outside collected before offset (.char '(' :: inner ++ .char ')' :: rest) =
      (cutFrom .outside [] (some (.char ')')) next rest).map
        (flush collected ++ .group inner :: ·) := by
  have hinside : ∃ next,
      cutFrom (.inside 0 offset) [] (some (.char '(')) (offset + 1) (inner ++ .char ')' :: rest) =
        (cutFrom .outside [] (some (.char ')')) next rest).map (.group inner :: ·) :=
    cutFrom_inside_append (h 0)
  obtain ⟨next, hnext⟩ := hinside
  refine ⟨next, ?_⟩
  change (cutFrom (.inside 0 offset) [] _ (offset + 1) (inner ++ .char ')' :: rest)).map _ = _
  rw [hnext]
  cases cutFrom .outside [] (some (.char ')')) next rest <;> rfl

theorem Cuts.cutFrom_eq {collected source : Text} {before : Option Rune} {pieces : List Piece}
    (h : Cuts collected before source pieces) (offset : Nat) :
    cutFrom .outside collected before offset source = .ok pieces := by
  induction h generalizing offset with
  | done => rfl
  | plain hopen hclose hmark _ ih => rw [cutFrom_plain hopen hclose hmark, ih]
  | group hinner _ ih =>
      obtain ⟨next, hnext⟩ := cutFrom_group hinner
      rw [hnext, ih]
      rfl
  | mark hfits _ ih =>
      obtain ⟨next, hnext⟩ := cutFrom_mark hfits
      rw [hnext, ih]
      rfl

theorem spelling_ne_nil (mark : Mark) : mark.spelling ≠ [] := by
  cases mark <;> exact List.cons_ne_nil _ _

theorem cuts_of_cutFrom {collected source : Text} {before : Option Rune} {offset : Nat}
    {pieces : List Piece} (h : cutFrom .outside collected before offset source = .ok pieces) :
    Cuts collected before source pieces := by
  -- A group or a word operator takes several runes at once, so the induction is on the length.
  induction hlen : source.length using Nat.strongRecOn generalizing
    collected source before offset pieces with
  | _ n ih =>
    subst hlen
    cases source with
    | nil =>
        obtain rfl : flush collected = pieces := Except.ok.inj h
        exact .done
    | cons r rest =>
        cases hmark : mark? before (r :: rest) with
        | some found =>
            obtain ⟨mark, place⟩ := found
            obtain ⟨after, htext, hfits⟩ := exists_of_mark? hmark
            have hshort : after.length < (r :: rest).length := by
              have hpos := List.length_pos_iff.2 (spelling_ne_nil mark)
              rw [htext, List.length_append]
              omega
            rw [htext] at h ⊢
            obtain ⟨next, hnext⟩ := cutFrom_mark hfits
            rw [hnext] at h
            obtain ⟨pieces', hpieces', rfl⟩ := map_eq_ok.1 h
            exact .mark hfits (ih _ hshort hpieces' rfl)
        | none =>
            by_cases hopen : r.is '(' = true
            · obtain rfl := eq_char_of_is hopen
              have hmap := h
              change (cutFrom (.inside 0 offset) [] _ _ rest).map _ = _ at hmap
              obtain ⟨_, hinside, _⟩ := map_eq_ok.1 hmap
              obtain ⟨inner, after, rfl, hinner⟩ := exists_inner_of_cutFrom hinside
              obtain ⟨next, hnext⟩ := cutFrom_group (balanced_of_depthAfter hinner)
              rw [← List.cons_append] at h ⊢
              rw [hnext] at h
              obtain ⟨pieces', hpieces', rfl⟩ := map_eq_ok.1 h
              refine .group (balanced_of_depthAfter hinner) (ih _ ?_ hpieces' rfl)
              simp only [List.length_cons, List.length_append]
              omega
            · by_cases hclose : r.is ')' = true
              · obtain rfl := eq_char_of_is hclose
                simp [cutFrom, Rune.is] at h
              · rw [Bool.not_eq_true] at hopen hclose
                rw [cutFrom_plain hopen hclose hmark] at h
                exact .plain hopen hclose hmark (ih _ (by simp) h rfl)

theorem cutFrom_eq_ok_iff {collected source : Text} {before : Option Rune} {offset : Nat}
    {pieces : List Piece} :
    cutFrom .outside collected before offset source = .ok pieces ↔
      Cuts collected before source pieces :=
  ⟨cuts_of_cutFrom, fun h => h.cutFrom_eq offset⟩

end Tortoise.Expr
