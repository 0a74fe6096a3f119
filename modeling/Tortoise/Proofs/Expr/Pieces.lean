import Tortoise.Proofs.Expr.Cutting

/-!
# Putting pieces together and taking them apart

Cutting is compositional. The pieces of `left`, a mark that fits and `right` are the pieces of
`left`, the mark and the pieces of `right`; and every mark among the pieces of a text stands at
such a place of it. Elements and groups have their texts back.
-/

namespace Tortoise.Expr

open Text (Blank Tight)

theorem exists_behind_spelling {mark : Mark} (h : mark = .and ∨ mark = .or)
    (before : Option Rune) :
    ∃ r, behind before mark.spelling = some r ∧ r.isWord = true := by
  rcases h with rfl | rfl
  · exact ⟨.char 'd', rfl, by decide⟩
  · exact ⟨.char 'r', rfl, by decide⟩

/-- Text beyond a seam does not change whether a mark fits before it. -/
theorem fits_append_iff {mark : Mark} {before : Option Rune} {left right : Text}
    (hseam : Seam (behind before (mark.spelling ++ left)) right) :
    mark.Fits before (left ++ right) ↔ mark.Fits before left := by
  apply forall_congr'
  intro hword
  obtain ⟨r, hr, hrword⟩ := exists_behind_spelling hword before
  rw [behind_append, hr] at hseam
  rw [atBoundary_append hseam hrword]

theorem mark?_cons_append {before : Option Rune} {r : Rune} {left right : Text}
    (hseam : Seam (behind before (r :: left)) right) :
    mark? before (r :: (left ++ right)) = mark? before (r :: left) := by
  have hne : r :: left ≠ [] := List.cons_ne_nil r left
  rw [behind_of_ne_nil hne] at hseam
  exact mark?_append hne hseam

theorem Cuts.append {mark : Mark} {collected left right : Text} {before : Option Rune}
    {pl pr : List Piece} (hl : Cuts collected before left pl)
    (hfits : mark.Fits (behind before left) right)
    (hr : Cuts [] (behind before (left ++ mark.spelling)) right pr) :
    Cuts collected before (left ++ (mark.spelling ++ right)) (pl ++ .mark mark :: pr) := by
  induction hl with
  | done => exact .mark hfits hr
  | plain hopen hclose hmark _ ih =>
      refine .plain hopen hclose ?_ ?_
      · exact (mark?_cons_append hfits.seam).trans hmark
      · rw [behind_cons] at hfits
        rw [List.cons_append, behind_cons] at hr
        exact ih hfits hr
  | @group collected inner rest before pieces hinner _ ih =>
      rw [List.append_assoc, List.append_assoc]
      refine .group hinner (ih ?_ ?_)
      · rwa [behind_append, behind_cons] at hfits
      · rwa [List.append_assoc, behind_append, List.cons_append, behind_cons] at hr
  | @mark collected rest before mark' pieces hfits' _ ih =>
      rw [List.append_assoc, List.append_assoc]
      refine .mark ((fits_append_iff hfits.seam).2 hfits') (ih ?_ ?_)
      · rwa [behind_append] at hfits
      · rwa [List.append_assoc, behind_append] at hr

theorem flush_eq (collected : Text) :
    flush collected = [] ∧ Blank collected ∨
      flush collected = [.element (Text.trim collected.reverse)] := by
  unfold flush
  cases htrim : Text.trim collected.reverse with
  | nil =>
      have hblank := (Text.blank_of_trim_eq_nil htrim).reverse
      rw [List.reverse_reverse] at hblank
      exact .inl ⟨by simp, hblank⟩
  | cons r rest => exact .inr (by simp)

theorem flush_of_blank {collected : Text} (h : Blank collected) : flush collected = [] := by
  simp [flush, Text.trim_of_blank h.reverse]

/-- Where a mark stands among pieces that start with an element. -/
theorem flush_append_eq_append {collected : Text} {x : Piece} {pieces pl pr : List Piece}
    {mark : Mark} (h : flush collected ++ x :: pieces = pl ++ .mark mark :: pr) :
    pl = flush collected ∧ x = .mark mark ∧ pieces = pr ∨
      ∃ pl', pl = flush collected ++ x :: pl' ∧ pieces = pl' ++ .mark mark :: pr := by
  rcases List.append_eq_append_iff.1 h with ⟨as, hpl, hx⟩ | ⟨cs, hflush, hx⟩
  · cases as with
    | nil =>
        obtain ⟨rfl, rfl⟩ := List.cons.inj hx
        exact .inl ⟨by simpa using hpl, rfl, rfl⟩
    | cons y as =>
        obtain ⟨rfl, rfl⟩ := List.cons.inj hx
        exact .inr ⟨as, hpl, rfl⟩
  · cases cs with
    | nil =>
        obtain ⟨rfl, rfl⟩ := List.cons.inj hx
        exact .inl ⟨by simpa using hflush.symm, rfl, rfl⟩
    | cons y cs =>
        obtain ⟨rfl, _⟩ := List.cons.inj hx
        have hmem : Piece.mark mark ∈ flush collected := by simp [hflush]
        rcases flush_eq collected with ⟨hnil, _⟩ | hone
        · simp [hnil] at hmem
        · simp [hone] at hmem

/-- Every mark among the pieces of a text comes from a place where it fits. -/
theorem Cuts.split {mark : Mark} {collected source : Text} {before : Option Rune}
    {pl pr : List Piece} (h : Cuts collected before source (pl ++ .mark mark :: pr)) :
    ∃ left right, source = left ++ (mark.spelling ++ right) ∧ Cuts collected before left pl ∧
      mark.Fits (behind before left) right ∧
      Cuts [] (behind before (left ++ mark.spelling)) right pr := by
  generalize hpieces : pl ++ .mark mark :: pr = pieces at h
  induction h generalizing pl with
  | @done collected before =>
      have hmem : Piece.mark mark ∈ flush collected := by simp [← hpieces]
      rcases flush_eq collected with ⟨hnil, _⟩ | hone
      · simp [hnil] at hmem
      · simp [hone] at hmem
  | @plain collected rest before r pieces hopen hclose hmark _ ih =>
      obtain ⟨left, right, rfl, hl, hfits, hr⟩ := ih hpieces
      rw [← behind_cons before] at hfits
      refine ⟨r :: left, right, rfl, .plain hopen hclose ?_ hl, hfits, ?_⟩
      · exact (mark?_cons_append hfits.seam).symm.trans hmark
      · rwa [List.cons_append, behind_cons]
  | @group collected inner rest before pieces hinner _ ih =>
      rcases flush_append_eq_append hpieces.symm with ⟨_, hx, _⟩ | ⟨pl', rfl, hrest⟩
      · simp at hx
      · obtain ⟨left, right, rfl, hl, hfits, hr⟩ := ih hrest.symm
        refine ⟨.char '(' :: inner ++ .char ')' :: left, right, by simp, .group hinner hl, ?_, ?_⟩
        · rwa [behind_append, behind_cons]
        · rwa [List.append_assoc, behind_append, List.cons_append, behind_cons]
  | @mark collected rest before mark' pieces hfits' hrest ih =>
      rcases flush_append_eq_append hpieces.symm with ⟨rfl, hx, rfl⟩ | ⟨pl', rfl, hpieces'⟩
      · obtain rfl := Piece.mark.inj hx
        exact ⟨[], rest, rfl, .done, hfits', hrest⟩
      · obtain ⟨left, right, rfl, hl, hfits, hr⟩ := ih hpieces'.symm
        rw [← behind_append] at hfits
        refine ⟨mark'.spelling ++ left, right, by simp, .mark ?_ hl, hfits, ?_⟩
        · exact (fits_append_iff hfits.seam).1 hfits'
        · rwa [List.append_assoc, behind_append]

/-- A rune that goes into an element, whatever follows it. -/
structure Inert (before : Option Rune) (r : Rune) : Prop where
  not_open : r.is '(' = false
  not_close : r.is ')' = false
  not_mark : ∀ rest, mark? before (r :: rest) = none

def Bare : Option Rune → Text → Prop
  | _, [] => True
  | before, r :: rest => Inert before r ∧ Bare (some r) rest

theorem Bare.append {before : Option Rune} {s t : Text} (hs : Bare before s)
    (ht : Bare (behind before s) t) : Bare before (s ++ t) := by
  induction s generalizing before with
  | nil => exact ht
  | cons r s ih =>
      rw [behind_cons] at ht
      exact ⟨hs.1, ih hs.2 ht⟩

theorem bare_of_forall {t : Text} (h : ∀ r ∈ t, ∀ before, Inert before r)
    (before : Option Rune) : Bare before t := by
  induction t generalizing before with
  | nil => trivial
  | cons r t ih => exact ⟨h r (by simp) before, ih (fun s hs => h s (by simp [hs])) (some r)⟩

theorem Bare.cuts {before : Option Rune} {t : Text} (h : Bare before t) {collected rest : Text}
    {pieces : List Piece} (hrest : Cuts (t.reverse ++ collected) (behind before t) rest pieces) :
    Cuts collected before (t ++ rest) pieces := by
  induction t generalizing before collected with
  | nil => exact hrest
  | cons r t ih =>
      obtain ⟨hinert, ht⟩ := h
      refine .plain hinert.not_open hinert.not_close (hinert.not_mark _) (ih ht ?_)
      simpa using hrest

def markHeads : List Char := ['(', ')', '+', '-', '*', '/', '=', '>', '<', '!', 'a', 'o']

theorem head_mem_markHeads (mark : Mark) :
    ∃ c ∈ markHeads, mark.spelling.head? = some (.char c) ∧
      ((c = 'a' ∨ c = 'o') → mark = .and ∨ mark = .or) := by
  cases mark with
  | plus => exact ⟨'+', by decide, rfl, by decide⟩
  | minus => exact ⟨'-', by decide, rfl, by decide⟩
  | times => exact ⟨'*', by decide, rfl, by decide⟩
  | slash => exact ⟨'/', by decide, rfl, by decide⟩
  | and => exact ⟨'a', by decide, rfl, by decide⟩
  | or => exact ⟨'o', by decide, rfl, by decide⟩
  | equal => exact ⟨'=', by decide, rfl, by decide⟩
  | greater => exact ⟨'>', by decide, rfl, by decide⟩
  | less => exact ⟨'<', by decide, rfl, by decide⟩
  | bang => exact ⟨'!', by decide, rfl, by decide⟩

/-- A rune is inert if it starts no mark, or only a word operator that would continue a word. -/
theorem inert_of_markHeads {before : Option Rune} {r : Rune}
    (h : ∀ c ∈ markHeads, r = .char c → (c = 'a' ∨ c = 'o') ∧ before.any Rune.isWord = true) :
    Inert before r := by
  refine ⟨?_, ?_, ?_⟩
  · rw [← Bool.not_eq_true]
    intro hr
    exact absurd (h '(' (by decide) (eq_char_of_is hr)).1 (by decide)
  · rw [← Bool.not_eq_true]
    intro hr
    exact absurd (h ')' (by decide) (eq_char_of_is hr)).1 (by decide)
  · intro rest
    cases hmark : mark? before (r :: rest) with
    | none => rfl
    | some found =>
        exfalso
        obtain ⟨mark, place⟩ := found
        obtain ⟨after, htext, hfits⟩ := exists_of_mark? hmark
        obtain ⟨c, hc, hhead, hword⟩ := head_mem_markHeads mark
        have hr : r = .char c := by
          have hheads := congrArg List.head? htext
          rw [List.head?_append, hhead, Option.some_or, List.head?_cons] at hheads
          exact Option.some.inj hheads
        obtain ⟨hao, hbefore⟩ := h c hc hr
        have hb := hfits (hword hao)
        simp [atBoundary, hbefore] at hb

theorem markHeads_classes : (markHeads.all fun c => !(Rune.char c).isBlank &&
    !(Rune.char c).isAsciiDigit && !(Rune.char c).isUpper &&
    (!(Rune.char c).isWord || c == 'a' || c == 'o')) = true := by decide

theorem class_of_mem_markHeads {c : Char} (hc : c ∈ markHeads) :
    (Rune.char c).isBlank = false ∧ (Rune.char c).isAsciiDigit = false ∧
      (Rune.char c).isUpper = false ∧ ((Rune.char c).isWord = true → c = 'a' ∨ c = 'o') := by
  have h := List.all_eq_true.1 markHeads_classes c hc
  simp only [Bool.and_eq_true, Bool.or_eq_true, Bool.not_eq_true', beq_iff_eq] at h
  obtain ⟨⟨⟨hblank, hdigit⟩, hupper⟩, hword⟩ := h
  refine ⟨hblank, hdigit, hupper, fun hc => ?_⟩
  rcases hword with (hnot | ha) | ho
  · rw [hc] at hnot
    cases hnot
  · exact Or.inl ha
  · exact Or.inr ho

theorem inert_of_isBlank {r : Rune} (h : r.isBlank = true) (before : Option Rune) :
    Inert before r := by
  apply inert_of_markHeads
  rintro c hc rfl
  rw [(class_of_mem_markHeads hc).1] at h
  cases h

theorem inert_of_isAsciiDigit {r : Rune} (h : r.isAsciiDigit = true) (before : Option Rune) :
    Inert before r := by
  apply inert_of_markHeads
  rintro c hc rfl
  rw [(class_of_mem_markHeads hc).2.1] at h
  cases h

theorem inert_of_isUpper {r : Rune} (h : r.isUpper = true) (before : Option Rune) :
    Inert before r := by
  apply inert_of_markHeads
  rintro c hc rfl
  rw [(class_of_mem_markHeads hc).2.2.1] at h
  cases h

theorem inert_of_isWord {r s : Rune} (hr : r.isWord = true) (hs : s.isWord = true) :
    Inert (some r) s := by
  apply inert_of_markHeads
  rintro c hc rfl
  exact ⟨(class_of_mem_markHeads hc).2.2.2 hs, hr⟩

theorem Blank.bare {t : Text} (h : Blank t) (before : Option Rune) : Bare before t :=
  bare_of_forall (fun r hr before => inert_of_isBlank (h r hr) before) before

theorem bare_of_isNumeral {digits : Text} (h : digits.isNumeral = true)
    (before : Option Rune) : Bare before digits := by
  simp only [Text.isNumeral, Bool.and_eq_true, List.all_eq_true] at h
  exact bare_of_forall (fun r hr before => inert_of_isAsciiDigit (h.2 r hr) before) before

theorem bare_of_forall_isWord {r : Rune} {t : Text} (hr : r.isWord = true)
    (ht : ∀ s ∈ t, s.isWord = true) : Bare (some r) t := by
  induction t generalizing r with
  | nil => trivial
  | cons s t ih =>
      have hs : s.isWord = true := ht s (by simp)
      exact ⟨inert_of_isWord hr hs, ih hs fun u hu => ht u (by simp [hu])⟩

theorem bare_of_isIdentifier {name : Text} (h : name.isIdentifier = true)
    (before : Option Rune) : Bare before name := by
  cases name with
  | nil => trivial
  | cons r rest =>
      have hword := isWord_of_mem_identifier h
      simp only [Text.isIdentifier, Bool.and_eq_true] at h
      refine ⟨inert_of_isUpper h.1 before, bare_of_forall_isWord (hword r (by simp)) ?_⟩
      exact fun s hs => hword s (by simp [hs])

/-- A tight bare text is one element, whatever blanks stand around it. -/
theorem cuts_element {before core after : Text} (hb : Blank before) (ha : Blank after)
    (hcore : Tight core) (hbare : ∀ b, Bare b core) (b : Option Rune) :
    Cuts [] b (before ++ core ++ after) [.element core] := by
  have hall : Bare b (before ++ core ++ after) :=
    ((Blank.bare hb b).append (hbare _)).append (Blank.bare ha _)
  have hflush : flush (before ++ core ++ after).reverse = [.element core] := by
    unfold flush
    rw [List.reverse_reverse, Text.trim_pad hb ha hcore]
    simp [hcore.ne_nil]
  have hcuts : Cuts [] b (before ++ core ++ after ++ [])
      (flush ((before ++ core ++ after).reverse ++ [])) := hall.cuts .done
  rwa [List.append_nil, List.append_nil, hflush] at hcuts

theorem cuts_blank {t : Text} (h : Blank t) (before : Option Rune) : Cuts [] before t [] := by
  have hcuts : Cuts [] before (t ++ []) (flush (t.reverse ++ [])) :=
    (Blank.bare h before).cuts .done
  rwa [List.append_nil, List.append_nil, flush_of_blank h.reverse] at hcuts

theorem cuts_group {before inner after : Text} (hb : Blank before) (ha : Blank after)
    (hinner : Balanced inner) (b : Option Rune) :
    Cuts [] b (before ++ (.char '(' :: inner ++ [.char ')']) ++ after) [.group inner] := by
  have hrest : Cuts (before.reverse ++ []) (behind b before)
      (.char '(' :: inner ++ .char ')' :: after)
      (flush (before.reverse ++ []) ++ [.group inner]) :=
    .group hinner (cuts_blank ha (some (.char ')')))
  have hflush : flush (before.reverse ++ []) = [] := by
    rw [List.append_nil]
    exact flush_of_blank hb.reverse
  rw [hflush] at hrest
  simpa using (Blank.bare hb b).cuts hrest

theorem Cuts.blank {collected source : Text} {before : Option Rune}
    (h : Cuts collected before source []) : Blank collected ∧ Blank source := by
  generalize hpieces : [] = pieces at h
  induction h with
  | @done collected _ =>
      rcases flush_eq collected with ⟨_, hblank⟩ | hone
      · exact ⟨hblank, Text.blank_nil⟩
      · simp [hone] at hpieces
  | plain _ _ _ _ ih =>
      obtain ⟨hcollected, hrest⟩ := ih hpieces
      obtain ⟨hr, hcollected⟩ := Text.blank_cons.1 hcollected
      exact ⟨hcollected, Text.blank_cons.2 ⟨hr, hrest⟩⟩
  | group => simp at hpieces
  | mark => simp at hpieces

theorem Cuts.eq_trim {collected source text : Text} {before : Option Rune}
    (h : Cuts collected before source [.element text]) :
    text = Text.trim (collected.reverse ++ source) := by
  generalize hpieces : [Piece.element text] = pieces at h
  induction h with
  | @done collected _ =>
      rcases flush_eq collected with ⟨hnil, _⟩ | hone
      · simp [hnil] at hpieces
      · simpa [hone] using hpieces
  | plain _ _ _ _ ih => simpa using ih hpieces
  | @group _ inner _ _ _ _ _ _ =>
      have hmem : Piece.group inner ∈ [Piece.element text] := by simp [hpieces]
      simp at hmem
  | @mark _ _ _ mark _ _ _ _ =>
      have hmem : Piece.mark mark ∈ [Piece.element text] := by simp [hpieces]
      simp at hmem

theorem Cuts.exists_group {collected source inner : Text} {before : Option Rune}
    (h : Cuts collected before source [.group inner]) :
    Blank collected ∧ ∃ b a, Blank b ∧ Blank a ∧
      source = b ++ (.char '(' :: inner ++ [.char ')']) ++ a := by
  generalize hpieces : [Piece.group inner] = pieces at h
  induction h with
  | @done collected _ =>
      rcases flush_eq collected with ⟨hnil, _⟩ | hone
      · simp [hnil] at hpieces
      · simp [hone] at hpieces
  | @plain _ _ _ r _ _ _ _ _ ih =>
      obtain ⟨hcollected, b, a, hb, ha, rfl⟩ := ih hpieces
      obtain ⟨hr, hcollected⟩ := Text.blank_cons.1 hcollected
      exact ⟨hcollected, r :: b, a, Text.blank_cons.2 ⟨hr, hb⟩, ha, rfl⟩
  | @group collected inner' rest _ pieces _ hrest _ =>
      rcases flush_eq collected with ⟨hnil, hblank⟩ | hone
      · rw [hnil, List.nil_append] at hpieces
        obtain ⟨hinner, rfl⟩ := List.cons.inj hpieces
        obtain rfl := Piece.group.inj hinner
        exact ⟨hblank, [], rest, Text.blank_nil, hrest.blank.2, by simp⟩
      · simp [hone] at hpieces
  | @mark _ _ _ mark _ _ _ _ =>
      have hmem : Piece.mark mark ∈ [Piece.group inner] := by simp [hpieces]
      simp at hmem

end Tortoise.Expr
