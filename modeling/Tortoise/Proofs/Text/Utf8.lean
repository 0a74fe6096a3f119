import Mathlib.Algebra.Group.Int.Defs
import Mathlib.Algebra.Group.Nat.Defs
import Tortoise.Text.Rune

/-!
# Bytes of texts

A text of characters is read back from its bytes. Whatever bytes are read, each of them belongs to
one rune of the text, and a well-formed start is read the same way whatever follows it.
-/

namespace Tortoise.Text

theorem toNat_ofNat_byte {n : Nat} (h : n < 256) : (UInt8.ofNat n).toNat = n := by
  rw [UInt8.toNat_ofNat']
  exact Nat.mod_eq_of_lt h

theorem ofNat_eq_byte {n : Nat} {a : UInt8} (h : n = a.toNat) : UInt8.ofNat n = a := by
  rw [h, UInt8.ofNat_toNat]

theorem char_toNat_lt (c : Char) : c.toNat < 0x110000 := by
  have hvalid : c.toNat.isValidChar := c.valid
  unfold Nat.isValidChar at hvalid
  omega

theorem toNat_ofNat_char {n : Nat} (h : n.isValidChar) : (Char.ofNat n).toNat = n := by
  rw [Char.ofNat, dif_pos h]
  rfl

theorem utf8EncodeChar_eq (c : Char) :
    String.utf8EncodeChar c = if c.toNat ≤ 127 then [UInt8.ofNat c.toNat]
      else if c.toNat ≤ 2047 then
        [UInt8.ofNat (c.toNat / 64 % 32 + 192), UInt8.ofNat (c.toNat % 64 + 128)]
      else if c.toNat ≤ 65535 then [UInt8.ofNat (c.toNat / 4096 % 16 + 224),
        UInt8.ofNat (c.toNat / 64 % 64 + 128), UInt8.ofNat (c.toNat % 64 + 128)]
      else [UInt8.ofNat (c.toNat / 262144 % 8 + 240), UInt8.ofNat (c.toNat / 4096 % 64 + 128),
        UInt8.ofNat (c.toNat / 64 % 64 + 128), UInt8.ofNat (c.toNat % 64 + 128)] := rfl

theorem isTail_ofNat (n : Nat) : isTail (UInt8.ofNat (n % 64 + 128)) = true := by
  have hvalue : (UInt8.ofNat (n % 64 + 128)).toNat = n % 64 + 128 :=
    toNat_ofNat_byte (by omega)
  simp only [isTail, Bool.and_eq_true, decide_eq_true_eq, UInt8.le_iff_toNat_le,
    UInt8.lt_iff_toNat_lt, hvalue]
  exact ⟨by change 128 ≤ _; omega, by change _ < 192; omega⟩

theorem payload_ofNat (n : Nat) : payload (UInt8.ofNat (n % 64 + 128)) = n % 64 := by
  rw [payload, toNat_ofNat_byte (by omega)]
  omega

theorem payload_lt (b : UInt8) : payload b < 64 := Nat.mod_lt _ (by decide)

theorem scalar?_eq_some_iff {least n : Nat} {c : Char} :
    scalar? least n = some c ↔ least ≤ n ∧ c.toNat = n := by
  unfold scalar?
  constructor
  · intro h
    split at h
    · next hn =>
      obtain rfl := Option.some.inj h
      rw [toNat_ofNat_char hn.2]
      exact ⟨hn.1, rfl⟩
    · simp at h
  · rintro ⟨hle, rfl⟩
    have hvalid : c.toNat.isValidChar := c.valid
    rw [if_pos ⟨hle, hvalid⟩, Char.ofNat_toNat]

section Lengths

variable {a b c d : UInt8} {rest : Bytes}

theorem not_lt_of_le {n : UInt8} (h : n.toNat ≤ a.toNat) : ¬ a < n := by
  rw [UInt8.lt_iff_toNat_lt]
  omega

theorem toNat_le_of_not_lt {n : UInt8} (h : ¬ a < n) : n.toNat ≤ a.toNat :=
  Nat.not_lt.1 fun hlt => h (UInt8.lt_iff_toNat_lt.2 hlt)

theorem character?_one (ha : a.toNat < 128) :
    character? a rest = some (Char.ofNat a.toNat, 0) := by
  unfold character?
  rw [if_pos (UInt8.lt_iff_toNat_lt.2 ha)]

theorem character?_two (ha : 192 ≤ a.toNat) (ha' : a.toNat < 224) (hb : isTail b = true) :
    character? a (b :: rest) = (scalar? 0x80 (a.toNat % 32 * 64 + payload b)).map (·, 1) := by
  unfold character?
  rw [if_neg (not_lt_of_le (by change 128 ≤ _; omega)), if_neg (not_lt_of_le (n := 0xC0) ha),
    if_pos (UInt8.lt_iff_toNat_lt.2 ha')]
  simp only [hb, if_true]

theorem character?_three (ha : 224 ≤ a.toNat) (ha' : a.toNat < 240) (hb : isTail b = true)
    (hc : isTail c = true) :
    character? a (b :: c :: rest) =
      (scalar? 0x800 ((a.toNat % 16 * 64 + payload b) * 64 + payload c)).map (·, 2) := by
  unfold character?
  rw [if_neg (not_lt_of_le (by change 128 ≤ _; omega)),
    if_neg (not_lt_of_le (by change 192 ≤ _; omega)), if_neg (not_lt_of_le (n := 0xE0) ha),
    if_pos (UInt8.lt_iff_toNat_lt.2 ha')]
  simp only [hb, hc, Bool.and_self, if_true]

theorem character?_four (ha : 240 ≤ a.toNat) (ha' : a.toNat < 248) (hb : isTail b = true)
    (hc : isTail c = true) (hd : isTail d = true) :
    character? a (b :: c :: d :: rest) =
      (scalar? 0x10000 (((a.toNat % 8 * 64 + payload b) * 64 + payload c) * 64 +
        payload d)).map (·, 3) := by
  unfold character?
  rw [if_neg (not_lt_of_le (by change 128 ≤ _; omega)),
    if_neg (not_lt_of_le (by change 192 ≤ _; omega)),
    if_neg (not_lt_of_le (by change 224 ≤ _; omega)), if_neg (not_lt_of_le (n := 0xF0) ha),
    if_pos (UInt8.lt_iff_toNat_lt.2 ha')]
  simp only [hb, hc, hd, Bool.and_self, if_true]

/-- The bytes of a character are read as that character. -/
theorem exists_utf8EncodeChar (ch : Char) :
    ∃ a tail, String.utf8EncodeChar ch = a :: tail ∧
      ∀ rest, character? a (tail ++ rest) = some (ch, tail.length) := by
  have hmost := char_toNat_lt ch
  have hscalar {least n : Nat} (hn : n = ch.toNat) (h : least ≤ ch.toNat) :
      scalar? least n = some ch := scalar?_eq_some_iff.2 ⟨by omega, hn.symm⟩
  rw [utf8EncodeChar_eq]
  split
  · next h =>
    refine ⟨_, _, rfl, fun rest => ?_⟩
    have hlead := toNat_ofNat_byte (n := ch.toNat) (by omega)
    rw [List.nil_append, character?_one (by omega), hlead, Char.ofNat_toNat]
    rfl
  split
  · next h =>
    refine ⟨_, _, rfl, fun rest => ?_⟩
    have hlead := toNat_ofNat_byte (n := ch.toNat / 64 % 32 + 192) (by omega)
    rw [List.singleton_append, character?_two (by omega) (by omega) (isTail_ofNat _),
      payload_ofNat, hlead, hscalar (by omega) (by omega)]
    rfl
  split
  · next h =>
    refine ⟨_, _, rfl, fun rest => ?_⟩
    have hlead := toNat_ofNat_byte (n := ch.toNat / 4096 % 16 + 224) (by omega)
    rw [List.cons_append, List.singleton_append, character?_three (by omega) (by omega)
      (isTail_ofNat _) (isTail_ofNat _), payload_ofNat, payload_ofNat, hlead,
      hscalar (by omega) (by omega)]
    rfl
  · next h =>
    refine ⟨_, _, rfl, fun rest => ?_⟩
    have hlead := toNat_ofNat_byte (n := ch.toNat / 262144 % 8 + 240) (by omega)
    rw [List.cons_append, List.cons_append, List.singleton_append, character?_four (by omega)
      (by omega) (isTail_ofNat _) (isTail_ofNat _) (isTail_ofNat _), payload_ofNat,
      payload_ofNat, payload_ofNat, hlead, hscalar (by omega) (by omega)]
    rfl

theorem ofNat_payload {n : Nat} (hb : isTail b = true) (hn : n % 64 = payload b) :
    UInt8.ofNat (n % 64 + 128) = b := by
  simp only [isTail, Bool.and_eq_true, decide_eq_true_eq, UInt8.le_iff_toNat_le,
    UInt8.lt_iff_toNat_lt] at hb
  obtain ⟨hlow, hhigh⟩ : 128 ≤ b.toNat ∧ b.toNat < 192 := hb
  apply ofNat_eq_byte
  rw [hn, payload]
  omega

section Encoded

variable {ch : Char}

theorem utf8EncodeChar_two (hlow : 192 ≤ a.toNat) (hhigh : a.toNat < 224) (hb : isTail b = true)
    (hleast : 0x80 ≤ ch.toNat) (hvalue : ch.toNat = a.toNat % 32 * 64 + payload b) :
    String.utf8EncodeChar ch = [a, b] := by
  have hpayload := payload_lt b
  rw [utf8EncodeChar_eq, if_neg (by omega), if_pos (by omega), ofNat_eq_byte (a := a) (by omega),
    ofNat_payload hb (by omega)]

theorem utf8EncodeChar_three (hlow : 224 ≤ a.toNat) (hhigh : a.toNat < 240)
    (hb : isTail b = true) (hc : isTail c = true) (hleast : 0x800 ≤ ch.toNat)
    (hvalue : ch.toNat = (a.toNat % 16 * 64 + payload b) * 64 + payload c) :
    String.utf8EncodeChar ch = [a, b, c] := by
  have hpayload := And.intro (payload_lt b) (payload_lt c)
  rw [utf8EncodeChar_eq, if_neg (by omega), if_neg (by omega), if_pos (by omega),
    ofNat_eq_byte (a := a) (by omega), ofNat_payload hb (by omega), ofNat_payload hc (by omega)]

theorem utf8EncodeChar_four (hlow : 240 ≤ a.toNat) (hhigh : a.toNat < 248)
    (hb : isTail b = true) (hc : isTail c = true) (hd : isTail d = true)
    (hleast : 0x10000 ≤ ch.toNat)
    (hvalue : ch.toNat =
      ((a.toNat % 8 * 64 + payload b) * 64 + payload c) * 64 + payload d) :
    String.utf8EncodeChar ch = [a, b, c, d] := by
  have hpayload := And.intro (payload_lt b) (And.intro (payload_lt c) (payload_lt d))
  rw [utf8EncodeChar_eq, if_neg (by omega), if_neg (by omega), if_neg (by omega),
    ofNat_eq_byte (a := a) (by omega), ofNat_payload hb (by omega), ofNat_payload hc (by omega),
    ofNat_payload hd (by omega)]

end Encoded

/-- A character is read from its own bytes. -/
theorem exists_of_character? {ch : Char} {used : Nat} (h : character? a rest = some (ch, used)) :
    ∃ tail more, rest = tail ++ more ∧ tail.length = used ∧
      String.utf8EncodeChar ch = a :: tail := by
  have hread {least n len : Nat} (hmap : (scalar? least n).map (·, len) = some (ch, used)) :
      len = used ∧ least ≤ ch.toNat ∧ ch.toNat = n := by
    obtain ⟨ch', hscalar, heq⟩ := Option.map_eq_some_iff.1 hmap
    obtain ⟨rfl, rfl⟩ := Prod.mk.inj heq
    obtain ⟨hleast, hvalue⟩ := scalar?_eq_some_iff.1 hscalar
    exact ⟨rfl, hvalue ▸ hleast, hvalue⟩
  unfold character? at h
  split at h
  · next ha =>
    obtain ⟨rfl, rfl⟩ := Prod.mk.inj (Option.some.inj h)
    have ha' : a.toNat < 128 := UInt8.lt_iff_toNat_lt.1 ha
    refine ⟨[], rest, rfl, rfl, ?_⟩
    rw [utf8EncodeChar_eq, toNat_ofNat_char (Or.inl (by omega)), if_pos (by omega),
      UInt8.ofNat_toNat]
  split at h
  · simp at h
  next hlow =>
  have hlow : 192 ≤ a.toNat := toNat_le_of_not_lt hlow
  split at h
  · next ha =>
    have hhigh : a.toNat < 224 := UInt8.lt_iff_toNat_lt.1 ha
    split at h
    · next b more =>
      split at h
      · next hb =>
        obtain ⟨rfl, hleast, hvalue⟩ := hread h
        exact ⟨[b], more, rfl, rfl, utf8EncodeChar_two hlow hhigh hb hleast hvalue⟩
      · simp at h
    · simp at h
  next hlow =>
  have hlow : 224 ≤ a.toNat := toNat_le_of_not_lt hlow
  split at h
  · next ha =>
    have hhigh : a.toNat < 240 := UInt8.lt_iff_toNat_lt.1 ha
    split at h
    · next b c more =>
      split at h
      · next htails =>
        obtain ⟨hb, hc⟩ := Bool.and_eq_true_iff.1 htails
        obtain ⟨rfl, hleast, hvalue⟩ := hread h
        exact ⟨[b, c], more, rfl, rfl, utf8EncodeChar_three hlow hhigh hb hc hleast hvalue⟩
      · simp at h
    · simp at h
  next hlow =>
  have hlow : 240 ≤ a.toNat := toNat_le_of_not_lt hlow
  split at h
  · next ha =>
    have hhigh : a.toNat < 248 := UInt8.lt_iff_toNat_lt.1 ha
    split at h
    · next b c d more =>
      split at h
      · next htails =>
        obtain ⟨htails, hd⟩ := Bool.and_eq_true_iff.1 htails
        obtain ⟨hb, hc⟩ := Bool.and_eq_true_iff.1 htails
        obtain ⟨rfl, hleast, hvalue⟩ := hread h
        exact ⟨[b, c, d], more, rfl, rfl, utf8EncodeChar_four hlow hhigh hb hc hd hleast hvalue⟩
      · simp at h
    · simp at h
  · simp at h

/-- A character that is read has as many bytes as it should, and what follows them is not looked
at. -/
theorem character?_eq_some {ch : Char} {used : Nat} (h : character? a rest = some (ch, used)) :
    used ≤ rest.length ∧ ch.utf8Size = used + 1 ∧
      ∀ more, character? a (rest ++ more) = some (ch, used) := by
  obtain ⟨tail, behind, rfl, rfl, hencode⟩ := exists_of_character? h
  obtain ⟨a', tail', hencode', hread⟩ := exists_utf8EncodeChar ch
  obtain ⟨rfl, rfl⟩ := List.cons.inj (hencode.symm.trans hencode')
  refine ⟨by simp, ?_, fun more => ?_⟩
  · rw [← String.length_utf8EncodeChar, hencode, List.length_cons]
  · rw [List.append_assoc, hread]

/-- A byte that starts no character starts none whatever the bytes behind it are taken for. -/
theorem not_prefix_of_character? (h : character? a rest = none) (ch : Char) :
    ¬ String.utf8EncodeChar ch <+: a :: rest := by
  rintro ⟨more, heq⟩
  obtain ⟨a', tail, hencode, hread⟩ := exists_utf8EncodeChar ch
  rw [hencode, List.cons_append] at heq
  obtain ⟨rfl, rfl⟩ := List.cons.inj heq
  rw [hread more] at h
  cases h

end Lengths

@[simp] theorem bytes_cons (r : Rune) (t : Text) : bytes (r :: t) = r.bytes ++ bytes t := rfl

theorem isWellFormed_cons (r : Rune) (t : Text) :
    isWellFormed (r :: t) = (r.isChar && isWellFormed t) := rfl

theorem isWellFormed_append (t u : Text) :
    isWellFormed (t ++ u) = (isWellFormed t && isWellFormed u) := List.all_append

theorem length_bytes (t : Text) : t.bytes.length = t.size := by
  induction t with
  | nil => rfl
  | cons r t ih =>
      rw [bytes_cons, List.length_append, ih]
      cases r with
      | char c => rw [Rune.bytes, String.length_utf8EncodeChar]; rfl
      | stray b => rfl

theorem ofBytesAfter_append (skipped rest : Bytes) :
    ofBytesAfter skipped.length (skipped ++ rest) = ofBytes rest := by
  induction skipped with
  | nil => rfl
  | cons b skipped ih => exact ih

/-- A text of characters is what its bytes are read as. -/
theorem ofBytes_bytes {t : Text} (h : t.isWellFormed = true) : ofBytes t.bytes = t := by
  induction t with
  | nil => rfl
  | cons r t ih =>
      rw [isWellFormed_cons, Bool.and_eq_true] at h
      cases r with
      | stray b => simp [Rune.isChar] at h
      | char c =>
          obtain ⟨a, tail, hencode, hread⟩ := exists_utf8EncodeChar c
          rw [bytes_cons, Rune.bytes, hencode, List.cons_append, ofBytes, ofBytesAfter, hread]
          simp only
          rw [ofBytesAfter_append, ih h.2]

theorem size_ofBytesAfter {skip : Nat} {b : Bytes} (h : skip ≤ b.length) :
    (ofBytesAfter skip b).size + skip = b.length := by
  fun_induction ofBytesAfter skip b with
  | case1 skip =>
      obtain rfl : skip = 0 := by simpa using h
      rfl
  | case2 skip a rest ih =>
      have hsize := ih (by simpa using h)
      simp only [List.length_cons]
      omega
  | case3 a rest c used hread ih =>
      obtain ⟨hused, hsize, _⟩ := character?_eq_some hread
      have hrest := ih hused
      change c.utf8Size + (ofBytesAfter used rest).size + 0 = _
      simp only [List.length_cons]
      omega
  | case4 a rest hread ih =>
      have hrest := ih (Nat.zero_le _)
      change 1 + (ofBytesAfter 0 rest).size + 0 = _
      simp only [List.length_cons]
      omega

/-- Reading bytes neither adds to them nor loses any. -/
theorem size_ofBytes (b : Bytes) : (ofBytes b).size = b.length :=
  size_ofBytesAfter (Nat.zero_le _)

theorem ofBytesAfter_append_of_isWellFormed {skip : Nat} {b : Bytes} (hskip : skip ≤ b.length)
    (h : (ofBytesAfter skip b).isWellFormed = true) (more : Bytes) :
    ofBytesAfter skip (b ++ more) = ofBytesAfter skip b ++ ofBytes more := by
  fun_induction ofBytesAfter skip b with
  | case1 skip =>
      obtain rfl : skip = 0 := by simpa using hskip
      rfl
  | case2 skip a rest ih => exact ih (by simpa using hskip) h
  | case3 a rest c used hread ih =>
      obtain ⟨hused, _, hmore⟩ := character?_eq_some hread
      rw [List.cons_append, ofBytesAfter, hmore]
      exact congrArg _ (ih hused h)
  | case4 a rest hread ih => simp [isWellFormed_cons, Rune.isChar] at h

/-- A well-formed start is read the same way whatever follows it. -/
theorem ofBytes_append {b : Bytes} (h : (ofBytes b).isWellFormed = true) (more : Bytes) :
    ofBytes (b ++ more) = ofBytes b ++ ofBytes more :=
  ofBytesAfter_append_of_isWellFormed (Nat.zero_le _) h more

/-- The bytes are read as the runes: each character from its own bytes, and a byte with which no
character starts as a rune of its own. -/
inductive Decodes : Bytes → Text → Prop
  | nil : Decodes [] []
  | char {c : Char} {rest : Bytes} {t : Text} (h : Decodes rest t) :
      Decodes (String.utf8EncodeChar c ++ rest) (.char c :: t)
  | stray {b : UInt8} {rest : Bytes} {t : Text}
      (hb : ∀ c, ¬ String.utf8EncodeChar c <+: b :: rest) (h : Decodes rest t) :
      Decodes (b :: rest) (.stray b :: t)

theorem decodes_ofBytesAfter (skip : Nat) (b : Bytes) :
    Decodes (b.drop skip) (ofBytesAfter skip b) := by
  fun_induction ofBytesAfter skip b with
  | case1 skip =>
      rw [List.drop_nil]
      exact .nil
  | case2 skip a rest ih => exact ih
  | case3 a rest c used hread ih =>
      obtain ⟨tail, more, rfl, rfl, hencode⟩ := exists_of_character? hread
      rw [List.drop_left] at ih
      rw [List.drop_zero, ← List.cons_append, ← hencode]
      exact .char ih
  | case4 a rest hread ih => exact .stray (not_prefix_of_character? hread) ih

theorem decodes_ofBytes (b : Bytes) : Decodes b (ofBytes b) := decodes_ofBytesAfter 0 b

structure Proper (t : Text) : Prop where
  wellFormed : t.isWellFormed = true
  size_lt : t.size < 2 ^ 63

instance (t : Text) : Decidable t.Proper :=
  decidable_of_iff (t.isWellFormed = true ∧ t.size < 2 ^ 63)
    ⟨fun h => ⟨h.1, h.2⟩, fun h => ⟨h.wellFormed, h.size_lt⟩⟩

theorem proper_nil : Proper [] := by decide

end Tortoise.Text
