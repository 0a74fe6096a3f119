import Tortoise.Cbor.Read
import Tortoise.Proofs.Text.Utf8

/-!
# Items read back

The bytes of an item are read as that item if it fits the limits of the reader, and are refused
otherwise. `Item.Fits` states the limits on nesting and on the number of members; what the writer
makes of programs is always `Item.Canonical`.
-/

namespace Tortoise.Cbor

theorem length_bigEndian (width n : Nat) : (bigEndian width n).length = width := by
  induction width generalizing n with
  | zero => rfl
  | succ width ih => rw [bigEndian, List.length_append, ih, List.length_singleton]

theorem natOfBytes_concat (b : Bytes) (x : UInt8) :
    natOfBytes (b ++ [x]) = 256 * natOfBytes b + x.toNat := by
  rw [natOfBytes, List.foldl_append]
  rfl

theorem natOfBytes_bigEndian {width n : Nat} (h : n < 256 ^ width) :
    natOfBytes (bigEndian width n) = n := by
  induction width generalizing n with
  | zero =>
      obtain rfl : n = 0 := by simpa using h
      rfl
  | succ width ih =>
      have hn : n / 256 < 256 ^ width := Nat.div_lt_of_lt_mul (by rwa [Nat.pow_succ'] at h)
      rw [bigEndian, natOfBytes_concat, ih hn, Text.toNat_ofNat_byte (Nat.mod_lt _ (by decide))]
      exact Nat.div_add_mod n 256

theorem takeBytes_append (b rest : Bytes) : takeBytes b.length (b ++ rest) = some (b, rest) := by
  simp [takeBytes]

section Heads

variable {major n : Nat}

theorem initial_div {info : Nat} (hmajor : major ≤ 7) (hinfo : info < 32) :
    (UInt8.ofNat (32 * major + info)).toNat / 32 = major := by
  rw [Text.toNat_ofNat_byte (by omega)]
  omega

theorem initial_mod {info : Nat} (hmajor : major ≤ 7) (hinfo : info < 32) :
    (UInt8.ofNat (32 * major + info)).toNat % 32 = info := by
  rw [Text.toNat_ofNat_byte (by omega)]
  omega

theorem takeBytes_bigEndian (width : Nat) (rest : Bytes) :
    takeBytes width (bigEndian width n ++ rest) = some (bigEndian width n, rest) := by
  have h := takeBytes_append (bigEndian width n) rest
  rwa [length_bigEndian] at h

/-- A written head is read back. Simple values from 24 to 31 have none. -/
theorem readHead_head (major : Nat) (hmajor : major ≤ 7) (hn : n < 2 ^ 64)
    (hsimple : major = 7 → n < 24 ∨ 32 ≤ n) (rest : Bytes) :
    ∃ info, readHead (head major n ++ rest) = some (⟨major, some n, info⟩, rest) ∧
      (n < 256 → info < 25) := by
  unfold head
  split
  · next h =>
    refine ⟨n, ?_, by omega⟩
    simp only [List.singleton_append, readHead, initial_div hmajor (show n < 32 by omega),
      initial_mod hmajor (show n < 32 by omega), if_pos h]
  split
  · next h =>
    refine ⟨24, ?_, by omega⟩
    have hvalue : natOfBytes (bigEndian 1 n) = n := natOfBytes_bigEndian (by omega)
    have hshort : major ≠ 7 ∨ 32 ≤ n := by omega
    simp only [List.cons_append, readHead, initial_div hmajor (show 24 < 32 by decide),
      initial_mod hmajor (show 24 < 32 by decide), takeBytes_bigEndian, Option.map_some, hvalue]
    simpa using hshort
  split
  · next h =>
    refine ⟨25, ?_, by omega⟩
    have hvalue : natOfBytes (bigEndian 2 n) = n := natOfBytes_bigEndian (by omega)
    simp only [List.cons_append, readHead, initial_div hmajor (show 25 < 32 by decide),
      initial_mod hmajor (show 25 < 32 by decide), takeBytes_bigEndian, Option.map_some, hvalue]
    rfl
  split
  · next h =>
    refine ⟨26, ?_, by omega⟩
    have hvalue : natOfBytes (bigEndian 4 n) = n := natOfBytes_bigEndian (by omega)
    simp only [List.cons_append, readHead, initial_div hmajor (show 26 < 32 by decide),
      initial_mod hmajor (show 26 < 32 by decide), takeBytes_bigEndian, Option.map_some, hvalue]
    rfl
  · next h =>
    refine ⟨27, ?_, by omega⟩
    have hvalue : natOfBytes (bigEndian 8 n) = n := natOfBytes_bigEndian (by omega)
    simp only [List.cons_append, readHead, initial_div hmajor (show 27 < 32 by decide),
      initial_mod hmajor (show 27 < 32 by decide), takeBytes_bigEndian, Option.map_some, hvalue]
    rfl

theorem length_head_pos (major n : Nat) : 0 < (head major n).length := by
  unfold head
  repeat' split
  all_goals simp

end Heads

/-- An item in which lists, maps and tags nest at most `levels` deep, no list or map has more than
`maxCount` members and 63 bits count the bytes of a text. `tagged` says that it stands directly
behind a tag: only then does a tag count as a level. -/
inductive Item.Fits : (levels : Nat) → (tagged : Bool) → Item → Prop
  | unsigned {levels tagged n} : Fits levels tagged (.unsigned n)
  | negative {levels tagged n} : Fits levels tagged (.negative n)
  | bytes {levels tagged content} : Fits levels tagged (.bytes content)
  | text {levels tagged chunks} (hlength : chunks.flatten.length < 2 ^ 63) :
      Fits levels tagged (.text chunks)
  | array {levels tagged items} (hcount : items.length ≤ maxCount)
      (hitems : ∀ item ∈ items, Fits levels false item) : Fits (levels + 1) tagged (.array items)
  | map {levels tagged flat} (hcount : flat.length / 2 ≤ maxCount)
      (hitems : ∀ item ∈ flat, Fits levels false item) : Fits (levels + 1) tagged (.map flat)
  | tag {levels number content} (hcontent : Fits levels true content) :
      Fits levels false (.tag number content)
  | secondTag {levels number content} (hcontent : Fits levels true content) :
      Fits (levels + 1) true (.tag number content)
  | simple {levels tagged n} : Fits levels tagged (.simple n)
  | float {levels tagged} : Fits levels tagged .float

section Limits

variable {levels number : Nat} {tagged : Bool} {items : List Item} {content : Item}

theorem fits_array_iff : (Item.array items).Fits (levels + 1) tagged ↔
    items.length ≤ maxCount ∧ ∀ item ∈ items, item.Fits levels false := by
  constructor
  · rintro (_ | _)
    exact ⟨‹_›, ‹_›⟩
  · rintro ⟨hcount, hitems⟩
    exact .array hcount hitems

theorem fits_map_iff : (Item.map items).Fits (levels + 1) tagged ↔
    items.length / 2 ≤ maxCount ∧ ∀ item ∈ items, item.Fits levels false := by
  constructor
  · rintro (_ | _)
    exact ⟨‹_›, ‹_›⟩
  · rintro ⟨hcount, hitems⟩
    exact .map hcount hitems

theorem fits_tag_iff : (Item.tag number content).Fits levels false ↔ content.Fits levels true := by
  constructor
  · rintro (_ | _)
    assumption
  · exact .tag

theorem fits_secondTag_iff :
    (Item.tag number content).Fits (levels + 1) true ↔ content.Fits levels true := by
  constructor
  · rintro (_ | _)
    assumption
  · exact .secondTag

end Limits

/-- An item as the writer makes it: numbers and lengths have at most 64 bits, a text is one chunk,
and a map has a value for every key. -/
inductive Item.Canonical : Item → Prop
  | unsigned {n} (hn : n < 2 ^ 64) : Canonical (.unsigned n)
  | negative {n} (hn : n < 2 ^ 64) : Canonical (.negative n)
  | bytes {content} (hlength : content.length < 2 ^ 64) : Canonical (.bytes content)
  | text {chunk} (hlength : chunk.length < 2 ^ 63) : Canonical (.text [chunk])
  | array {items} (hlength : items.length < 2 ^ 64) (hitems : ∀ item ∈ items, Canonical item) :
      Canonical (.array items)
  | map {flat} (hlength : flat.length < 2 ^ 64) (heven : flat.length % 2 = 0)
      (hitems : ∀ item ∈ flat, Canonical item) : Canonical (.map flat)
  | tag {number content} (hnumber : number < 2 ^ 64) (hcontent : Canonical content) :
      Canonical (.tag number content)
  | simple {n} (hn : n < 24 ∨ 32 ≤ n ∧ n < 256) : Canonical (.simple n)
  | float : Canonical .float

theorem readMany_encodeAll {read : Bytes → Option (Item × Bytes)} {P : Item → Prop}
    {items : List Item} (hread : ∀ item ∈ items, ∀ (rest : Bytes) (r : Item × Bytes),
      read (item.encode ++ rest) = some r ↔ P item ∧ r = (item, rest))
    (rest : Bytes) {r : List Item × Bytes} :
    readMany read items.length (encodeAll items ++ rest) = some r ↔
      (∀ item ∈ items, P item) ∧ r = (items, rest) := by
  induction items generalizing r with
  | nil => simp [readMany, encodeAll, eq_comm]
  | cons item items ih =>
      have hitem := hread item (by simp)
      have hitems := @ih (fun other hmem => hread other (by simp [hmem]))
      rw [encodeAll, List.append_assoc, List.length_cons, readMany]
      simp only [Option.bind_eq_bind, Option.bind_eq_some_iff, hitem]
      constructor
      · rintro ⟨_, ⟨hfirst, rfl⟩, _, hmore, hresult⟩
        obtain ⟨hall, rfl⟩ := hitems.1 hmore
        exact ⟨by simpa using ⟨hfirst, hall⟩, (Option.some.inj hresult).symm⟩
      · rintro ⟨hall, rfl⟩
        obtain ⟨hfirst, hrest⟩ := List.forall_mem_cons.1 hall
        exact ⟨_, ⟨hfirst, rfl⟩, _, hitems.2 ⟨hrest, rfl⟩, rfl⟩

theorem readMembers_encodeAll {read : Bytes → Option (Item × Bytes)} {P : Item → Prop}
    {items : List Item} (hread : ∀ item ∈ items, ∀ (rest : Bytes) (r : Item × Bytes),
      read (item.encode ++ rest) = some r ↔ P item ∧ r = (item, rest))
    {major width count info : Nat} (hcount : width * count = items.length) (rest : Bytes)
    (wrap : List Item → Item) {r : Item × Bytes} :
    ((readMembers read width ⟨major, some count, info⟩ (encodeAll items ++ rest)).bind
        fun (members, rest) => some (wrap members, rest)) = some r ↔
      (count ≤ maxCount ∧ ∀ item ∈ items, P item) ∧ r = (wrap items, rest) := by
  simp only [readMembers, hcount]
  by_cases hmost : count ≤ maxCount
  · rw [if_pos hmost]
    simp only [Option.bind_eq_some_iff, readMany_encodeAll hread]
    constructor
    · rintro ⟨_, ⟨hall, rfl⟩, hr⟩
      exact ⟨⟨hmost, hall⟩, (Option.some.inj hr).symm⟩
    · rintro ⟨⟨-, hall⟩, rfl⟩
      exact ⟨_, ⟨hall, rfl⟩, rfl⟩
  · simp [hmost]

theorem length_encode_le_encodeAll {item : Item} {items : List Item} (h : item ∈ items) :
    item.encode.length ≤ (encodeAll items).length := by
  induction items with
  | nil => simp at h
  | cons first items ih =>
      rw [encodeAll, List.length_append]
      rcases List.mem_cons.1 h with rfl | hmem
      · exact Nat.le_add_right _ _
      · exact Nat.le_trans (ih hmem) (Nat.le_add_left _ _)

/-- The bytes of the item are read as the item where it fits, and as nothing elsewhere. -/
def Item.ReadsBack (item : Item) : Prop :=
  ∀ (fuel levels : Nat) (tagged : Bool) (rest : Bytes) (r : Item × Bytes),
    item.encode.length ≤ fuel →
      (readItem fuel levels tagged (item.encode ++ rest) = some r ↔
        item.Fits levels tagged ∧ r = (item, rest))

section Shapes

variable {item : Item} {body : Bytes} {major n fuel levels : Nat} {tagged : Bool}

theorem exists_readHead (hencode : item.encode = head major n ++ body) (hmajor : major ≤ 7)
    (hn : n < 2 ^ 64) (hsimple : major = 7 → n < 24 ∨ 32 ≤ n)
    (hfuel : item.encode.length ≤ fuel) (rest : Bytes) :
    ∃ k info, fuel = k + 1 ∧ body.length ≤ k ∧ (n < 256 → info < 25) ∧
      readHead (item.encode ++ rest) = some (⟨major, some n, info⟩, body ++ rest) := by
  have hpos := length_head_pos major n
  obtain ⟨info, hhead, hinfo⟩ := readHead_head major hmajor hn hsimple (body ++ rest)
  rw [hencode, List.length_append] at hfuel
  refine ⟨fuel - 1, info, by omega, by omega, hinfo, ?_⟩
  rw [hencode, List.append_assoc, hhead]

/-- An item without members fits everywhere, and what its head announces is read. -/
theorem readsBack_leaf (hencode : item.encode = head major n ++ body) (hmajor : major ≤ 7)
    (hn : n < 2 ^ 64) (hsimple : major = 7 → n < 24 ∨ 32 ≤ n)
    (hfits : ∀ levels tagged, item.Fits levels tagged)
    (hread : ∀ fuel levels tagged info b rest, (n < 256 → info < 25) →
      readHead b = some (⟨major, some n, info⟩, body ++ rest) →
      readItem (fuel + 1) levels tagged b = some (item, rest)) : item.ReadsBack := by
  intro fuel levels tagged rest r hfuel
  obtain ⟨k, info, rfl, -, hinfo, hhead⟩ :=
    exists_readHead hencode hmajor hn hsimple hfuel rest
  rw [hread k levels tagged info _ rest hinfo hhead]
  simp [hfits, eq_comm]

theorem readItem_flat {b rest : Bytes} {h : Head} (hhead : readHead b = some (h, rest))
    (hmajor : h.major = 4 ∨ h.major = 5) : readItem (fuel + 1) 0 tagged b = none := by
  rw [readItem, hhead]
  rcases hmajor with hmajor | hmajor <;> simp [hmajor]

/-- A list or map fits if its members do, one level below, and they are read one by one. -/
theorem readsBack_members {items : List Item} {wrap : List Item → Item} {width : Nat}
    (hencode : (wrap items).encode = head major n ++ encodeAll items)
    (hmajor : major = 4 ∨ major = 5) (hn : n < 2 ^ 64) (hwidth : width * n = items.length)
    (hflat : ∀ tagged, ¬ (wrap items).Fits 0 tagged)
    (hfits : ∀ levels tagged, (wrap items).Fits (levels + 1) tagged ↔
      n ≤ maxCount ∧ ∀ item ∈ items, item.Fits levels false)
    (hread : ∀ fuel levels tagged info b rest,
      readHead b = some (⟨major, some n, info⟩, rest) →
      readItem (fuel + 1) (levels + 1) tagged b =
        (readMembers (readItem fuel levels false) width ⟨major, some n, info⟩ rest).bind
          fun (members, rest) => some (wrap members, rest))
    (ih : ∀ item ∈ items, item.ReadsBack) : (wrap items).ReadsBack := by
  intro fuel levels tagged rest r hfuel
  obtain ⟨k, info, rfl, hbody, -, hhead⟩ :=
    exists_readHead hencode (by omega) hn (by omega) hfuel rest
  cases levels with
  | zero =>
      rw [readItem_flat hhead hmajor]
      exact iff_of_false nofun fun h => hflat tagged h.1
  | succ levels =>
      have hmember (item : Item) (hmem : item ∈ items) (rest : Bytes) (r : Item × Bytes) :
          readItem k levels false (item.encode ++ rest) = some r ↔
            item.Fits levels false ∧ r = (item, rest) :=
        ih item hmem k levels false rest r
          (Nat.le_trans (length_encode_le_encodeAll hmem) hbody)
      rw [hread k levels tagged info _ _ hhead, hfits]
      exact readMembers_encodeAll hmember hwidth rest wrap

theorem readsBack_tag {number : Nat} {content : Item} (hnumber : number < 2 ^ 64)
    (ih : content.ReadsBack) : (Item.tag number content).ReadsBack := by
  intro fuel levels tagged rest r hfuel
  obtain ⟨k, info, rfl, hbody, -, hhead⟩ :=
    exists_readHead rfl (by decide) hnumber (by simp) hfuel rest
  have hinside (inner : Nat) :
      ((readItem k inner true (content.encode ++ rest)).bind
        fun found => some (Item.tag number found.1, found.2)) = some r ↔
      content.Fits inner true ∧ r = (Item.tag number content, rest) := by
    simp only [Option.bind_eq_some_iff, ih k inner true rest _ hbody]
    constructor
    · rintro ⟨_, ⟨hfits, rfl⟩, hr⟩
      exact ⟨hfits, (Option.some.inj hr).symm⟩
    · rintro ⟨hfits, rfl⟩
      exact ⟨_, ⟨hfits, rfl⟩, rfl⟩
  rw [readItem, hhead]
  cases tagged with
  | false => exact (hinside levels).trans (and_congr_left' fits_tag_iff.symm)
  | true =>
      cases levels with
      | zero =>
          refine ⟨by simp, ?_⟩
          rintro ⟨hfits, -⟩
          cases hfits
      | succ levels => exact (hinside levels).trans (and_congr_left' fits_secondTag_iff.symm)

theorem readsBack_float : Item.float.ReadsBack := by
  intro fuel levels tagged rest r hfuel
  obtain ⟨k, rfl⟩ : ∃ k, fuel = k + 1 := ⟨fuel - 1, by simp [Item.encode] at hfuel; omega⟩
  have hhead : readHead (Item.float.encode ++ rest) = some (⟨7, some 0, 25⟩, rest) := rfl
  rw [readItem, hhead]
  simp [simpleOf, Item.Fits.float, eq_comm]

end Shapes

theorem Item.Canonical.readsBack {item : Item} (h : item.Canonical) : item.ReadsBack := by
  induction h with
  | unsigned hn =>
      exact readsBack_leaf (List.append_nil _).symm (by decide) hn (by simp) (fun _ _ => .unsigned)
        fun _ _ _ _ _ _ _ hhead => by simp [readItem, hhead]
  | negative hn =>
      exact readsBack_leaf (List.append_nil _).symm (by decide) hn (by simp) (fun _ _ => .negative)
        fun _ _ _ _ _ _ _ hhead => by simp [readItem, hhead]
  | bytes hlength =>
      exact readsBack_leaf rfl (by decide) hlength (by simp) (fun _ _ => .bytes)
        fun _ _ _ _ _ _ _ hhead => by simp [readItem, hhead, readString, takeBytes_append]
  | @text chunk hlength =>
      have hencode : (Item.text [chunk]).encode = head 3 chunk.length ++ chunk := by
        simp [Item.encode]
      exact readsBack_leaf hencode (by decide) (by omega) (by simp)
        (fun _ _ => .text (by simpa using hlength))
        fun _ _ _ _ _ _ _ hhead => by simp [readItem, hhead, readString, takeBytes_append]
  | @simple n hn =>
      refine readsBack_leaf (List.append_nil _).symm (by decide) (by omega) (by omega)
        (fun _ _ => .simple) fun _ _ _ info _ _ hinfo hhead => ?_
      have hsimple : ¬ 25 ≤ info := by omega
      simp [readItem, hhead, simpleOf, hsimple]
  | float => exact readsBack_float
  | array hlength _ ih =>
      exact readsBack_members rfl (.inl rfl) hlength (Nat.one_mul _) (fun _ hfits => by cases hfits)
        (fun _ _ => fits_array_iff) (fun _ _ _ _ _ _ hhead => by rw [readItem, hhead]; rfl) ih
  | @map flat hlength heven _ ih =>
      have hpairs : 2 * (flat.length / 2) = flat.length := by omega
      exact readsBack_members rfl (.inr rfl) (by omega) hpairs (fun _ hfits => by cases hfits)
        (fun _ _ => fits_map_iff) (fun _ _ _ _ _ _ hhead => by rw [readItem, hhead]; rfl) ih
  | tag hnumber _ ih => exact readsBack_tag hnumber ih

theorem decode_eq_some_iff {b : Bytes} {item : Item} :
    decode b = some item ↔ readItem b.length maxNesting false b = some (item, []) := by
  unfold decode
  split
  · next found h => rw [h]; simp
  · next h =>
    refine ⟨by simp, fun hread => ?_⟩
    exact absurd hread (h item)

theorem Item.Canonical.decode_encode {item found : Item} (h : item.Canonical) :
    decode item.encode = some found ↔ item.Fits maxNesting false ∧ found = item := by
  have hread := h.readsBack item.encode.length maxNesting false [] (found, []) (Nat.le_refl _)
  rw [List.append_nil] at hread
  rw [decode_eq_some_iff, hread]
  simp

end Tortoise.Cbor
