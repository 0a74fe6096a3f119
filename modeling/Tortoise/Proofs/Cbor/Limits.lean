import Tortoise.Proofs.Cbor.Record
import Tortoise.Proofs.Success

/-!
# What reading gives

Whatever the bytes, an item that is read keeps the limits of the reader, and so do the records,
lists and texts taken from it.
-/

namespace Tortoise.Cbor

theorem takeBytes_eq_some_iff {count : Nat} {b taken rest : Bytes} :
    takeBytes count b = some (taken, rest) ↔ b = taken ++ rest ∧ taken.length = count := by
  unfold takeBytes
  constructor
  · intro h
    simp only at h
    split at h
    · next hlength =>
      obtain ⟨rfl, rfl⟩ := Prod.mk.inj (Option.some.inj h)
      exact ⟨(List.take_append_drop count b).symm, hlength⟩
    · cases h
  · rintro ⟨rfl, rfl⟩
    exact takeBytes_append taken rest

theorem length_of_readHead {b rest : Bytes} {h : Head} (hread : readHead b = some (h, rest)) :
    rest.length < b.length := by
  cases b with
  | nil => cases hread
  | cons first b =>
      have hlong {width : Nat} {major info : Nat} (htake : ((takeBytes width b).map
          fun found => ((⟨major, some (natOfBytes found.1), info⟩ : Head), found.2)) =
            some (h, rest)) :
          rest.length ≤ b.length := by
        obtain ⟨⟨taken, left⟩, htaken, heq⟩ := Option.map_eq_some_iff.1 htake
        obtain ⟨rfl, rfl⟩ := Prod.mk.inj heq
        rw [(takeBytes_eq_some_iff.1 htaken).1, List.length_append]
        exact Nat.le_add_left _ _
      have hle : rest.length ≤ b.length := by
        simp only [readHead] at hread
        split at hread
        · obtain ⟨rfl, rfl⟩ := Prod.mk.inj (Option.some.inj hread)
          exact Nat.le_refl _
        split at hread
        · exact hlong (Option.filter_eq_some_iff.1 hread).1
        split at hread
        · exact hlong hread
        split at hread
        · exact hlong hread
        split at hread
        · exact hlong hread
        split at hread
        · obtain ⟨rfl, rfl⟩ := Prod.mk.inj (Option.some.inj hread)
          exact Nat.le_refl _
        · cases hread
      rw [List.length_cons]
      omega

theorem length_of_readChunks {major fuel : Nat} {b rest : Bytes} {chunks : List Bytes}
    (hread : readChunks major fuel b = some (chunks, rest)) :
    chunks.flatten.length + rest.length ≤ b.length := by
  induction fuel generalizing b chunks with
  | zero => cases hread
  | succ fuel ih =>
      rw [readChunks] at hread
      split at hread
      · obtain ⟨rfl, rfl⟩ := Prod.mk.inj (Option.some.inj hread)
        simp
      · simp only [Option.bind_eq_bind, Option.bind_eq_some_iff] at hread
        obtain ⟨⟨h, afterHead⟩, hhead, hread⟩ := hread
        split at hread
        · obtain ⟨count, -, hread⟩ := Option.bind_eq_some_iff.1 hread
          obtain ⟨⟨chunk, afterChunk⟩, htake, hread⟩ := Option.bind_eq_some_iff.1 hread
          obtain ⟨⟨more, left⟩, hmore, hend⟩ := Option.bind_eq_some_iff.1 hread
          obtain ⟨rfl, rfl⟩ := Prod.mk.inj (Option.some.inj hend)
          obtain ⟨rfl, -⟩ := takeBytes_eq_some_iff.1 htake
          have hshorter := length_of_readHead hhead
          have hrest : more.flatten.length + left.length ≤ afterChunk.length := ih hmore
          simp only [List.flatten_cons, List.length_append] at hshorter ⊢
          omega
        · cases hread

theorem length_of_readString {h : Head} {b rest : Bytes} {chunks : List Bytes}
    (hread : readString h b = some (chunks, rest)) :
    chunks.flatten.length + rest.length ≤ b.length := by
  unfold readString at hread
  split at hread
  · obtain ⟨⟨chunk, left⟩, htake, heq⟩ := Option.map_eq_some_iff.1 hread
    obtain ⟨rfl, rfl⟩ := Prod.mk.inj heq
    obtain ⟨rfl, -⟩ := takeBytes_eq_some_iff.1 htake
    simp
  · exact length_of_readChunks hread

section Members

variable {read : Bytes → Option (Item × Bytes)} {P : Item → Prop} {most : Nat}
  (hread : ∀ {b rest : Bytes} {item : Item}, b.length ≤ most → read b = some (item, rest) →
    P item ∧ rest.length ≤ b.length)

include hread

theorem readMany_keeps {count : Nat} {b rest : Bytes} {items : List Item} (hb : b.length ≤ most)
    (h : readMany read count b = some (items, rest)) :
    items.length = count ∧ (∀ item ∈ items, P item) ∧ rest.length ≤ b.length := by
  induction count generalizing b items with
  | zero =>
      obtain ⟨rfl, rfl⟩ := Prod.mk.inj (Option.some.inj h)
      simp
  | succ count ih =>
      simp only [readMany, Option.bind_eq_bind, Option.bind_eq_some_iff] at h
      obtain ⟨⟨item, afterItem⟩, hitem, ⟨more, left⟩, hmore, hend⟩ := h
      obtain ⟨rfl, rfl⟩ := Prod.mk.inj (Option.some.inj hend)
      obtain ⟨hfirst, hshorter⟩ := hread hb hitem
      obtain ⟨hcount, hrest, hlength⟩ := ih (Nat.le_trans hshorter hb) hmore
      exact ⟨by simpa using hcount, List.forall_mem_cons.2 ⟨hfirst, hrest⟩,
        Nat.le_trans hlength hshorter⟩

theorem readUntilBreak_keeps {fuel : Nat} {b rest : Bytes} {items : List Item}
    (hb : b.length ≤ most) (h : readUntilBreak read fuel b = some (items, rest)) :
    (∀ item ∈ items, P item) ∧ rest.length ≤ b.length := by
  induction fuel generalizing b items with
  | zero => cases h
  | succ fuel ih =>
      rw [readUntilBreak] at h
      split at h
      · obtain ⟨rfl, rfl⟩ := Prod.mk.inj (Option.some.inj h)
        simp
      · simp only [Option.bind_eq_bind, Option.bind_eq_some_iff] at h
        obtain ⟨⟨item, afterItem⟩, hitem, ⟨more, left⟩, hmore, hend⟩ := h
        obtain ⟨rfl, rfl⟩ := Prod.mk.inj (Option.some.inj hend)
        obtain ⟨hfirst, hshorter⟩ := hread hb hitem
        obtain ⟨hrest, hlength⟩ := ih (Nat.le_trans hshorter hb) hmore
        exact ⟨List.forall_mem_cons.2 ⟨hfirst, hrest⟩, Nat.le_trans hlength hshorter⟩

theorem readMembers_keeps {width : Nat} {head : Head} {b rest : Bytes} {items : List Item}
    (hwidth : 0 < width) (hb : b.length ≤ most)
    (h : readMembers read width head b = some (items, rest)) :
    items.length / width ≤ maxCount ∧ (∀ item ∈ items, P item) ∧ rest.length ≤ b.length := by
  unfold readMembers at h
  split at h
  · next count _ =>
    split at h
    · next hcount =>
      obtain ⟨hlength, hall, hrest⟩ := readMany_keeps hread hb h
      exact ⟨by rwa [hlength, Nat.mul_div_cancel_left _ hwidth], hall, hrest⟩
    · cases h
  · obtain ⟨h, hcount⟩ := Option.filter_eq_some_iff.1 h
    obtain ⟨hall, hrest⟩ := readUntilBreak_keeps hread hb h
    simp only [Bool.and_eq_true, decide_eq_true_eq] at hcount
    exact ⟨hcount.2, hall, hrest⟩

end Members

/-- What is read with this much fuel keeps the limits. -/
def ReadsWithin (fuel : Nat) : Prop :=
  ∀ {levels : Nat} {tagged : Bool} {b rest : Bytes} {item : Item}, b.length < 2 ^ 63 →
    readItem fuel levels tagged b = some (item, rest) →
      item.Fits levels tagged ∧ rest.length ≤ b.length

section Shapes

variable {fuel levels outer : Nat} {tagged : Bool} {body rest : Bytes} {item : Item}

theorem exists_of_wrapped {α : Type} {x : Option (α × Bytes)} {wrap : α → Item}
    (h : (x.bind fun (found, rest) => some (wrap found, rest)) = some (item, rest)) :
    ∃ found, x = some (found, rest) ∧ item = wrap found := by
  obtain ⟨⟨found, left⟩, hx, heq⟩ := Option.bind_eq_some_iff.1 h
  obtain ⟨rfl, rfl⟩ := Prod.mk.inj (Option.some.inj heq)
  exact ⟨found, hx, rfl⟩

theorem fits_string {head : Head} {wrap : List Bytes → Item} (hbody : body.length < 2 ^ 63)
    (hfits : ∀ chunks : List Bytes, chunks.flatten.length < 2 ^ 63 →
      (wrap chunks).Fits levels tagged)
    (h : ((readString head body).bind fun (chunks, rest) => some (wrap chunks, rest)) =
      some (item, rest)) : item.Fits levels tagged ∧ rest.length ≤ body.length := by
  obtain ⟨chunks, hstring, rfl⟩ := exists_of_wrapped h
  have hlength := length_of_readString hstring
  exact ⟨hfits chunks (by omega), by omega⟩

theorem fits_members {width : Nat} {head : Head} {wrap : List Item → Item}
    (hread : ReadsWithin fuel) (hbody : body.length < 2 ^ 63) (hwidth : 0 < width)
    (hfits : ∀ items : List Item, items.length / width ≤ maxCount →
      (∀ item ∈ items, item.Fits levels false) → (wrap items).Fits (levels + 1) tagged)
    (h : ((readMembers (readItem fuel levels false) width head body).bind
      fun (items, rest) => some (wrap items, rest)) = some (item, rest)) :
    item.Fits (levels + 1) tagged ∧ rest.length ≤ body.length := by
  obtain ⟨items, hitems, rfl⟩ := exists_of_wrapped h
  obtain ⟨hcount, hall, hrest⟩ :=
    readMembers_keeps (fun hb hitem => hread (Nat.lt_of_le_of_lt hb hbody) hitem) hwidth
      (Nat.le_refl _) hitems
  exact ⟨hfits items hcount hall, hrest⟩

theorem fits_tag {number : Nat} (hread : ReadsWithin fuel) (hbody : body.length < 2 ^ 63)
    (hfits : ∀ content : Item, content.Fits levels true →
      (Item.tag number content).Fits outer tagged)
    (h : ((readItem fuel levels true body).bind
      fun (content, rest) => some (.tag number content, rest)) = some (item, rest)) :
    item.Fits outer tagged ∧ rest.length ≤ body.length := by
  obtain ⟨content, hcontent, rfl⟩ := exists_of_wrapped h
  obtain ⟨hinner, hrest⟩ := hread hbody hcontent
  exact ⟨hfits content hinner, hrest⟩

end Shapes

/-- Every item that is read keeps the limits. -/
theorem readItem_fits (fuel : Nat) : ReadsWithin fuel := by
  induction fuel with
  | zero => exact fun _ h => by cases h
  | succ fuel ih =>
      intro levels tagged b rest item hb h
      simp only [readItem, Option.bind_eq_bind, Option.bind_eq_some_iff] at h
      obtain ⟨⟨head, body⟩, hhead, h⟩ := h
      have hshorter := length_of_readHead hhead
      have hbody : body.length < 2 ^ 63 := Nat.lt_trans hshorter hb
      have hleaf {found : Item} (hfound : found.Fits levels tagged)
          (h : some (found, body) = some (item, rest)) :
          item.Fits levels tagged ∧ rest.length ≤ body.length := by
        obtain ⟨rfl, rfl⟩ := Prod.mk.inj (Option.some.inj h)
        exact ⟨hfound, Nat.le_refl _⟩
      suffices hitem : item.Fits levels tagged ∧ rest.length ≤ body.length from
        ⟨hitem.1, Nat.le_trans hitem.2 (Nat.le_of_lt hshorter)⟩
      split at h
      · exact hleaf .unsigned h
      · exact hleaf .negative h
      · exact fits_string hbody (fun _ _ => .bytes) h
      · exact fits_string hbody (fun _ => .text) h
      · cases levels with
        | zero => cases h
        | succ levels =>
            refine fits_members ih hbody Nat.zero_lt_one (fun items hcount hall => ?_) h
            exact .array (by rwa [Nat.div_one] at hcount) hall
      · cases levels with
        | zero => cases h
        | succ levels => exact fits_members ih hbody Nat.zero_lt_two (fun _ => .map) h
      · cases tagged with
        | false => exact fits_tag ih hbody (fun _ => .tag) h
        | true =>
            cases levels with
            | zero => cases h
            | succ levels => exact fits_tag ih hbody (fun _ => .secondTag) h
      · refine hleaf ?_ h
        unfold simpleOf
        split
        · exact .float
        · exact .simple

theorem decode_fits {b : Bytes} {item : Item} (hb : b.length < 2 ^ 63)
    (h : decode b = some item) : item.Fits maxNesting false :=
  (readItem_fits b.length hb (decode_eq_some_iff.1 h)).1

namespace Item

variable {levels more : Nat} {tagged : Bool} {item inner : Item}

theorem Fits.mono (h : item.Fits levels tagged) (hle : levels ≤ more) : item.Fits more tagged := by
  induction h generalizing more with
  | unsigned => exact .unsigned
  | negative => exact .negative
  | bytes => exact .bytes
  | text hlength => exact .text hlength
  | array hcount _ ih =>
      obtain ⟨more, rfl⟩ : ∃ k, more = k + 1 := ⟨more - 1, by omega⟩
      exact .array hcount fun item hmem => ih item hmem (by omega)
  | map hcount _ ih =>
      obtain ⟨more, rfl⟩ : ∃ k, more = k + 1 := ⟨more - 1, by omega⟩
      exact .map hcount fun item hmem => ih item hmem (by omega)
  | tag _ ih => exact .tag (ih hle)
  | secondTag _ ih =>
      obtain ⟨more, rfl⟩ : ∃ k, more = k + 1 := ⟨more - 1, by omega⟩
      exact .secondTag (ih (by omega))
  | simple => exact .simple
  | float => exact .float

theorem Fits.content {number : Nat} (h : (Item.tag number item).Fits levels tagged) :
    item.Fits levels true := by
  cases h with
  | tag hcontent => exact hcontent
  | secondTag hcontent => exact hcontent.mono (Nat.le_succ _)

theorem Fits.untagged (h : item.Fits levels tagged) (hinner : item.untagged = some inner) :
    ∃ tagged, inner.Fits levels tagged := by
  fun_induction Item.untagged item generalizing tagged with
  | case1 => cases hinner
  | case2 =>
      obtain rfl := Option.some.inj hinner
      exact ⟨tagged, h⟩
  | case3 _ _ _ _ ih => exact ih h.content hinner
  | case4 =>
      obtain rfl := Option.some.inj hinner
      exact ⟨tagged, h⟩

end Item

theorem mem_of_recordOf {flat : List Item} {r : Record} (h : recordOf flat = some r) :
    ∀ field ∈ r, field.2 ∈ flat := by
  fun_induction recordOf flat generalizing r with
  | case1 key value rest ih =>
      simp only [Option.bind_eq_bind, Option.bind_eq_some_iff] at h
      obtain ⟨named, -, more, hmore, hend⟩ := h
      obtain rfl := Option.some.inj hend
      have hlater : ∀ field ∈ more, field.2 ∈ key :: value :: rest := fun field hmem =>
        List.mem_cons_of_mem _ (List.mem_cons_of_mem _ (ih hmore field hmem))
      cases named with
      | none => exact hlater
      | some number => exact List.forall_mem_cons.2 ⟨by simp, hlater⟩
  | case2 flat =>
      obtain rfl := Option.some.inj h
      simp

theorem Item.Fits.record? {levels : Nat} {tagged : Bool} {item : Item}
    (h : item.Fits levels tagged) {r : Record} (hr : item.record? = some r) :
    ∀ field ∈ r, ∃ l, levels = l + 1 ∧ field.2.Fits l false := by
  obtain ⟨inner, hinner, hr⟩ := Option.bind_eq_some_iff.1 hr
  obtain ⟨tagged, hfits⟩ := h.untagged hinner
  intro field hmem
  cases inner with
  | map flat =>
      cases hfits with
      | @map l _ _ _ hall => exact ⟨l, rfl, hall _ (mem_of_recordOf hr field hmem)⟩
  | _ =>
      simp only at hr
      split at hr
      · obtain rfl := Option.some.inj hr
        cases hmem
      · cases hr

theorem Item.Fits.list? {levels : Nat} {tagged : Bool} {item : Item}
    (h : item.Fits levels tagged) {items : List Item} (hitems : item.list? = some items) :
    items.length ≤ maxCount ∧ ∀ item ∈ items, ∃ l, levels = l + 1 ∧ item.Fits l false := by
  obtain ⟨inner, hinner, hitems⟩ := Option.bind_eq_some_iff.1 hitems
  obtain ⟨tagged, hfits⟩ := h.untagged hinner
  cases inner with
  | array found =>
      obtain rfl := Option.some.inj hitems
      cases hfits with
      | @array l _ _ hcount hall => exact ⟨hcount, fun item hmem => ⟨l, rfl, hall item hmem⟩⟩
  | _ =>
      simp only at hitems
      split at hitems
      · obtain rfl := Option.some.inj hitems
        simp
      · cases hitems

theorem isWellFormed_ofBytes_flatten {chunks : List Bytes}
    (h : ∀ chunk ∈ chunks, (Text.ofBytes chunk).isWellFormed = true) :
    (Text.ofBytes chunks.flatten).isWellFormed = true := by
  induction chunks with
  | nil => rfl
  | cons chunk chunks ih =>
      obtain ⟨hchunk, hchunks⟩ := List.forall_mem_cons.1 h
      rw [List.flatten_cons, Text.ofBytes_append hchunk, Text.isWellFormed_append, hchunk,
        ih hchunks]
      rfl

theorem Item.Fits.text? {levels : Nat} {tagged : Bool} {item : Item}
    (h : item.Fits levels tagged) {t : Text} (ht : item.text? = some t) : t.Proper := by
  obtain ⟨inner, hinner, ht⟩ := Option.bind_eq_some_iff.1 ht
  obtain ⟨tagged, hfits⟩ := h.untagged hinner
  cases inner with
  | text chunks =>
      cases hfits with
      | text hlength =>
          simp only [textOfChunks?] at ht
          split at ht
          · next hwell =>
            obtain rfl := Option.some.inj ht
            exact ⟨isWellFormed_ofBytes_flatten (List.all_eq_true.1 hwell),
              by rwa [Text.size_ofBytes]⟩
          · cases ht
  | _ =>
      simp only at ht
      split at ht
      · obtain rfl := Option.some.inj ht
        exact Text.proper_nil
      · cases ht

theorem Record.field_eq_some {α : Type} {r : Record} {k : Nat} {zero x : α}
    {read : Item → Option α} (h : r.field k zero read = some x) :
    x = zero ∨ ∃ field ∈ r, read field.2 = some x := by
  unfold Record.field at h
  split at h
  · exact Or.inl (Option.some.inj h).symm
  · next item hitem =>
    obtain ⟨before, after, rfl, -⟩ := List.lookup_eq_some_iff.1 hitem
    exact Or.inr ⟨(k, item), by simp, h⟩

theorem Record.text_of_field {r : Record} {levels k : Nat} {t : Text}
    (hfields : ∀ field ∈ r, ∃ l, levels = l + 1 ∧ field.2.Fits l false)
    (h : r.field k [] Item.text? = some t) : t.Proper := by
  obtain rfl | ⟨field, hmem, hread⟩ := field_eq_some h
  · exact Text.proper_nil
  · obtain ⟨l, -, hfield⟩ := hfields field hmem
    exact hfield.text? hread

end Tortoise.Cbor
