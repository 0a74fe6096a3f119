import Tortoise.Proofs.Cbor.Limits
import Tortoise.Proofs.Program.Codec

/-!
# Programs that are accepted

Whatever bytes are read as a program, it can be run and written again, and what is written is read
as the same program unless an expression is one level too deep. That happens only one level above
the limit: a tagged null stands for a node without being a record.
-/

namespace Tortoise

namespace Node

/-- The node of a whole expression is missing or gives a complete tree, which is no deeper and has
no other texts. -/
theorem toExpr_sound {n : Node} {e : Expr} (h : n.toExpr = .ok e) :
    (n.isMissing = true ∧ e = .absent ∨ e.isComplete = true) ∧ e.depth ≤ n.depth ∧
      ∀ t ∈ e.texts, t ∈ n.texts := by
  induction n generalizing e with
  | missing =>
      obtain rfl := Except.ok.inj h
      simp [isMissing, Expr.depth, Expr.texts]
  | node kind value name op left right ihl ihr =>
      have hcomplete {child : Node} {operand : Expr} (hpresent : child.isMissing = false)
          (h : child.isMissing = true ∧ operand = .absent ∨ operand.isComplete = true) :
          operand.isComplete = true := by
        refine h.resolve_left fun hmissing => ?_
        rw [hpresent] at hmissing
        cases hmissing.1
      by_cases hunary : kind.toNat = 3
      · obtain ⟨hknown, hpresent, operand, hoperand, rfl⟩ := (toExpr_unary_iff hunary).1 h
        obtain ⟨hsome, hdepth, htexts⟩ := ihl hoperand
        refine ⟨Or.inr ?_, ?_, ?_⟩
        · simp only [Expr.isComplete, hknown, hcomplete hpresent hsome, Bool.and_self]
        · simp only [Expr.depth, depth]
          omega
        · simp only [Expr.texts, Prefix.spelling_ofSpelling, List.forall_mem_cons, texts]
          exact ⟨by simp, fun t ht => by simp [htexts t ht]⟩
      by_cases hbinary : kind.toNat = 4
      · obtain ⟨hknown, hleft, hright, l, hl, r, hr, rfl⟩ := (toExpr_binary_iff hbinary).1 h
        obtain ⟨hlsome, hldepth, hltexts⟩ := ihl hl
        obtain ⟨hrsome, hrdepth, hrtexts⟩ := ihr hr
        refine ⟨Or.inr ?_, ?_, ?_⟩
        · simp only [Expr.isComplete, hknown, hcomplete hleft hlsome, hcomplete hright hrsome,
            Bool.and_self]
        · simp only [Expr.depth, depth]
          omega
        · simp only [Expr.texts, Infix.spelling_ofSpelling, List.forall_mem_cons,
            List.forall_mem_append, texts]
          exact ⟨by simp, fun t ht => by simp [hltexts t ht], fun t ht => by simp [hrtexts t ht]⟩
      simp only [toExpr] at h
      split at h
      · obtain rfl := Except.ok.inj h
        simp [Expr.isComplete, Expr.depth, Expr.texts, depth]
      · obtain rfl := Except.ok.inj h
        simp [Expr.isComplete, Expr.depth, Expr.texts, depth]
      · split at h
        · cases h
        · next hname =>
          obtain rfl := Except.ok.inj h
          simp [Expr.isComplete, Expr.depth, Expr.texts, depth, texts] at hname ⊢
          exact hname
      · contradiction
      · contradiction
      · cases h

end Node

namespace Binary

open Cbor

/-- A record allowed `levels` levels gives a node at most one deeper. -/
theorem nodeOf_sound {fuel levels : Nat} {tagged : Bool} {item : Item} {n : Node}
    (hfits : item.Fits levels tagged) (h : nodeOf fuel item = some n) :
    n.depth ≤ levels + 1 ∧ ∀ t ∈ n.texts, t.Proper := by
  induction fuel generalizing levels tagged item n with
  | zero => cases h
  | succ fuel ih =>
      rw [nodeOf] at h
      split at h
      · obtain rfl := Option.some.inj h
        simp [Node.depth, Node.texts]
      · simp only [Option.bind_eq_bind, Option.bind_eq_some_iff] at h
        obtain ⟨r, hr, kind, -, value, -, name, hname, op, hop, left, hleft, right, hright,
          hend⟩ := h
        obtain rfl := Option.some.inj hend
        have hfields := hfits.record? hr
        have hchild {k : Nat} {child : Node}
            (h : r.field k .missing (nodeOf fuel) = some child) : child.depth ≤ levels ∧
              ∀ t ∈ child.texts, t.Proper := by
          obtain rfl | ⟨field, hmem, hread⟩ := Record.field_eq_some h
          · simp [Node.depth, Node.texts]
          · obtain ⟨l, rfl, hfield⟩ := hfields field hmem
            exact ih hfield hread
        obtain ⟨hldepth, hltexts⟩ := hchild hleft
        obtain ⟨hrdepth, hrtexts⟩ := hchild hright
        refine ⟨?_, ?_⟩
        · simp only [Node.depth]
          omega
        · simp only [Node.texts, List.forall_mem_cons, List.forall_mem_append]
          exact ⟨Record.text_of_field hfields hname, Record.text_of_field hfields hop, hltexts,
            hrtexts⟩

theorem fits_toInt (n : Int64) : fits n.toInt = true :=
  fits_iff.2 ⟨n.le_toInt, n.toInt_lt⟩

theorem decodeInstruction_sound {levels index : Nat} {tagged : Bool} {item : Item} {s : Stored}
    {ins : Instruction} (hfits : item.Fits levels tagged) (hs : storedOf item = some s)
    (h : decodeInstruction index s = .ok ins) : ins.Sound levels := by
  simp only [storedOf, Option.bind_eq_bind, Option.bind_eq_some_iff] at hs
  obtain ⟨r, hr, command, hcommand, name, hname, node, hnode, target, -, onTrue, -, onFalse, -,
    action, -, hend⟩ := hs
  obtain rfl := Option.some.inj hend
  have hfields := hfits.record? hr
  have hstored : node.depth ≤ levels ∧
      ∀ t ∈ node.texts, t.Proper := by
    obtain rfl | ⟨field, hmem, hread⟩ := Record.field_eq_some hnode
    · simp [Node.depth, Node.texts]
    · obtain ⟨l, rfl, hfield⟩ := hfields field hmem
      exact nodeOf_sound hfield hread
  simp only [decodeInstruction] at h
  split at h
  · cases h
  · next e hexpr =>
    obtain rfl := Except.ok.inj h
    obtain ⟨hcomplete, hdepth, htexts⟩ := Node.toExpr_sound hexpr
    have hwhole : e = .absent ∨ e.isComplete = true := hcomplete.imp_left And.right
    refine ⟨hwhole, Nat.le_trans hdepth hstored.1, ?_,
      Expr.ofExpr_eq_node hwhole, fits_toInt _, fits_toInt _, fits_toInt _⟩
    simp only [Instruction.texts, Command.spelling_ofSpelling, List.forall_mem_cons]
    exact ⟨Record.text_of_field hfields hcommand, Record.text_of_field hfields hname,
      fun t ht => hstored.2 t (htexts t ht)⟩

theorem decode_sound {b : Bytes} {p : Program} (hb : b.length < 2 ^ 63) (h : decode b = .ok p) :
    p.invalid? = none ∧ p.size ≤ maxCount ∧ ∀ ins ∈ p, ins.Sound (maxNesting - 2) := by
  obtain ⟨stored, hcontent, hcode, hvalid⟩ := decode_eq_ok_iff.1 h
  obtain ⟨item, hitem, hcontent⟩ := Option.bind_eq_some_iff.1 hcontent
  simp only [contentOf, Option.bind_eq_bind, Option.bind_eq_some_iff] at hcontent
  obtain ⟨r, hr, found, -, items, hitems, stored', hstored, hend⟩ := hcontent
  obtain ⟨-, rfl⟩ := Prod.mk.inj (Option.some.inj hend)
  obtain ⟨hcount, horigin⟩ := exists_of_mapM_eq_some hstored
  obtain ⟨hsize, hsource⟩ := exists_of_mapM_eq_ok hcode
  have hlist : items.length ≤ maxCount ∧ ∀ item ∈ items, item.Fits (maxNesting - 2) false := by
    obtain rfl | ⟨field, hmem, hread⟩ := Record.field_eq_some hitems
    · simp
    · obtain ⟨l, hl, hfield⟩ := (decode_fits hb hitem).record? hr field hmem
      obtain ⟨hlength, hall⟩ := hfield.list? hread
      refine ⟨hlength, fun item hmem => ?_⟩
      obtain ⟨k, rfl, hfits⟩ := hall item hmem
      rw [hl]
      exact hfits
  refine ⟨hvalid, ?_, fun ins hmem => ?_⟩
  · rw [← Array.length_toList, hsize, List.length_zipIdx, hcount]
    exact hlist.1
  · obtain ⟨⟨s, index⟩, hs, hins⟩ := hsource ins (Array.mem_toList_iff.2 hmem)
    obtain ⟨item, hitem, hread⟩ := horigin s (List.fst_mem_of_mem_zipIdx hs)
    exact decodeInstruction_sound (hlist.2 item hitem) hread hins

def recode (b : Bytes) : Option Bytes :=
  match decode b with
  | .error _ => none
  | .ok p =>
    match encode p with
    | .error _ => none
    | .ok c => some c

theorem recode_eq {b c : Bytes} {p : Program} (hp : decode b = .ok p) (hc : encode p = .ok c) :
    recode b = some c := by
  simp only [recode, hp, hc]

/-- Bytes that are read hold a program that can be run and written, and writing it gives the one
encoding that recoding keeps. The exception is a tree one level too deep, whose encoding is
refused. -/
theorem accepted_programs_normalize {b : Bytes} (hb : b.length < 2 ^ 63) :
    Refused b ∨ ∃ p, decode b = .ok p ∧ p.invalid? = none ∧
      (∀ ins ∈ p, (ins.expr = .absent ∨ ins.expr.isComplete = true) ∧
        3 + ins.expr.depth ≤ maxNesting + 1) ∧
      ∃ c, encode p = .ok c ∧ recode b = some c ∧
        ((∀ ins ∈ p, 3 + ins.expr.depth ≤ maxNesting) → decode c = .ok p ∧ recode c = some c) ∧
        ((∃ ins ∈ p, 3 + ins.expr.depth = maxNesting + 1) → Refused c) := by
  by_cases haccepts : ∃ p, decode b = .ok p
  · obtain ⟨p, hdecode⟩ := haccepts
    obtain ⟨hvalid, hsize, hsound⟩ := decode_sound hb hdecode
    obtain ⟨c, hencode, hsame, hrefused⟩ :=
      recode_of_sound hvalid (Nat.lt_of_le_of_lt hsize (by decide)) hsound
    refine Or.inr ⟨p, hdecode, hvalid, fun ins hmem => ⟨(hsound ins hmem).complete, ?_⟩, c,
      hencode, recode_eq hdecode hencode, fun hshallow => ?_, ?_⟩
    · have hdepth : ins.expr.depth ≤ 1022 := (hsound ins hmem).depth_le
      change 3 + ins.expr.depth ≤ 1025
      omega
    · have hsame := hsame ⟨hsize, hshallow⟩
      exact ⟨hsame, recode_eq hsame hencode⟩
    · rintro ⟨ins, hmem, hdeep⟩
      refine hrefused fun hlimits => ?_
      have hdepth := hlimits.depth_le ins hmem
      omega
  · exact Or.inl (refused_iff.2 fun p hp => haccepts ⟨p, hp⟩)

/-- Lengths left open, a number longer than needed and a tagged null are all put right at once. -/
theorem loose_encoding_normalizes :
    let b : Bytes := [0xbf, 0x01, 0x18, 0x01, 0x02, 0x9f, 0xa3, 0x01, 0x66, 0x41, 0x63, 0x74, 0x69,
      0x6f, 0x6e, 0x03, 0xd9, 0xd9, 0xf7, 0xf6, 0x07, 0x03, 0xff, 0xff]
    let c : Bytes := [0xa2, 0x01, 0x01, 0x02, 0x81, 0xa3, 0x01, 0x66, 0x41, 0x63, 0x74, 0x69, 0x6f,
      0x6e, 0x03, 0xa1, 0x01, 0x00, 0x07, 0x03]
    b.length < 2 ^ 63 ∧ decode b = .ok #[.act .move .null] ∧ recode b = some c ∧
      recode c = some c := by
  intro b c
  have hb : b.length < 2 ^ 63 := by decide
  have hdecode : decode b = .ok #[.act .move .null] := rfl
  have hencode : encode #[.act .move .null] = .ok c := rfl
  obtain hrefused | ⟨p, hp, -, -, c', hc', hrecode, hsame, -⟩ := accepted_programs_normalize hb
  · exact absurd hdecode (refused_iff.1 hrefused _)
  · obtain rfl := Except.ok.inj (hp.symm.trans hdecode)
    obtain rfl := Except.ok.inj (hc'.symm.trans hencode)
    exact ⟨hb, hdecode, hrecode, (hsame (by decide)).2⟩

/-- Signs in front of a null, which is tagged and so is a node without being a record. -/
def signItem : (count : Nat) → Item
  | 0 => .tag 55799 (.simple 22)
  | count + 1 => .ofFields [(1, .unsigned 3), (4, .ofText "-"), (5, signItem count)]

def signProgram (count : Nat) : Item :=
  .ofFields [(1, .unsigned 1), (2, .array
    [.ofFields [(1, .ofText "Action"), (3, signItem count), (7, .unsigned 3)]])]

theorem canonical_signItem (count : Nat) : (signItem count).Canonical := by
  induction count with
  | zero => exact .tag (by decide) (.simple (by decide))
  | succ count ih =>
      refine Item.canonical_ofFields (by simp) ?_
      simp only [List.mem_cons, List.not_mem_nil, or_false, forall_eq_or_imp, forall_eq]
      exact ⟨⟨by decide, .unsigned (by decide)⟩, ⟨by decide, Item.canonical_ofText (by decide)⟩,
        by decide, ih⟩

theorem fits_signItem (count : Nat) : (signItem count).Fits count false := by
  induction count with
  | zero => exact .tag .simple
  | succ count ih =>
      refine Item.fits_ofFields_iff.2 ⟨by simp [maxCount], ?_⟩
      simp only [List.mem_cons, List.not_mem_nil, or_false, forall_eq_or_imp, forall_eq]
      exact ⟨.unsigned, Item.fits_ofText (by decide) _, ih⟩

theorem nodeOf_signItem {count fuel : Nat} (h : count < fuel) :
    nodeOf fuel (signItem count) = some (Expr.negated count .null).node := by
  induction count generalizing fuel with
  | zero =>
      obtain ⟨fuel, rfl⟩ : ∃ k, fuel = k + 1 := ⟨fuel - 1, by omega⟩
      rfl
  | succ count ih =>
      obtain ⟨fuel, rfl⟩ : ∃ k, fuel = k + 1 := ⟨fuel - 1, by omega⟩
      obtain ⟨n, hn⟩ := Node.exists_ofExpr (Expr.isComplete_negated count (e := .null) rfl)
      have hnode : (Expr.negated (count + 1) .null).node = .node 3 0 [] "-" n .missing :=
        Expr.node_eq (Node.ofExpr_unary_iff.2 ⟨n, hn, rfl⟩)
      have hoperand := ih (Nat.lt_of_succ_lt_succ h)
      rw [Expr.node_eq hn] at hoperand
      have hkind : (Item.unsigned 3).uint8? = some 3 := rfl
      have hop : (Item.ofText "-").text? = some "-" := rfl
      rw [signItem, hnode, nodeOf, if_neg (by simp [Item.isNull, Item.ofFields]),
        Item.record?_ofFields]
      simp [Record.field, List.lookup_cons, hkind, hop, hoperand]

theorem canonical_signProgram (count : Nat) : (signProgram count).Canonical := by
  refine Item.canonical_ofFields (by simp) ?_
  simp only [List.mem_cons, List.not_mem_nil, or_false, forall_eq_or_imp, forall_eq]
  refine ⟨⟨by decide, .unsigned (by decide)⟩, by decide, .array (by simp) ?_⟩
  simp only [List.mem_singleton, forall_eq]
  refine Item.canonical_ofFields (by simp) ?_
  simp only [List.mem_cons, List.not_mem_nil, or_false, forall_eq_or_imp, forall_eq]
  exact ⟨⟨by decide, Item.canonical_ofText (by decide)⟩, ⟨by decide, canonical_signItem count⟩,
    by decide, .unsigned (by decide)⟩

theorem fits_signProgram (count : Nat) : (signProgram count).Fits (count + 3) false := by
  refine Item.fits_ofFields_iff.2 ⟨by simp [maxCount], ?_⟩
  simp only [List.mem_cons, List.not_mem_nil, or_false, forall_eq_or_imp, forall_eq]
  refine ⟨.unsigned, .array (by simp [maxCount]) ?_⟩
  simp only [List.mem_singleton, forall_eq]
  refine Item.fits_ofFields_iff.2 ⟨by simp [maxCount], ?_⟩
  simp only [List.mem_cons, List.not_mem_nil, or_false, forall_eq_or_imp, forall_eq]
  exact ⟨Item.fits_ofText (by decide) _, fits_signItem count, .unsigned⟩

theorem storedOf_sign {count : Nat} (h : count < maxNesting) :
    storedOf (.ofFields [(1, .ofText "Action"), (3, signItem count), (7, .unsigned 3)]) =
      some (storedForm (.act .move (Expr.negated count .null))) := by
  have hexpr : Record.field [(1, .ofText "Action"), (3, signItem count), (7, .unsigned 3)] 3
      .missing (nodeOf maxNesting) = some (Expr.negated count .null).node := nodeOf_signItem h
  rw [storedOf, Item.record?_ofFields]
  simp only [Option.bind_eq_bind, Option.bind_some, hexpr]
  rfl

theorem contentOf_signProgram {count : Nat} (h : count < maxNesting) :
    contentOf (signProgram count) =
      some (version, [storedForm (.act .move (Expr.negated count .null))]) := by
  have hstored := storedOf_sign h
  rw [contentOf, signProgram, Item.record?_ofFields]
  change ([Item.ofFields [(1, .ofText "Action"), (3, signItem count), (7, .unsigned 3)]].mapM
    storedOf).bind (fun stored => some (version, stored)) = _
  rw [List.mapM_cons, hstored]
  rfl

def negatedProgram (count : Nat) : Program := #[.act .move (Expr.negated count .null)]

theorem forall_mem_negatedProgram {count : Nat} {P : Instruction → Prop}
    (h : P (.act .move (Expr.negated count .null))) : ∀ ins ∈ negatedProgram count, P ins := by
  simpa only [negatedProgram, List.mem_toArray, List.mem_singleton, forall_eq] using h

theorem invalid?_negatedProgram (count : Nat) : (negatedProgram count).invalid? = none := by
  have hpresent : (Expr.negated count .null).isAbsent = false := by cases count <;> rfl
  simp [negatedProgram, Program.invalid?, Instruction.flaw?, Instruction.act, hpresent,
    Action.ofCode?_code]

theorem sound_negatedProgram (count : Nat) :
    ∀ ins ∈ negatedProgram count, ins.Sound (count + 1) := by
  have hcomplete := Expr.isComplete_negated count (e := .null) rfl
  have htexts : ∀ t ∈ (Expr.negated count .null).texts, t.Proper := by
    induction count with
    | zero => simp [Expr.negated, Expr.texts]
    | succ count ih => exact List.forall_mem_cons.2 ⟨by decide, ih hcomplete⟩
  refine forall_mem_negatedProgram ⟨.inr hcomplete, Nat.le_of_eq (Expr.depth_negated count .null),
    ?_, Expr.ofExpr_eq_node (.inr hcomplete), rfl, rfl, rfl⟩
  have hcommand : Text.Proper "Action" := by decide
  exact List.forall_mem_cons.2 ⟨hcommand, List.forall_mem_cons.2 ⟨Text.proper_nil, htexts⟩⟩

/-- As many signs as there are levels are accepted in front of a tagged null. -/
theorem decode_signProgram {count : Nat} (h : 3 + count ≤ maxNesting) :
    decode (signProgram count).encode = .ok (negatedProgram count) := by
  have hfits := (fits_signProgram count).mono (show count + 3 ≤ maxNesting by omega)
  have hitem := (canonical_signProgram count).decode_encode.2 ⟨hfits, rfl⟩
  have hsound := sound_negatedProgram count
  have hcode := (decode_storedForms_iff fun ins hmem => (hsound ins hmem).encodable).2
    ⟨fun ins hmem => (hsound ins hmem).complete, rfl⟩
  exact decode_eq_ok_iff.2 ⟨_, Option.bind_eq_some_iff.2 ⟨_, hitem,
    contentOf_signProgram (by omega)⟩, hcode, invalid?_negatedProgram count⟩

theorem refused_negatedProgram {count : Nat} (h : maxNesting < 4 + count) :
    ∃ c, encode (negatedProgram count) = .ok c ∧ Refused c := by
  obtain ⟨c, hencode, -, hrefused⟩ := recode_of_sound (invalid?_negatedProgram count)
    (by simp [negatedProgram]) (sound_negatedProgram count)
  refine ⟨c, hencode, hrefused fun hlimits => ?_⟩
  have hdepth := hlimits.depth_le _ (Array.mem_singleton.2 rfl)
  rw [Instruction.act, Expr.depth_negated, Expr.depth] at hdepth
  omega

/-- With a sign for each level, the program that is read is written in a form that is refused. -/
theorem tagged_null_recodes_too_deep :
    ∃ p c, decode (signProgram 1021).encode = .ok p ∧ encode p = .ok c ∧ Refused c := by
  obtain ⟨c, hencode, hrefused⟩ := refused_negatedProgram (show maxNesting < 4 + 1021 by decide)
  exact ⟨_, c, decode_signProgram (by decide), hencode, hrefused⟩

end Binary

end Tortoise
