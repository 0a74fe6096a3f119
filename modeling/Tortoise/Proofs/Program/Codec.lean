import Tortoise.Proofs.Program.Nodes

/-!
# Programs read back

A program that can be written is read back unchanged if it survives, that is, if its expressions
are complete, its texts well-formed and its size and depth within the reader's limits. If it does
not survive, it is refused: it is never read as another program.
-/

namespace Tortoise

def Instruction.texts (ins : Instruction) : List Text :=
  ins.command.spelling :: ins.name :: ins.expr.texts

theorem Text.Proper.storable {t : Text} (h : t.Proper) : t.Storable :=
  ⟨ofBytes_bytes h.wellFormed, h.size_lt⟩

structure Program.Storable (p : Program) : Prop where
  size_lt : p.size < 2 ^ 63
  texts : ∀ ins ∈ p, ∀ t ∈ ins.texts, t.Storable

/-- A program within the limits of reading. The record of a program, the list in it and the record
of an instruction are the three levels above an expression. -/
structure Program.WithinLimits (p : Program) : Prop where
  size_le : p.size ≤ Cbor.maxCount
  depth_le : ∀ ins ∈ p, 3 + ins.expr.depth ≤ Cbor.maxNesting

structure Program.Survives (p : Program) : Prop extends p.WithinLimits where
  complete : ∀ ins ∈ p, ins.expr = .absent ∨ ins.expr.isComplete = true
  wellFormed : ∀ ins ∈ p, ∀ t ∈ ins.texts, t.isWellFormed = true

def Expr.node (e : Expr) : Node :=
  match Node.ofExpr e with
  | .ok n => n
  | .error _ => .missing

theorem Expr.node_eq {e : Expr} {n : Node} (h : Node.ofExpr e = .ok n) : e.node = n := by
  rw [node, h]

def Expr.negated : Nat → Expr → Expr
  | 0, e => e
  | count + 1, e => .unary .negate (negated count e)

theorem Expr.depth_negated (count : Nat) (e : Expr) :
    (negated count e).depth = count + e.depth := by
  induction count with
  | zero => rw [negated, Nat.zero_add]
  | succ count ih => rw [negated, depth, ih, Nat.add_right_comm]

theorem Expr.isComplete_negated (count : Nat) {e : Expr} (h : e.isComplete = true) :
    (negated count e).isComplete = true := by
  induction count with
  | zero => exact h
  | succ count ih => exact ih

structure Instruction.Encodable (ins : Instruction) : Prop where
  node : Node.ofExpr ins.expr = .ok ins.expr.node
  target : Binary.fits ins.target = true
  onTrue : Binary.fits ins.onTrue = true
  onFalse : Binary.fits ins.onFalse = true

/-- An instruction that can be written and, `levels` levels of its expression permitting, read. -/
structure Instruction.Sound (levels : Nat) (ins : Instruction) : Prop where
  complete : ins.expr = .absent ∨ ins.expr.isComplete = true
  depth_le : ins.expr.depth ≤ levels
  texts : ∀ t ∈ ins.texts, t.Proper
  encodable : ins.Encodable

theorem Expr.ofExpr_eq_node {e : Expr} (h : e = .absent ∨ e.isComplete = true) :
    Node.ofExpr e = .ok e.node := by
  have hnode : ∃ n, Node.ofExpr e = .ok n := by
    obtain rfl | hcomplete := h
    · exact ⟨_, rfl⟩
    · exact Node.exists_ofExpr hcomplete
  obtain ⟨n, hn⟩ := hnode
  rw [hn, node_eq hn]

namespace Binary

open Cbor

theorem fits_iff {n : Int} : fits n = true ↔ -2 ^ 63 ≤ n ∧ n < 2 ^ 63 := by
  simp [fits]

section Instructions

variable {ins : Instruction}

theorem encodeInstruction_eq_ok_iff {index : Nat} {item : Item} :
    encodeInstruction index ins = .ok item ↔
      ins.Encodable ∧ item = instructionItem ins ins.expr.node := by
  unfold encodeInstruction
  cases hnode : Node.ofExpr ins.expr with
  | error kind =>
      refine ⟨by simp, ?_⟩
      rintro ⟨hins, -⟩
      rw [hins.node] at hnode
      cases hnode
  | ok n =>
      rw [Expr.node_eq hnode]
      constructor
      · intro h
        simp only at h
        split at h
        · next hplaces =>
          simp only [Bool.and_eq_true] at hplaces
          obtain ⟨⟨htarget, htrue⟩, hfalse⟩ := hplaces
          exact ⟨⟨by rw [hnode, Expr.node_eq hnode], htarget, htrue, hfalse⟩,
            (Except.ok.inj h).symm⟩
        · cases h
      · rintro ⟨hins, rfl⟩
        simp [hins.target, hins.onTrue, hins.onFalse]

def instructionFields (ins : Instruction) (n : Node) : Record :=
  [(1, .ofText ins.command.spelling)] ++ textField 2 ins.name ++ nodeField 3 n
    ++ intField 4 ins.target ++ intField 5 ins.onTrue ++ intField 6 ins.onFalse
    ++ intField 7 ins.action.toNat

theorem length_instructionFields (ins : Instruction) (n : Node) :
    (instructionFields ins n).length ≤ 7 := by
  have hname := length_textField_le 2 ins.name
  have hexpr := length_nodeField_le 3 n
  have htarget := length_intField_le 4 ins.target
  have htrue := length_intField_le 5 ins.onTrue
  have hfalse := length_intField_le 6 ins.onFalse
  have haction := length_intField_le 7 ins.action.toNat
  simp only [instructionFields, List.length_append, List.length_singleton]
  omega

theorem lookup_instructionFields (ins : Instruction) (n : Node) (k : Nat) :
    (instructionFields ins n).lookup k =
      (((((((if k = 1 then some (.ofText ins.command.spelling) else none).or
        (if k = 2 ∧ ins.name ≠ [] then some (.ofText ins.name) else none)).or
        (if k = 3 then nodeItem? n else none)).or
        (if k = 4 ∧ ins.target ≠ 0 then some (.ofInt ins.target) else none)).or
        (if k = 5 ∧ ins.onTrue ≠ 0 then some (.ofInt ins.onTrue) else none)).or
        (if k = 6 ∧ ins.onFalse ≠ 0 then some (.ofInt ins.onFalse) else none)).or
        (if k = 7 ∧ (ins.action.toNat : Int) ≠ 0 then some (.ofInt ins.action.toNat) else none))
      := by
  simp only [instructionFields, List.lookup_append, lookup_singleton, lookup_intField,
    lookup_textField, lookup_nodeField]

theorem texts_node (hins : ins.Encodable) {P : Text → Prop} (hnil : P []) :
    (∀ t ∈ ins.expr.node.texts, P t) ↔ ∀ t ∈ ins.expr.texts, P t :=
  Node.forall_texts_of_ofExpr hnil hins.node

theorem canonical_instructionItem (hins : ins.Encodable)
    (htexts : ∀ t ∈ ins.texts, t.size < 2 ^ 63) :
    (instructionItem ins ins.expr.node).Canonical := by
  simp only [Instruction.texts, List.forall_mem_cons] at htexts
  obtain ⟨hcommand, hname, hexpr⟩ := htexts
  have hnode := canonical_nodeItem? ((texts_node hins (by decide)).2 hexpr)
  have hlength := length_instructionFields ins ins.expr.node
  have haction := ins.action.toNat_lt
  change (Item.ofFields (instructionFields ins ins.expr.node)).Canonical
  refine Item.canonical_ofFields (by omega) ?_
  simp only [instructionFields, List.forall_mem_append, List.forall_mem_singleton]
  refine ⟨⟨⟨⟨⟨⟨⟨by decide, Item.canonical_ofText (by omega)⟩, ?_⟩, ?_⟩, ?_⟩, ?_⟩, ?_⟩, ?_⟩
  · exact forall_mem_textField ⟨by simp, Item.canonical_ofText (by omega)⟩
  · exact forall_mem_nodeField.2 fun item hitem => ⟨by simp, hnode item hitem⟩
  · exact forall_mem_intField ⟨by simp, Item.canonical_ofInt (fits_iff.1 hins.target)⟩
  · exact forall_mem_intField ⟨by simp, Item.canonical_ofInt (fits_iff.1 hins.onTrue)⟩
  · exact forall_mem_intField ⟨by simp, Item.canonical_ofInt (fits_iff.1 hins.onFalse)⟩
  · have haction : -2 ^ 63 ≤ (ins.action.toNat : Int) ∧ (ins.action.toNat : Int) < 2 ^ 63 := by
      omega
    exact forall_mem_intField ⟨by simp, Item.canonical_ofInt haction⟩

theorem fits_instructionItem_iff (hins : ins.Encodable)
    (htexts : ∀ t ∈ ins.texts, t.size < 2 ^ 63) {levels : Nat} :
    (instructionItem ins ins.expr.node).Fits (levels + 1) false ↔ ins.expr.depth ≤ levels := by
  simp only [Instruction.texts, List.forall_mem_cons] at htexts
  obtain ⟨hcommand, hname, hexpr⟩ := htexts
  have hnode := @fits_nodeItem?_iff ins.expr.node levels ((texts_node hins (by decide)).2 hexpr)
  have hlength := length_instructionFields ins ins.expr.node
  change (Item.ofFields (instructionFields ins ins.expr.node)).Fits (levels + 1) false ↔ _
  rw [Item.fits_ofFields_iff, ← Node.depth_of_ofExpr hins.node, ← hnode]
  constructor
  · rintro ⟨-, hfields⟩
    simp only [instructionFields, List.forall_mem_append, forall_mem_nodeField] at hfields
    exact hfields.1.1.1.1.2
  · intro hexpr
    refine ⟨Nat.le_trans hlength (by decide), ?_⟩
    simp only [instructionFields, List.forall_mem_append, List.forall_mem_singleton]
    refine ⟨⟨⟨⟨⟨⟨Item.fits_ofText (by omega) _, ?_⟩, ?_⟩, ?_⟩, ?_⟩, ?_⟩, ?_⟩
    · exact forall_mem_textField (Item.fits_ofText (by omega) _)
    · exact forall_mem_nodeField.2 hexpr
    · exact forall_mem_intField (Item.fits_ofInt ins.target _)
    · exact forall_mem_intField (Item.fits_ofInt ins.onTrue _)
    · exact forall_mem_intField (Item.fits_ofInt ins.onFalse _)
    · exact forall_mem_intField (Item.fits_ofInt (ins.action.toNat : Int) _)

def storedForm (ins : Instruction) : Stored where
  command := ins.command.spelling
  name := ins.name
  expr := ins.expr.node
  target := .ofInt ins.target
  onTrue := .ofInt ins.onTrue
  onFalse := .ofInt ins.onFalse
  action := ins.action

theorem storedOf_instructionItem_iff (hins : ins.Encodable) (hdepth : ins.expr.depth ≤ maxNesting)
    (htexts : ∀ t ∈ ins.texts, Text.ofBytes t.bytes = t) {s : Stored} :
    storedOf (instructionItem ins ins.expr.node) = some s ↔
      (∀ t ∈ ins.texts, t.isWellFormed = true) ∧ s = storedForm ins := by
  simp only [Instruction.texts, List.forall_mem_cons] at htexts ⊢
  obtain ⟨hcommand, hname, hexpr⟩ := htexts
  have hlookup := lookup_instructionFields ins ins.expr.node
  change storedOf (Item.ofFields (instructionFields ins ins.expr.node)) = some s ↔ _
  generalize instructionFields ins ins.expr.node = r at hlookup
  have hcommand (u : Text) : r.field 1 [] Item.text? = some u ↔
      ins.command.spelling.isWellFormed = true ∧ u = ins.command.spelling := by
    rw [Record.field, hlookup]
    exact Item.text?_ofText hcommand
  have hname (u : Text) : r.field 2 [] Item.text? = some u ↔ _ :=
    field_text (by simp [hlookup, lookup_textField]) hname
  have hexpr (n : Node) : r.field 3 .missing (nodeOf maxNesting) = some n ↔
      (∀ t ∈ ins.expr.texts, t.isWellFormed = true) ∧ n = ins.expr.node := by
    rw [← texts_node hins (P := fun t => t.isWellFormed = true) rfl]
    refine field_node (by simp [hlookup, lookup_nodeField]) (fun hmissing => ?_)
      fun item hitem => ?_
    · simp [hmissing, Node.texts]
    · exact nodeOf_nodeItem?_iff (by rwa [Node.depth_of_ofExpr hins.node])
        ((texts_node hins (P := fun t => Text.ofBytes t.bytes = t) rfl).2 hexpr) hitem
  have htarget : r.field 4 0 Item.int64? = some (.ofInt ins.target) :=
    field_int (by simp [hlookup, lookup_intField]) (fits_iff.1 hins.target)
  have htrue : r.field 5 0 Item.int64? = some (.ofInt ins.onTrue) :=
    field_int (by simp [hlookup, lookup_intField]) (fits_iff.1 hins.onTrue)
  have hfalse : r.field 6 0 Item.int64? = some (.ofInt ins.onFalse) :=
    field_int (by simp [hlookup, lookup_intField]) (fits_iff.1 hins.onFalse)
  have haction : r.field 7 0 Item.uint8? = some ins.action :=
    field_byte (by simp [hlookup, lookup_intField])
  simp only [storedOf, Item.record?_ofFields, htarget, htrue, hfalse, haction, Option.bind_eq_bind,
    Option.bind_some, Option.bind_eq_some_iff, hcommand, hname, hexpr, Option.pure_def,
    Option.some.injEq]
  constructor
  · rintro ⟨_, ⟨hcommand, rfl⟩, _, ⟨hname, rfl⟩, _, ⟨hexpr, rfl⟩, rfl⟩
    exact ⟨⟨hcommand, hname, hexpr⟩, rfl⟩
  · rintro ⟨⟨hcommand, hname, hexpr⟩, rfl⟩
    exact ⟨_, ⟨hcommand, rfl⟩, _, ⟨hname, rfl⟩, _, ⟨hexpr, rfl⟩, rfl⟩

theorem decodeInstruction_storedForm_iff (hins : ins.Encodable) {index : Nat}
    {found : Instruction} : decodeInstruction index (storedForm ins) = .ok found ↔
      (ins.expr = .absent ∨ ins.expr.isComplete = true) ∧ found = ins := by
  have hplace {n : Int} (h : fits n = true) : (Int64.ofInt n).toInt = n :=
    Int64.toInt_ofInt_of_le (fits_iff.1 h).1 (fits_iff.1 h).2
  unfold decodeInstruction storedForm
  simp only [hplace hins.target, hplace hins.onTrue, hplace hins.onFalse,
    Command.ofSpelling_spelling]
  cases hread : ins.expr.node.toExpr with
  | error defect =>
      refine ⟨by simp, ?_⟩
      rintro ⟨hcomplete, -⟩
      rw [(Node.toExpr_of_ofExpr hins.node).2 ⟨hcomplete, rfl⟩] at hread
      cases hread
  | ok e =>
      obtain ⟨hcomplete, rfl⟩ := (Node.toExpr_of_ofExpr hins.node).1 hread
      simp only [Except.ok.injEq, hcomplete, true_and]
      exact eq_comm

end Instructions

section Programs

variable {p : Program} {b : Bytes}

def programItem (p : Program) : Item :=
  .ofFields [(1, .ofInt version.toInt),
    (2, .array (p.toList.map fun ins => instructionItem ins ins.expr.node))]

theorem encodeInstructions_eq_ok_iff {items : List Item} :
    (p.toList.zipIdx.mapM fun (ins, index) => encodeInstruction index ins) = .ok items ↔
      (∀ ins ∈ p, ins.Encodable) ∧
        items = p.toList.map fun ins => instructionItem ins ins.expr.node := by
  rw [mapM_zipIdx_eq_ok_iff fun ins _ index item => encodeInstruction_eq_ok_iff]
  simp only [Array.mem_toList_iff]

/-- A program can be written if it is valid and each instruction has a binary form. -/
theorem encode_eq_ok_iff : encode p = .ok b ↔
    p.invalid? = none ∧ (∀ ins ∈ p, ins.Encodable) ∧ b = (programItem p).encode := by
  unfold encode
  cases hvalid : p.invalid? with
  | some e => simp
  | none =>
      simp only [bind_eq_ok, encodeInstructions_eq_ok_iff, pure, Except.pure, Except.ok.injEq,
        true_and]
      constructor
      · rintro ⟨_, ⟨hall, rfl⟩, rfl⟩
        exact ⟨hall, rfl⟩
      · rintro ⟨hall, rfl⟩
        exact ⟨_, ⟨hall, rfl⟩, rfl⟩

/-- What reading does after the bytes have been taken apart. -/
theorem decode_eq_ok_iff {q : Program} : decode b = .ok q ↔
    ∃ stored, (Cbor.decode b).bind contentOf = some (version, stored) ∧
      (stored.zipIdx.mapM fun (s, index) => decodeInstruction index s) = .ok q.toList ∧
      q.invalid? = none := by
  unfold decode
  cases hcontent : (Cbor.decode b).bind contentOf with
  | none => simp
  | some content =>
      obtain ⟨found, stored⟩ := content
      by_cases hversion : found = version
      · subst hversion
        simp only [ne_eq, not_true_eq_false, if_false, bind_eq_ok, Option.some.injEq, Prod.mk.injEq,
          true_and, exists_eq_left']
        constructor
        · rintro ⟨code, hcode, hend⟩
          split at hend
          · cases hend
          · next hvalid =>
            obtain rfl := Except.ok.inj hend
            exact ⟨hcode, hvalid⟩
        · rintro ⟨hcode, hvalid⟩
          exact ⟨_, hcode, by rw [Array.toArray_toList, hvalid]; rfl⟩
      · simp [hversion]

theorem decode_storedForms_iff (hencodable : ∀ ins ∈ p, ins.Encodable) {code : List Instruction} :
    ((p.toList.map storedForm).zipIdx.mapM fun (s, index) => decodeInstruction index s) =
        .ok code ↔
      (∀ ins ∈ p, ins.expr = .absent ∨ ins.expr.isComplete = true) ∧ code = p.toList := by
  rw [List.zipIdx_map, List.mapM_map, mapM_zipIdx_eq_ok_iff (g := id) fun ins hmem index found =>
    decodeInstruction_storedForm_iff (hencodable ins (Array.mem_toList_iff.1 hmem))]
  simp only [Array.mem_toList_iff, List.map_id_fun, id_eq]

variable (hencodable : ∀ ins ∈ p, ins.Encodable) (hstorable : p.Storable)

include hencodable hstorable

theorem canonical_programItem : (programItem p).Canonical := by
  have hsize := hstorable.size_lt
  refine Item.canonical_ofFields (by simp) ?_
  simp only [List.mem_cons, List.not_mem_nil, or_false, forall_eq_or_imp, forall_eq]
  refine ⟨⟨by decide, Item.canonical_ofInt (by decide)⟩, by decide, .array ?_ ?_⟩
  · rw [List.length_map, Array.length_toList]
    omega
  · simp only [List.forall_mem_map, Array.mem_toList_iff]
    intro ins hmem
    exact canonical_instructionItem (hencodable ins hmem) fun t ht =>
      (hstorable.texts ins hmem t ht).size_lt

theorem fits_programItem_iff : (programItem p).Fits maxNesting false ↔
    p.size ≤ maxCount ∧ ∀ ins ∈ p, 3 + ins.expr.depth ≤ maxNesting := by
  have hins {ins : Instruction} (hmem : ins ∈ p) :
      (instructionItem ins ins.expr.node).Fits 1022 false ↔ ins.expr.depth ≤ 1021 :=
    fits_instructionItem_iff (hencodable ins hmem) fun t ht =>
      (hstorable.texts ins hmem t ht).size_lt
  change (Item.ofFields _).Fits (1023 + 1) false ↔ _
  rw [Item.fits_ofFields_iff]
  simp only [List.mem_cons, List.not_mem_nil, or_false, forall_eq_or_imp, forall_eq,
    Item.fits_ofInt, true_and]
  rw [fits_array_iff, List.length_map, Array.length_toList]
  simp only [List.forall_mem_map, Array.mem_toList_iff]
  constructor
  · rintro ⟨-, hsize, hall⟩
    refine ⟨hsize, fun ins hmem => ?_⟩
    have hdepth := (hins hmem).1 (hall ins hmem)
    change 3 + ins.expr.depth ≤ 1024
    omega
  · rintro ⟨hsize, hall⟩
    refine ⟨by simp [maxCount], hsize, fun ins hmem => (hins hmem).2 ?_⟩
    have hdepth : 3 + ins.expr.depth ≤ 1024 := hall ins hmem
    omega

theorem contentOf_programItem_iff (hdepth : ∀ ins ∈ p, 3 + ins.expr.depth ≤ maxNesting)
    {content : Int64 × List Stored} : contentOf (programItem p) = some content ↔
      (∀ ins ∈ p, ∀ t ∈ ins.texts, t.isWellFormed = true) ∧
        content = (version, p.toList.map storedForm) := by
  have hversion : Record.field [(1, .ofInt version.toInt), (2, .array (p.toList.map fun ins =>
      instructionItem ins ins.expr.node))] 1 0 Item.int64? = some version := by
    change Item.int64? (.ofInt version.toInt) = some version
    rw [Item.int64?_ofInt (by decide), Int64.ofInt_toInt]
  have hlist : Record.field [(1, .ofInt version.toInt), (2, .array (p.toList.map fun ins =>
      instructionItem ins ins.expr.node))] 2 [] Item.list? =
        some (p.toList.map fun ins => instructionItem ins ins.expr.node) := rfl
  have hstored {stored : List Stored} : p.toList.mapM (storedOf ∘ fun ins =>
      instructionItem ins ins.expr.node) = some stored ↔ _ :=
    mapM_eq_some_iff fun ins hmem s => by
      rw [Array.mem_toList_iff] at hmem
      have := hdepth ins hmem
      exact storedOf_instructionItem_iff (hencodable ins hmem) (by omega) fun t ht =>
        (hstorable.texts ins hmem t ht).ofBytes_eq
  simp only [contentOf, programItem, Item.record?_ofFields, hversion, hlist, List.mapM_map, hstored,
    Option.bind_eq_bind, Option.bind_some, Option.bind_eq_some_iff, Option.pure_def,
    Option.some.injEq, Array.mem_toList_iff]
  constructor
  · rintro ⟨_, ⟨hall, rfl⟩, rfl⟩
    exact ⟨hall, rfl⟩
  · rintro ⟨hall, rfl⟩
    exact ⟨_, ⟨hall, rfl⟩, rfl⟩

end Programs

/-- A written program is read as itself if it survives, and not at all otherwise. -/
theorem decode_encode_eq_ok_iff {p q : Program} {b : Bytes} (hstorable : p.Storable)
    (hencode : encode p = .ok b) : decode b = .ok q ↔ p.Survives ∧ q = p := by
  obtain ⟨hvalid, hencodable, rfl⟩ := encode_eq_ok_iff.1 hencode
  rw [decode_eq_ok_iff]
  constructor
  · rintro ⟨stored, hcontent, hcode, -⟩
    obtain ⟨item, hitem, hcontent⟩ := Option.bind_eq_some_iff.1 hcontent
    obtain ⟨hfits, rfl⟩ := (canonical_programItem hencodable hstorable).decode_encode.1 hitem
    obtain ⟨hsize, hdepth⟩ := (fits_programItem_iff hencodable hstorable).1 hfits
    obtain ⟨hwell, heq⟩ := (contentOf_programItem_iff hencodable hstorable hdepth).1 hcontent
    obtain rfl := (Prod.mk.inj heq).2
    obtain ⟨hcomplete, hq⟩ := (decode_storedForms_iff hencodable).1 hcode
    exact ⟨⟨⟨hsize, hdepth⟩, hcomplete, hwell⟩, Array.toList_inj.1 hq⟩
  · rintro ⟨hsurvives, rfl⟩
    have hfits := (fits_programItem_iff hencodable hstorable).2
      ⟨hsurvives.size_le, hsurvives.depth_le⟩
    have hitem := (canonical_programItem hencodable hstorable).decode_encode.2 ⟨hfits, rfl⟩
    have hcontent := (contentOf_programItem_iff hencodable hstorable hsurvives.depth_le).2
      ⟨hsurvives.wellFormed, rfl⟩
    exact ⟨_, Option.bind_eq_some_iff.2 ⟨_, hitem, hcontent⟩,
      (decode_storedForms_iff hencodable).2 ⟨hsurvives.complete, rfl⟩, hvalid⟩

/-- Every error of reading says that the encoding is malformed. -/
theorem FormatError.exists_message_eq (e : FormatError) :
    ∃ before after : String, e.message = before ++ "malformed program encoding" ++ after := by
  cases e with
  | malformed => exact ⟨"opcode: unmarshal: ", ": <cbor>", by decide⟩
  | version found =>
      refine ⟨"opcode: unmarshal: ", ": unsupported version " ++ Text.ofInt64 found, ?_⟩
      rw [← String.append_assoc]
      rfl
  | node index defect =>
      have hwords (rest : String) : ": " ++ ("malformed program encoding" ++ (": " ++ rest)) =
          ": malformed program encoding: " ++ rest := by
        simp only [← String.append_assoc, String.reduceAppend]
      refine ⟨"opcode: unmarshal instruction " ++ toString index ++ ": ",
        ": " ++ defect.message, ?_⟩
      rw [String.append_assoc, String.append_assoc, hwords, ← String.append_assoc]
      rfl
  | invalid error =>
      refine ⟨"opcode: unmarshal: ", ": " ++ error.message, ?_⟩
      rw [← String.append_assoc]
      rfl

def Refused (b : Bytes) : Prop :=
  ∃ e : FormatError, decode b = .error e ∧
    ∃ before after : String, e.message = before ++ "malformed program encoding" ++ after

theorem refused_iff {b : Bytes} : Refused b ↔ ∀ p, decode b ≠ .ok p := by
  constructor
  · rintro ⟨e, he, -⟩ p hp
    rw [he] at hp
    cases hp
  · intro h
    cases hdecode : decode b with
    | ok p => exact absurd hdecode (h p)
    | error e => exact ⟨e, hdecode, e.exists_message_eq⟩

theorem refused_of_not_survives {p : Program} {b : Bytes} (hstorable : p.Storable)
    (hencode : encode p = .ok b) (h : ¬ p.Survives) : Refused b :=
  refused_iff.2 fun _ hq => h ((decode_encode_eq_ok_iff hstorable hencode).1 hq).1

/-- For sound instructions it only matters whether the program is within the limits. -/
theorem recode_of_sound {p : Program} {levels : Nat} (hvalid : p.invalid? = none)
    (hsize : p.size < 2 ^ 63) (hsound : ∀ ins ∈ p, ins.Sound levels) :
    ∃ b, encode p = .ok b ∧ (p.WithinLimits → decode b = .ok p) ∧
      (¬ p.WithinLimits → Refused b) := by
  have hstorable : p.Storable :=
    ⟨hsize, fun ins hmem t ht => ((hsound ins hmem).texts t ht).storable⟩
  have hencode := encode_eq_ok_iff.2 ⟨hvalid, fun ins hmem => (hsound ins hmem).encodable, rfl⟩
  refine ⟨_, hencode, fun hlimits => ?_, fun hlimits => ?_⟩
  · have hsurvives : p.Survives :=
      ⟨hlimits, fun ins hmem => (hsound ins hmem).complete,
        fun ins hmem t ht => ((hsound ins hmem).texts t ht).wellFormed⟩
    exact (decode_encode_eq_ok_iff hstorable hencode).2 ⟨hsurvives, rfl⟩
  · exact refused_of_not_survives hstorable hencode fun hsurvives =>
      hlimits hsurvives.toWithinLimits

end Binary

/-- Reading undoes writing, and a program that cannot be read back is refused. -/
theorem decoding_undoes_encoding {p : Program} {b : Bytes} (hstorable : p.Storable)
    (hencode : Binary.encode p = .ok b) :
    (p.Survives → Binary.decode b = .ok p) ∧ (¬ p.Survives → Binary.Refused b) := by
  constructor
  · intro hsurvives
    exact (Binary.decode_encode_eq_ok_iff hstorable hencode).2 ⟨hsurvives, rfl⟩
  · exact Binary.refused_of_not_survives hstorable hencode

/-- A program with all seven fields set comes back. One whose operator lacks its operand does not,
although it can be written. -/
theorem unused_fields_come_back :
    let name := Text.ofString "größe"
    let full : Instruction :=
      { command := .assign, name, expr := .unary .negate (.var name), target := -300,
        onTrue := 70000, onFalse := 5, action := 9 }
    let p : Program := #[full, { command := .unset, name, expr := .null }]
    let q : Program := #[.act .move (.unary .negate .absent)]
    p.Storable ∧ (∃ b, Binary.encode p = .ok b ∧ Binary.decode b = .ok p) ∧
      q.Storable ∧ ∃ b, Binary.encode q = .ok b ∧ Binary.Refused b := by
  intro name full p q
  have hstorable {p : Program} (hsize : p.size < 2 ^ 63)
      (h : ∀ ins ∈ p.toList, ∀ t ∈ ins.texts, t.Proper) : p.Storable :=
    ⟨hsize, fun ins hmem t ht => (h ins (Array.mem_toList_iff.2 hmem) t ht).storable⟩
  have hp : p.Storable := hstorable (by decide) (by decide)
  have hq : q.Storable := hstorable (by decide) (by decide)
  have hsurvives : p.Survives := ⟨⟨by decide, by decide⟩, by decide, by decide⟩
  have hlacks : ¬ q.Survives := by
    intro h
    have hcomplete := h.complete (.act .move (.unary .negate .absent)) (by simp [q])
    revert hcomplete
    decide
  obtain ⟨b, hb⟩ : ∃ b, Binary.encode p = .ok b := ⟨_, rfl⟩
  obtain ⟨c, hc⟩ : ∃ c, Binary.encode q = .ok c := ⟨_, rfl⟩
  exact ⟨hp, ⟨b, hb, (decoding_undoes_encoding hp hb).1 hsurvives⟩,
    hq, c, hc, (decoding_undoes_encoding hq hc).2 hlacks⟩

end Tortoise
